import Stepflow.Proofs.Canvas.Edges
import Stepflow.Proofs.Run.Splicing
import Stepflow.Proofs.Session.Refusals
import Stepflow.Proofs.Workflow.Suggestions

/-!
# Suggested nodes

A suggestion is any text, or none when the service failed. Whatever it says, the edit that it is
made for inserts one node of an insertable kind, or nothing where there is no edge.

* `Canvas.perform_suggested`: the edit is the insertion of a node of the kind that is asked for;
* `Workflow.countP_insertBetween?`, `Workflow.start?_insertBetween?`: an insertion neither begins
  nor ends a run anywhere;
* `Canvas.suggestions_are_harmless`: all that an answer can do.
-/

namespace Stepflow

namespace Workflow

variable {w v : Workflow} {layout : Layout} {id source target : String} {kind : NodeKind}
  {x y : Double}

/-- No kind is counted differently but the one that is inserted. -/
theorem countP_insertBetween? (done : w.insertBetween? layout id source target kind x y = some v)
    {other : NodeKind} (apart : other ≠ kind) :
    v.nodes.countP (·.kind = other) = w.nodes.countP (·.kind = other) := by
  obtain ⟨s, t, shifted, x', y', -, -, -, rfl⟩ := of_insertBetween? done
  have kept : ((fun n : Node => decide (n.kind = other)) ∘
      detour source target id shifted layout.insertGap)
        = fun n : Node => decide (n.kind = other) := by
    funext n
    simp [detour_keeps]
  have new : (Node.between id target kind x' y').kind ≠ other := Ne.symm apart
  rw [nodes_spliced, List.countP_append, List.countP_map, kept]
  simp [new]

theorem start?_insertBetween? (done : w.insertBetween? layout id source target kind x y = some v)
    (insertable : kind.insertable = true) : v.start?.map (·.id) = w.start?.map (·.id) := by
  obtain ⟨s, t, shifted, x', y', -, -, -, rfl⟩ := of_insertBetween? done
  refine start?_spliced fun same => ?_
  have kind : kind = .start := same
  rw [kind] at insertable
  cases insertable

end Workflow

namespace Canvas

variable {c d : Canvas} {id source target : String}

theorem perform_suggested (c : Canvas) (fresh : Nat → String) {answer : Option String}
    {kind : NodeKind} (asked : kind.AskedBy answer) (x y : Double) :
    c.perform fresh (.insertSuggested id source target answer x y)
      = c.perform fresh (.insertBetween id source target kind x y) := by
  rw [← NodeKind.askedBy_iff.1 asked]
  rfl

/-- Nothing is created exactly where there is no edge between two nodes. -/
theorem reply_insertBetween (c : Canvas) (fresh : Nat → String) (kind : NodeKind) (x y : Double) :
    (c.perform fresh (.insertBetween id source target kind x y)).reply = .created none ↔
      c.workflow? id = none ∨ ∃ w, c.workflow? id = some w ∧
        (w.node? source = none ∨ w.node? target = none ∨ ¬w.Leads source target) := by
  have created (new : String) (o : Option Canvas) :
      (c.creation new o).reply = .created none ↔ ¬o.isSome = true := by
    cases o <;> simp [creation]
  refine (created _ _).trans ?_
  rw [insertBetween?, isSome_restructure?, has_congr fun w => Workflow.isSome_insertBetween?]
  cases live : c.workflow? id with
  | none => simp [Has, live]
  | some w =>
    simp only [Has, live, Option.some.injEq, exists_eq_left', reduceCtorEq, false_or]
    constructor
    · intro missing
      by_contra present
      simp only [not_or, not_not] at present
      exact missing ⟨Option.isSome_iff_ne_none.2 present.2.1, present.2.2⟩
    · rintro (sourceless | targetless | unled) ⟨known, leads⟩
      · obtain ⟨n, found, -⟩ := leads
        cases sourceless.symm.trans found
      · simp [Workflow.hasNode, targetless] at known
      · exact unled leads

theorem refused_insertBetween {fresh : Nat → String} {kind : NodeKind} {x y : Double}
    (refused : (c.perform fresh (.insertBetween id source target kind x y)).reply
      = .created none) :
    (c.perform fresh (.insertBetween id source target kind x y)).canvas = c :=
  (perform_refused rfl (by rw [refused]; rfl)).1

/-- What an insertion that is not refused makes of the workflow, and of no other. -/
theorem of_insertBetween {fresh : Nat → String} {kind : NodeKind} {x y : Double}
    (accepted : (c.perform fresh (.insertBetween id source target kind x y)).reply
      ≠ .created none) :
    ∃ w v, c.workflow? id = some w ∧
      w.insertBetween? c.layout (fresh 0) source target kind x y = some v ∧
      (c.perform fresh (.insertBetween id source target kind x y)).canvas.workflow? id
        = some v := by
  have unrefused : (c.perform fresh (.insertBetween id source target kind x y)).reply.isRefusal
      = false := by
    rw [perform] at accepted ⊢
    cases done : c.insertBetween? id (fresh 0) source target kind x y with
    | none => exact absurd (by rw [done]; rfl) accepted
    | some d => rfl
  obtain ⟨f, w, v, act, live, done, after⟩ := workflow?_of_accepted rfl unrefused
  cases act
  exact ⟨w, v, live, done, after⟩

theorem workflow?_insertBetween_other {fresh : Nat → String} {kind : NodeKind} {x y : Double}
    {other : String} (apart : other ≠ id) :
    (c.perform fresh (.insertBetween id source target kind x y)).canvas.workflow? other
      = c.workflow? other := by
  rw [perform, canvas_creation, insertBetween?]
  cases done : c.restructure? id (·.insertBetween? c.layout (fresh 0) source target kind x y) with
  | none => rfl
  | some d =>
    simp only [restructure?, Option.bind_eq_bind, Option.bind_eq_some_iff] at done
    obtain ⟨s, found, v, inserted, put⟩ := done
    cases put
    have same : v.id = id := by
      obtain ⟨-, -, shifted, x', y', -, -, -, rfl⟩ := Workflow.of_insertBetween? inserted
      exact (sheet?_eq_some found).2
    rw [Option.getD_some, workflow?, workflow?, sheet?_setSheet c same, if_neg apart]

/-- **Suggestions are harmless.** Whatever the answer, nothing is created exactly where the
workflow, one of the nodes or the edge is missing, and then nothing is changed. Otherwise the edit
inserts a node of the one kind that the answer asks for. No start or end of a path comes or goes,
runs begin at the same node, and walk past the new one. -/
theorem suggestions_are_harmless (c : Canvas) (fresh : Nat → String) (id source target : String)
    (answer : Option String) (x y : Double) :
    let result := c.perform fresh (.insertSuggested id source target answer x y)
    (result.reply = .created none ↔
      c.workflow? id = none ∨ ∃ w, c.workflow? id = some w ∧
        (w.node? source = none ∨ w.node? target = none ∨ ¬w.Leads source target)) ∧
    (result.reply = .created none → result.canvas = c) ∧
    (∃ kind : NodeKind, kind.AskedBy answer ∧ kind.insertable = true ∧
      (∀ other : NodeKind, other.AskedBy answer → other = kind) ∧
      result = c.perform fresh (.insertBetween id source target kind x y)) ∧
    (∀ other ≠ id, result.canvas.workflow? other = c.workflow? other) ∧
    ∀ w, c.workflow? id = some w → ∃ v, result.canvas.workflow? id = some v ∧
      (∀ kind, kind = .start ∨ kind = .finish →
        v.nodes.countP (·.kind = kind) = w.nodes.countP (·.kind = kind)) ∧
      v.start?.map (·.id) = w.start?.map (·.id) ∧
      (result.reply ≠ .created none → w.Unused (fresh 0) → ∀ start, w.start? = some start →
        ∀ d d' : Debugger,
          (∃ e, d.start? c id = some e) ∧ (∃ e', d'.start? result.canvas id = some e') ∧
          ∀ e e', d.Begins c id e → d'.Begins result.canvas id e' →
            Debugger.Correspond (fresh 0) target c result.canvas e.debugger e'.debugger) := by
  intro result
  obtain ⟨kind, asked⟩ : ∃ kind : NodeKind, kind.AskedBy answer := ⟨_, NodeKind.askedBy_iff.2 rfl⟩
  have one (other : NodeKind) (also : other.AskedBy answer) : other = kind :=
    (NodeKind.askedBy_iff.1 also).symm.trans (NodeKind.askedBy_iff.1 asked)
  have same : result = c.perform fresh (.insertBetween id source target kind x y) :=
    perform_suggested c fresh asked x y
  have insertable := asked.insertable
  rw [same]
  refine ⟨reply_insertBetween .., refused_insertBetween, ⟨kind, asked, insertable, one, rfl⟩,
    fun other => workflow?_insertBetween_other, ?_⟩
  intro w live
  by_cases refused : (c.perform fresh (.insertBetween id source target kind x y)).reply
      = .created none
  · rw [refused_insertBetween refused]
    exact ⟨w, live, fun _ _ => rfl, rfl, fun accepted => absurd refused accepted⟩
  · obtain ⟨w', v, live', done, after⟩ := of_insertBetween refused
    cases live.symm.trans live'
    refine ⟨v, after, fun other ends => ?_, ?_, fun _ unused start first d d' => ?_⟩
    · refine Workflow.countP_insertBetween? done ?_
      rintro rfl
      rcases ends with rfl | rfl
      · cases insertable
      · cases insertable
    · exact Workflow.start?_insertBetween? done insertable
    · obtain rfl := id_of_workflow? live
      have named : v.id = w.id := id_of_workflow? after
      have runs := Debugger.corresponds_of_splices
        (Workflow.splices_insertBetween? done insertable unused) first live (named ▸ after) d d'
      rwa [named] at runs

/-- A long s is no letter of a switch, and the ring gets an action. -/
theorem ring_takes_suggestion :
    let c : Canvas := ⟨[⟨Debugger.ring, none⟩], none, {}, {}⟩
    let id := Debugger.ring.id
    let result := c.perform (fun _ => "m")
      (.insertSuggested id "s" "b" (some "\u3000ſWITCH") (.ofInt 0) (.ofInt 0))
    let d := Debugger.initial {} "00:00:00"
    result = c.perform (fun _ => "m")
      (.insertBetween id "s" "b" .action (.ofInt 0) (.ofInt 0)) ∧
    ∃ v, result.canvas.workflow? id = some v ∧
      v.start?.map (·.id) = Debugger.ring.start?.map (·.id) ∧
      (∃ e, d.start? c id = some e) ∧ (∃ e', d.start? result.canvas id = some e') ∧
      ∀ e e', d.Begins c id e → d.Begins result.canvas id e' →
        Debugger.Correspond "m" "b" c result.canvas e.debugger e'.debugger := by
  intro c id result d
  obtain ⟨missing, -, ⟨kind, -, -, one, same⟩, -, keeps⟩ :=
    suggestions_are_harmless c (fun _ => "m") id "s" "b" (some "\u3000ſWITCH") (.ofInt 0) (.ofInt 0)
  have action : NodeKind.AskedBy (some "\u3000ſWITCH") .action :=
    NodeKind.askedBy_iff.2 (by decide +kernel)
  obtain rfl := one .action action
  obtain ⟨v, after, -, first, runs⟩ := keeps Debugger.ring rfl
  have accepted : result.reply ≠ .created none := fun refused => by
    rcases missing.1 refused with absent | ⟨w, live, sourceless | targetless | unled⟩
    · cases absent
    · cases live
      cases sourceless
    · cases live
      cases targetless
    · cases live
      exact unled ⟨_, rfl, .head _⟩
  exact ⟨same, v, after, first, runs accepted (by decide) _ rfl d d⟩

end Canvas

end Stepflow
