import Stepflow.Proofs.Canvas.Growth
import Stepflow.Proofs.Run.Outcomes
import Stepflow.Proofs.Session.Deeds

/-!
# Stranded runs

A run looks its workflow up anew in every tick, and between two ticks the canvas may change. The
run strands when its current node is gone. Only edits that can take a node away strand a run.

* `Footed`, `Steady`, `steady_carryOut`: a run stands on a node of its workflow, whatever else is
  done;
* `runs_never_strand`: so it never comes to a halt for want of a node.
-/

namespace Stepflow

/-- A run of the workflow `id` that stands on a node of it, or nowhere. -/
structure Footed (id : String) (c : Canvas) (d : Debugger) : Prop where
  kept : c.Kept
  fit : d.Coherent
  own : d.workflow = some id
  ground : ∃ w, c.workflow? id = some w ∧ w.Closed ∧ ∀ node ∈ d.state.current, node ∈ w.ids

variable {id : String} {c : Canvas} {d : Debugger}

theorem Footed.perform (footed : Footed id c d) {fresh : Nat → String} {e : Edit}
    (spares : e.Spares id fresh) : Footed id (c.perform fresh e).canvas d := by
  obtain ⟨w, live, closed, ground⟩ := footed.ground
  obtain ⟨v, now, grows⟩ := c.grows_perform footed.kept spares live
  exact ⟨c.kept_perform footed.kept fresh e, footed.fit, footed.own, v, now, grows.closed closed,
    fun node here => grows.keeps (ground node here)⟩

/-- The run goes on where it was, or to a node of the workflow, or nowhere. -/
theorem Footed.move {d' : Debugger} (footed : Footed id c d) (fit : d'.Coherent)
    (own : d'.workflow = d.workflow)
    (stands : ∀ w, c.workflow? id = some w → w.Closed → ∀ node ∈ d'.state.current,
      node ∈ w.ids ∨ d.state.current = some node) : Footed id c d' := by
  obtain ⟨w, live, closed, ground⟩ := footed.ground
  refine ⟨footed.kept, fit, own.trans footed.own, w, live, closed, ?_⟩
  intro node here
  rcases stands w live closed node here with known | before
  · exact known
  · exact ground node before

theorem Footed.leave {d' : Debugger} (footed : Footed id c d) (fit : d'.Coherent)
    (own : d'.workflow = d.workflow) (nowhere : d'.state.current = none) : Footed id c d' := by
  refine footed.move fit own fun _ _ _ node here => ?_
  rw [nowhere] at here
  cases here

/-- A call after which the run stands on a node still, without a halt for want of one. -/
structure Steady (id : String) (c : Canvas) (e : Emission) : Prop where
  footed : Footed id c e.debugger
  unstranded : ∀ execution node,
    .halted execution ("Error: Node " ++ node ++ " not found.") ∉ e.events

theorem finished_ne (node : String) :
    "Execution finished." ≠ "Error: Node " ++ node ++ " not found." := by
  intro same
  have letters := congrArg (·.toList[1]?) same
  simp at letters

theorem steady_stop (footed : Footed id c d) : Steady id c d.stop := by
  constructor
  · exact footed.leave (Debugger.coherent_stop d) rfl rfl
  · intro execution node member
    unfold Debugger.stop at member
    split at member <;> simp at member

theorem steady_resume? (footed : Footed id c d) {d' : Debugger} (resumed : d.resume? = some d') :
    Footed id c d' := by
  have fit := Debugger.coherent_resume? resumed
  unfold Debugger.resume? at resumed
  split at resumed
  · cases resumed
    exact footed.move fit rfl fun _ _ _ _ here => .inr here
  · cases resumed

theorem steady_step? (footed : Footed id c d) {workflow : String} {e : Emission}
    (stepped : d.step? c workflow = some e)
    (sameRun : ∀ event ∈ e.events, event.isStart = false) : Steady id c e := by
  have fit := Debugger.coherent_step? stepped
  by_cases idle : d.state.status = .idle
  · obtain ⟨_, _, _, _, begins⟩ := Debugger.head_step?_idle idle stepped
    rw [begins] at sameRun
    exact absurd (sameRun _ (.head _)) (by simp [Event.isStart])
  · rw [Debugger.step?, if_neg idle] at stepped
    cases stepped
    exact ⟨footed.move fit rfl fun _ _ _ _ here => .inr here, fun _ _ => List.not_mem_nil⟩

/-- The only halt of a run that stands on a node is for want of a current one. -/
theorem steady_runTick (footed : Footed id c d) (running : d.state.status = .running)
    (mode : Mode) : Steady id c (d.runTick c mode) := by
  have fit := Debugger.coherent_runTick running c mode
  have leads {w : Workflow} {here : String} {n : Node} (live : d.workflow.bind c.workflow? = some w)
      (found : w.node? here = some n) : ∀ v, c.workflow? id = some v → v.Closed →
      ∀ node ∈ (d.state.visit d.pace d.clock n).1.current, node ∈ v.ids ∨
        d.state.current = some node := by
    intro v now closed node next
    rw [footed.own, Option.bind_some, now] at live
    cases live
    have way : (n.outcome d.state.values).next = some node := next
    exact .inl (closed n (Workflow.node?_eq_some found).1 node (Node.mem_of_outcome way))
  obtain ⟨result, advance, ran⟩ := Debugger.runTick_cases running c mode
  rw [ran] at fit ⊢
  cases advance with
  | lost absent =>
    refine ⟨footed.leave fit rfl rfl, ?_⟩
    intro execution node member
    simp only [Debugger.report, RunState.halt, Option.toList_none, List.map_nil, List.nil_append,
      Debugger.outcomeEvents, List.mem_singleton, Event.halted.injEq] at member
    exact finished_ne node member.2.symm
  | @dangling w here live position unknown =>
    obtain ⟨v, now, closed, ground⟩ := footed.ground
    rw [footed.own, Option.bind_some, now] at live
    cases live
    have known := (Workflow.hasNode_iff here).2 (ground here position)
    rw [Workflow.hasNode, unknown] at known
    cases known
  | breakpoint live position found arrival flagged =>
    refine ⟨footed.move fit rfl (leads live found), ?_⟩
    simp [Debugger.report, Debugger.outcomeEvents]
  | single live position found | proceed live position found | finish live position found =>
    refine ⟨footed.move fit rfl (leads live found), ?_⟩
    simp [Debugger.report, Debugger.outcomeEvents]

theorem steady_runPending? (footed : Footed id c d) {e : Emission}
    (ran : d.runPending? c = some e) : Steady id c e := by
  have fit := Debugger.coherent_runPending? footed.fit ran
  obtain ⟨step, pending, rfl⟩ := Option.map_eq_some_iff.1 ran
  have running := footed.fit.running pending
  cases step with
  | tick mode => exact steady_runTick footed running mode
  | completion =>
    simp only [Debugger.runCompletion, if_pos running, RunState.complete] at fit ⊢
    exact ⟨footed.leave fit rfl rfl, by simp⟩

theorem steady_obey (footed : Footed id c d) (call : Control)
    (sameRun : ∀ event ∈ (d.obey (call.on c)).events, event.isStart = false) :
    Steady id c (d.obey (call.on c)) := by
  have refused : Steady id c ⟨d, []⟩ := ⟨footed, fun _ _ => List.not_mem_nil⟩
  cases call with
  | start workflow =>
    cases started : d.start? c workflow with
    | none => simpa [Control.on, Debugger.obey, started] using refused
    | some e =>
      obtain ⟨w, start, -, -, s, -, -, -, -, rfl⟩ := Debugger.start?_cases started
      simp [Control.on, Debugger.obey, started, Event.isStart] at sameRun
  | stop => exact steady_stop footed
  | resume =>
    cases resumed : d.resume? with
    | none => simpa [Control.on, Debugger.obey, resumed] using refused
    | some d' =>
      simp only [Control.on, Debugger.obey, resumed, Option.getD_some]
      exact ⟨steady_resume? footed resumed, fun _ _ => List.not_mem_nil⟩
  | step workflow =>
    cases stepped : d.step? c workflow with
    | none => simpa [Control.on, Debugger.obey, stepped] using refused
    | some e =>
      simp only [Control.on, Debugger.obey, stepped, Option.getD_some] at sameRun ⊢
      exact steady_step? footed stepped sameRun
  | runPending =>
    cases ran : d.runPending? c with
    | none => simpa [Control.on, Debugger.obey, ran] using refused
    | some e => simpa [Control.on, Debugger.obey, ran] using steady_runPending? footed ran

/-- The deed may be anything but an edit that takes something away from the workflow `id`. -/
def Deed.Spares (id : String) : Deed → Prop
  | .edit fresh e => e.Spares id fresh
  | .call _ => True

theorem steady_carryOut (footed : Footed id c d) {deeds : List Deed}
    (spared : ∀ deed ∈ deeds, deed.Spares id)
    (sameRun : ∀ event ∈ (carryOut c d deeds).2.events, event.isStart = false) :
    Steady id (carryOut c d deeds).1 (carryOut c d deeds).2 := by
  induction deeds generalizing c d with
  | nil => exact ⟨footed, fun _ _ => List.not_mem_nil⟩
  | cons deed rest ih =>
    have others : ∀ deed ∈ rest, deed.Spares id := fun other member => spared other (.tail _ member)
    cases deed with
    | edit fresh e => exact ih (footed.perform (spared _ (.head _))) others sameRun
    | call call =>
      simp only [carryOut] at sameRun ⊢
      have first := steady_obey footed call fun event member =>
        sameRun event (List.mem_append_left _ member)
      have later := ih first.footed others fun event member =>
        sameRun event (List.mem_append_right _ member)
      refine ⟨later.footed, fun execution node member => ?_⟩
      rcases List.mem_append.1 member with now | then_
      · exact first.unstranded execution node now
      · exact later.unstranded execution node then_

/-- A run that has just begun stands on the start node. -/
theorem footed_begin {w : Workflow} {e : Emission} (kept : c.Kept)
    (live : c.workflow? id = some w) (closed : w.Closed) (begun : d.Begins c id e) :
    Footed id c e.debugger := by
  obtain ⟨underway, own, position, start, first, -⟩ := Debugger.begin_walk live begun
  refine ⟨kept, underway.fit, by rw [own, Canvas.id_of_workflow? live], w, live, closed, ?_⟩
  intro node here
  have origin : e.debugger.state.current = w.origin.current := congrArg Position.current position
  rw [origin, Workflow.origin, first] at here
  cases here
  exact List.mem_map_of_mem (List.mem_of_find?_eq_some first)

/-- **Only edits that take something away strand a run.** A run of a workflow without an edge to
nowhere stands on a node of the workflow, or nowhere, and never halts for want of a node, until the
next start: whatever calls come, whatever becomes of other workflows, and whatever is done to its
own short of removing nodes, removing it, putting another in its place, or moving through its
history. -/
theorem runs_never_strand {admits : Canvas → (Nat → String) → Edit → Prop} {settings : Settings}
    (reachable : Canvas.Reachable admits settings c) {w : Workflow}
    (live : c.workflow? id = some w) (closed : w.Closed) {e : Emission}
    (begun : d.Begins c id e)
    {deeds : List Deed} (spared : ∀ deed ∈ deeds, deed.Spares id) :
    let run := carryOut c e.debugger deeds
    (∀ event ∈ run.2.events, event.isStart = false) →
      (∀ node, run.2.debugger.state.current = some node →
        ∃ v, run.1.workflow? id = some v ∧ v.hasNode node = true) ∧
      ∀ execution node,
        .halted execution ("Error: Node " ++ node ++ " not found.") ∉ run.2.events := by
  intro run sameRun
  have footed := footed_begin (Canvas.reachable_kept reachable) live closed begun
  have steady := steady_carryOut footed spared sameRun
  refine ⟨?_, steady.unstranded⟩
  intro node here
  obtain ⟨v, now, -, ground⟩ := steady.footed.ground
  exact ⟨v, now, (Workflow.hasNode_iff node).2 (ground node here)⟩

/-- The ring closed again through a new node, and that node cut off while the run stands on it. -/
theorem ring_never_strands :
    let c := ((Canvas.empty {}).perform (fun _ => "") (.insertWorkflow Debugger.ring)).canvas
    let deeds : List Deed := [
      .call .runPending,
      .edit (fun _ => "m") (.insertBetween "ring" "b" "s" .action (.ofInt 0) (.ofInt 0)),
      .call .resume,
      .edit (["v", "t"].getD · "") (.createWorkflow "V" .client),
      .edit (fun _ => "") (.removeNode "v" "t"),
      .call .runPending,
      .edit (fun _ => "") (.disconnect "ring" "m" "s"),
      .call .runPending,
      .call .runPending]
    ∃ e, (Debugger.initial {} "00:00:00").start? c "ring" = some e ∧
      (∀ event ∈ (carryOut c e.debugger deeds).2.events, event.isStart = false) ∧
      (∀ node, (carryOut c e.debugger deeds).2.debugger.state.current = some node →
        ∃ v, (carryOut c e.debugger deeds).1.workflow? "ring" = some v ∧ v.hasNode node = true) ∧
      ∀ execution node, .halted execution ("Error: Node " ++ node ++ " not found.")
        ∉ (carryOut c e.debugger deeds).2.events := by
  intro c deeds
  have reachable : Canvas.Reachable (fun _ _ _ => True) {} c := .perform _ _ .empty trivial
  obtain ⟨e, begun⟩ : ∃ e, (Debugger.initial {} "00:00:00").start? c "ring" = some e := ⟨_, rfl⟩
  have spared : ∀ deed ∈ deeds, deed.Spares "ring" := by
    simp [deeds, Deed.Spares, Edit.Spares]
  have sameRun : ∀ event ∈ (carryOut c e.debugger deeds).2.events, event.isStart = false := by
    cases begun
    decide +kernel
  have kept := runs_never_strand reachable (w := Debugger.ring) rfl (by decide +kernel)
    (.inl begun) spared sameRun
  exact ⟨e, begun, sameRun, kept⟩

end Stepflow
