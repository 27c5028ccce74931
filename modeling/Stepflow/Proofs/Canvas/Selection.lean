import Stepflow.Proofs.Canvas.Growth
import Stepflow.Proofs.Canvas.Isolation

/-!
# The selected node

At most one node of all workflows is selected. It may go in five ways: it is removed, its workflow
is removed or replaced, or a move through the history leads to where it is not. Each way but one
takes the selection along: a workflow that is put in the place of another leaves the selection
alone.

* `Canvas.Anchored`: what is selected is there;
* `Canvas.Retains`: the edit does not replace the workflow of the selected node by one without it;
* `Canvas.anchored_perform_iff`: an edit keeps the selection anchored exactly when it retains it;
* `Canvas.replacement_alone_strands_selection`: the same of all sessions.
-/

namespace Stepflow

/-- The workflow that an edit puts on the canvas. -/
def Edit.placed? (fresh : Nat → String) : Edit → Option Workflow
  | .createWorkflow name scope => some (.blank (fresh 0) (fresh 1) name scope)
  | .insertWorkflow w => some w
  | _ => none

namespace Canvas

variable {c d : Canvas} {id : String}

/-- What is selected is a node of a workflow on the canvas. -/
def Anchored (c : Canvas) : Prop :=
  ∀ s ∈ c.selection, ∃ w, c.workflow? s.workflow = some w ∧ s.node ∈ w.ids

/-- If the edit replaces the workflow of the selected node, then by one that has the node too. -/
def Retains (c : Canvas) (fresh : Nat → String) (e : Edit) : Prop :=
  ∀ w ∈ e.placed? fresh, ∀ s ∈ c.selection, s.workflow = w.id → s.node ∈ w.ids

theorem isSome_node?_iff (c : Canvas) (id node : String) :
    (c.node? id node).isSome = true ↔ ∃ w, c.workflow? id = some w ∧ node ∈ w.ids :=
  isSome_node?.trans (has_congr fun w => w.hasNode_iff node)

theorem anchored_iff (c : Canvas) :
    c.Anchored ↔ (c.selection = none ↔ c.selectedNode? = none) := by
  cases chosen : c.selection with
  | none => simp [Anchored, selectedNode?, chosen]
  | some s =>
    simp [Anchored, selectedNode?, chosen, ← isSome_node?_iff, Option.isSome_iff_ne_none]

theorem anchored_of_selectedNode? (present : c.selectedNode?.isSome = true) : c.Anchored := by
  cases chosen : c.selection with
  | none => simp [selectedNode?, chosen] at present
  | some s =>
    refine (anchored_iff c).2 ⟨fun nothing => ?_, fun missing => ?_⟩
    · cases chosen.symm.trans nothing
    · rw [missing] at present
      cases present

theorem anchored_of_unselected (nothing : c.selection = none) : c.Anchored := by
  intro s selected
  rw [nothing] at selected
  cases selected

/-- Of what is selected only the workflow matters, and it may have grown. -/
theorem Anchored.mono (anchored : c.Anchored)
    (kept : ∀ s ∈ d.selection, s ∈ c.selection ∧ ∀ w, c.workflow? s.workflow = some w →
      s.node ∈ w.ids → ∃ v, d.workflow? s.workflow = some v ∧ s.node ∈ v.ids) : d.Anchored := by
  intro s selected
  obtain ⟨before, grown⟩ := kept s selected
  obtain ⟨w, live, member⟩ := anchored s before
  exact grown w live member

theorem Anchored.spared (anchored : c.Anchored) (kept : c.Kept) {fresh : Nat → String} {e : Edit}
    (stays : ∀ s ∈ (c.perform fresh e).canvas.selection,
      s ∈ c.selection ∧ e.Spares s.workflow fresh) : (c.perform fresh e).canvas.Anchored := by
  refine anchored.mono fun s selected => ?_
  obtain ⟨before, spares⟩ := stays s selected
  refine ⟨before, fun w live member => ?_⟩
  obtain ⟨v, now, grows⟩ := c.grows_perform kept spares live
  exact ⟨v, now, grows.keeps member⟩

theorem selection_revised (c : Canvas) (id : String) (f : Workflow → Option Workflow) :
    (c.answer (c.revise? id f)).canvas.selection = c.selection := by
  rw [canvas_answer, getD_revise?]
  rfl

theorem selection_restructured (c : Canvas) (id : String) (f : Workflow → Option Workflow) :
    (c.answer (c.restructure? id f)).canvas.selection = c.selection := by
  rw [canvas_answer, getD_restructure?]
  rfl

theorem selection_created (c : Canvas) (id new : String) (f : Workflow → Option Workflow) :
    (c.creation new (c.restructure? id f)).canvas.selection = c.selection := by
  rw [canvas_creation, getD_restructure?]
  rfl

/-- A removed workflow takes the selection along, a removed node as well. -/
theorem Anchored.removeWorkflow (anchored : c.Anchored) (kept : c.Kept) (fresh : Nat → String)
    (id : String) : (c.perform fresh (.removeWorkflow id)).canvas.Anchored := by
  refine anchored.spared kept fun s selected => ?_
  cases found : c.sheet? id with
  | none =>
    have before : s ∈ c.selection := by simpa [perform, removeWorkflow?, found] using selected
    refine ⟨before, ?_⟩
    rintro rfl
    obtain ⟨w, live, -⟩ := anchored s before
    simp [workflow?, found] at live
  | some t =>
    have filtered : s ∈ c.selection.filter (·.workflow ≠ id) := by
      simpa [perform, removeWorkflow?, found] using selected
    obtain ⟨before, elsewhere⟩ := Option.filter_eq_some_iff.1 filtered
    exact ⟨before, Ne.symm (by simpa using elsewhere)⟩

theorem Anchored.removeNode (anchored : c.Anchored) (kept : c.Kept) (fresh : Nat → String)
    (id node : String) : (c.perform fresh (.removeNode id node)).canvas.Anchored := by
  cases done : c.restructure? id (·.removeNode? node) with
  | none =>
    have still : (c.perform fresh (.removeNode id node)).canvas = c := by
      simp [perform, removeNode?, done, answer]
    rw [still]
    exact anchored
  | some removed =>
    have untouched : removed.selection = c.selection := by
      simpa [canvas_answer, done] using c.selection_restructured id (·.removeNode? node)
    have selection : (c.perform fresh (.removeNode id node)).canvas.selection
        = c.selection.filter (· ≠ ⟨id, node⟩) := by
      simp [perform, removeNode?, done, answer, untouched]
    refine anchored.mono fun s selected => ?_
    rw [selection] at selected
    obtain ⟨before, other⟩ := Option.filter_eq_some_iff.1 selected
    refine ⟨before, fun w live member => ?_⟩
    by_cases here : id = s.workflow
    · subst here
      obtain ⟨t, found, rfl⟩ := Option.map_eq_some_iff.1 live
      have apart : s.node ≠ node := by
        rintro rfl
        simp at other
      have known : t.workflow.hasNode node = true := by
        have accepted : (c.restructure? s.workflow (·.removeNode? node)).isSome = true := by
          rw [done]
          rfl
        by_contra missing
        simp [restructure?, found, Workflow.removeNode?, missing] at accepted
      refine ⟨t.workflow.removeNode node, ?_, ?_⟩
      · rw [workflow?, sheet?_perform_restructure rfl found, Option.map_some,
          Sheet.workflow_restructured, Workflow.removeNode?, if_pos known, Option.getD_some]
      · rw [Workflow.ids_removeNode]
        exact List.mem_filter.2 ⟨member, by simpa using apart⟩
    · obtain ⟨v, now, grows⟩ := c.grows_perform kept (e := .removeNode id node) here live
      exact ⟨v, now, grows.keeps member⟩

/-- A move that leads to where the selected node is not takes the selection along. -/
theorem anchored_of_travelled {move : History → Option History}
    (success : (c.travel id move).1 = true) : (c.travel id move).2.Anchored := by
  rw [travel] at success ⊢
  split at success
  · dsimp only at success ⊢
    split at success
    · cases success
    · split at success
      · split
        · exact anchored_of_selectedNode? ‹_›
        · exact anchored_of_unselected rfl
      · cases success
  · cases success

theorem Anchored.travel (anchored : c.Anchored) (kept : c.Kept) (id : String) (way : Way) :
    (c.travel id way.move).2.Anchored := by
  cases success : (c.travel id way.move).1 with
  | false =>
    obtain ⟨workflows, selection⟩ := live_stuck (stuck_travel kept success)
    intro s selected
    rw [workflow?_of_workflows workflows]
    exact anchored s (selection ▸ selected)
  | true => exact anchored_of_travelled success

theorem Anchored.selectNode (anchored : c.Anchored) (fresh : Nat → String) (id node : String) :
    (c.perform fresh (.selectNode id node)).canvas.Anchored := by
  cases found : c.node? id node with
  | none =>
    have still : (c.perform fresh (.selectNode id node)).canvas = c := by
      simp [Canvas.perform, select?, found, answer]
    rw [still]
    exact anchored
  | some n =>
    have chosen : (c.perform fresh (.selectNode id node)).canvas
        = { c with selection := some ⟨id, node⟩ } := by
      simp [Canvas.perform, select?, found, answer]
    rw [chosen]
    rintro s ⟨⟩
    exact (c.isSome_node?_iff id node).1 (by rw [found]; rfl)

/-- Where no workflow is put on the canvas the selection stays anchored. -/
theorem Anchored.perform (anchored : c.Anchored) (kept : c.Kept) {fresh : Nat → String} {e : Edit}
    (unplaced : e.placed? fresh = none) : (c.perform fresh e).canvas.Anchored := by
  cases e with
  | createWorkflow | insertWorkflow => cases unplaced
  | removeWorkflow id => exact anchored.removeWorkflow kept fresh id
  | removeNode id node => exact anchored.removeNode kept fresh id node
  | undo id => exact anchored.travel kept id .back
  | redo id => exact anchored.travel kept id .forward
  | clearSelection => exact anchored_of_unselected rfl
  | selectNode id node => exact anchored.selectNode fresh id node
  | toggleBreakpoint id node =>
    refine anchored.spared kept fun s selected => ⟨?_, trivial⟩
    rwa [canvas_toggle, getD_revise?] at selected
  | updateWorkflow | updateNode | configureNode | moveNode =>
    refine anchored.spared kept fun s selected => ⟨?_, trivial⟩
    exact c.selection_revised _ _ ▸ selected
  | connect | disconnect | updateParameter | removeParameter =>
    refine anchored.spared kept fun s selected => ⟨?_, trivial⟩
    exact c.selection_restructured _ _ ▸ selected
  | addNode | duplicateNode | insertBetween | insertSuggested | addParameter =>
    refine anchored.spared kept fun s selected => ⟨?_, trivial⟩
    exact c.selection_created _ _ _ ▸ selected

theorem selection_insertWorkflow (c : Canvas) (w : Workflow) :
    (c.insertWorkflow w).selection = c.selection := by
  rw [insertWorkflow]
  split <;> rfl

/-- A workflow that is put on the canvas takes nothing along. -/
theorem anchored_place_iff (anchored : c.Anchored) (kept : c.Kept) {fresh : Nat → String} {e : Edit}
    {w : Workflow} (places : e.placed? fresh = some w) :
    (c.perform fresh e).canvas.Anchored ↔ c.Retains fresh e := by
  have act : e.act c.layout fresh = .put w := by
    cases e with
    | createWorkflow | insertWorkflow =>
      cases places
      rfl
    | _ => cases places
  have selection : (c.perform fresh e).canvas.selection = c.selection := by
    cases e with
    | createWorkflow | insertWorkflow => exact selection_insertWorkflow c _
    | _ => cases places
  have placed : (c.perform fresh e).canvas.workflow? w.id = some w := by
    rw [workflow?, sheet?_perform_own kept fresh e (by rw [act]; rfl), act]
    rfl
  have other (id : String) (apart : id ≠ w.id) :
      (c.perform fresh e).canvas.workflow? id = c.workflow? id := by
    rw [workflow?, sheet?_perform_other kept fresh e, workflow?]
    rw [act]
    exact fun same => apart (Option.some.inj same).symm
  constructor
  · intro after v brought s selected own
    cases places.symm.trans brought
    obtain ⟨u, now, member⟩ := after s (selection ▸ selected)
    rw [own, placed] at now
    cases now
    exact member
  · intro retains s selected
    rw [selection] at selected
    by_cases own : s.workflow = w.id
    · exact ⟨w, own ▸ placed, retains w places s selected own⟩
    · rw [other _ own]
      exact anchored s selected

theorem anchored_perform_iff (anchored : c.Anchored) (kept : c.Kept) (fresh : Nat → String)
    (e : Edit) : (c.perform fresh e).canvas.Anchored ↔ c.Retains fresh e := by
  cases places : e.placed? fresh with
  | some w => exact anchored_place_iff anchored kept places
  | none =>
    refine ⟨fun _ w brought => ?_, fun _ => anchored.perform kept places⟩
    cases places.symm.trans brought

theorem reachable_anchored {settings : Settings} (reachable : Reachable Retains settings c) :
    c.Anchored := by
  induction reachable with
  | empty => exact anchored_of_unselected rfl
  | perform fresh e before retains ih =>
    exact (anchored_perform_iff ih (reachable_kept before) fresh e).2 retains

/-- **Only a replacement strands the selection.** After edits none of which replaces the workflow of
the selected node by one without it, whatever is selected is a node of a workflow on the canvas. The
next edit keeps it so if it does not do so either, and only then. -/
theorem replacement_alone_strands_selection {settings : Settings}
    (reachable : Reachable Retains settings c) :
    (∀ s ∈ c.selection, ∃ w, c.workflow? s.workflow = some w ∧ s.node ∈ w.ids) ∧
    (c.selection = none ↔ c.selectedNode? = none) ∧
    ∀ fresh e, let after := (c.perform fresh e).canvas
      (after.selection = none ↔ after.selectedNode? = none) ↔ c.Retains fresh e := by
  have anchored := reachable_anchored reachable
  refine ⟨anchored, (anchored_iff c).1 anchored, ?_⟩
  intro fresh e after
  rw [← anchored_iff]
  exact anchored_perform_iff anchored (reachable_kept reachable) fresh e

/-- A new workflow with its start node selected. -/
def pointed (settings : Settings) : Canvas :=
  ((created settings).perform (fun _ => "") (.selectNode "w" "s")).canvas

/-- A workflow with another start node is put in place of it. -/
theorem replaced_selection_stranded :
    Reachable Retains {} (pointed {}) ∧ (pointed {}).selection = some ⟨"w", "s"⟩ ∧
    ¬(pointed {}).Retains (fun _ => "") (.insertWorkflow (.blank "w" "t" "A" .server)) ∧
    let after := ((pointed {}).perform (fun _ => "")
      (.insertWorkflow (.blank "w" "t" "A" .server))).canvas
    ¬(after.selection = none ↔ after.selectedNode? = none) := by
  have reachable : Reachable Retains {} (pointed {}) := by
    refine .perform _ _ (.perform _ _ .empty ?_) ?_
    · exact fun _ _ s selected => nomatch selected
    · exact fun w placed => nomatch placed
  have replaced : ¬(pointed {}).Retains (fun _ => "")
      (.insertWorkflow (.blank "w" "t" "A" .server)) := by
    intro retains
    have member := retains _ rfl ⟨"w", "s"⟩ rfl rfl
    simp [Workflow.blank, Workflow.ids, Node.ofKind] at member
  obtain ⟨-, -, stranded⟩ := replacement_alone_strands_selection reachable
  exact ⟨reachable, rfl, replaced, fun found => replaced ((stranded _ _).1 found)⟩

end Canvas

end Stepflow
