import Stepflow.Proofs.Canvas.Histories
import Stepflow.Proofs.Workflow.Closed

/-!
# Edits that take no node away

Most edits of a canvas can only add nodes to a workflow, and open no edge of it. The others are few:
they remove a node, remove the workflow, put another in its place, or move through its history.

* `Edit.Spares`: edits that cannot take a node away from a workflow;
* `Canvas.grows_perform`: a workflow that is spared grows at most.
-/

namespace Stepflow

/-- The edit neither removes a node of the workflow `id`, nor the workflow, nor puts another in its
place. -/
def Edit.Spares (id : String) (fresh : Nat → String) : Edit → Prop
  | .createWorkflow _ _ => fresh 0 ≠ id
  | .insertWorkflow w => w.id ≠ id
  | .removeWorkflow own | .removeNode own _ | .undo own | .redo own => own ≠ id
  | _ => True

/-- All that the act does to the workflow `id` is to grow it. -/
def Act.Spares (id : String) : Act → Prop
  | .rest => True
  | .put w => w.id ≠ id
  | .drop own | .travel own _ => own ≠ id
  | .revise own f | .restructure own f => own = id → ∀ w v, f w = some v → w.Grows v

open Workflow in
theorem Edit.spares_act {id : String} {fresh : Nat → String} {e : Edit}
    (spares : e.Spares id fresh) (layout : Layout) : (e.act layout fresh).Spares id := by
  cases e with
  | createWorkflow | insertWorkflow | removeWorkflow | undo | redo => exact spares
  | selectNode | clearSelection => trivial
  | removeNode => exact fun own => absurd own spares
  | updateWorkflow own change =>
    intro _ w v done
    cases done
    have same : (change.apply w).nodes = w.nodes := rfl
    exact grows_of_wiring (by rw [same])
  | addNode =>
    intro _ w v done
    cases done
    exact grows_addNode rfl
  | updateNode | configureNode | moveNode | toggleBreakpoint =>
    intro _ w v done
    obtain ⟨-, rfl⟩ := modifyNode?_eq_some.1 done
    exact grows_of_unrewired _ fun _ => rfl
  | duplicateNode =>
    intro _ w v done
    obtain ⟨n, -, rfl⟩ := duplicateNode?_eq_some.1 done
    exact grows_addNode rfl
  | connect => exact fun _ w v done => grows_connect? done
  | disconnect => exact fun _ w v done => grows_disconnect? done
  | insertBetween | insertSuggested => exact fun _ w v done => grows_insertBetween? done
  | addParameter =>
    intro _ w v done
    cases done
    exact grows_of_wiring (by rw [Workflow.addParameter, nodes_modifyParameters])
  | updateParameter =>
    intro _ w v done
    obtain ⟨-, rfl⟩ := updateParameter?_eq_some.1 done
    exact grows_of_wiring (by rw [nodes_modifyParameters])
  | removeParameter =>
    intro _ w v done
    obtain ⟨-, rfl⟩ := removeParameter?_eq_some.1 done
    exact grows_of_wiring (by rw [nodes_modifyParameters])

/-- A workflow that is spared grows at most. -/
theorem Canvas.grows_perform {c : Canvas} (kept : c.Kept) {id : String} {fresh : Nat → String}
    {e : Edit} (spares : e.Spares id fresh) {w : Workflow} (live : c.workflow? id = some w) :
    ∃ v, (c.perform fresh e).canvas.workflow? id = some v ∧ w.Grows v := by
  obtain ⟨s, found, rfl⟩ := Option.map_eq_some_iff.1 live
  have grown {f : Workflow → Option Workflow} (grows : ∀ w v, f w = some v → w.Grows v) :
      s.workflow.Grows ((f s.workflow).getD s.workflow) := by
    cases done : f s.workflow with
    | none => exact .refl _
    | some v => exact grows _ v done
  have spared := Edit.spares_act spares c.layout
  by_cases other : (e.act c.layout fresh).target? ≠ some id
  · exact ⟨s.workflow, by rw [workflow?, sheet?_perform_other kept fresh e other, found]; rfl,
      .refl _⟩
  · have own := not_not.1 other
    cases act : e.act c.layout fresh with
    | rest =>
      rw [act] at own
      cases own
    | put | drop | travel =>
      rw [act] at own spared
      exact absurd (Option.some.inj own) spared
    | revise _ f =>
      rw [act] at own spared
      cases own
      refine ⟨(s.revised f).workflow, by rw [workflow?, sheet?_perform_revise act found]; rfl, ?_⟩
      rw [Sheet.workflow_revised]
      exact grown (spared rfl)
    | restructure _ f =>
      rw [act] at own spared
      cases own
      refine ⟨(s.restructured f).workflow,
        by rw [workflow?, sheet?_perform_restructure act found]; rfl, ?_⟩
      rw [Sheet.workflow_restructured]
      exact grown (spared rfl)

end Stepflow
