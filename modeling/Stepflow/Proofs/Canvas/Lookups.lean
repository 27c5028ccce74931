import Stepflow.Canvas.Basic

/-!
# Looking things up on a canvas

* `Canvas.workflow?_eq_find?`: a workflow is found among the workflows, whatever their histories;
* `Canvas.Has`, `isSome_revise?`, `isSome_restructure?`: what has to be there for a change.
-/

namespace Stepflow.Canvas

variable {c d : Canvas} {id : String}

theorem workflow?_eq_find? (c : Canvas) (id : String) :
    c.workflow? id = c.workflows.find? (·.id = id) := by
  rw [workflow?, sheet?, workflows, List.find?_map]
  rfl

theorem workflow?_of_workflows (same : d.workflows = c.workflows) (id : String) :
    d.workflow? id = c.workflow? id := by
  rw [workflow?_eq_find?, workflow?_eq_find?, same]

/-- A workflow with the property is on the canvas under this id. -/
def Has (c : Canvas) (id : String) (p : Workflow → Prop) : Prop :=
  ∃ w, c.workflow? id = some w ∧ p w

theorem has_congr {p q : Workflow → Prop} (same : ∀ w, p w ↔ q w) : c.Has id p ↔ c.Has id q := by
  simp only [Has, same]

theorem isSome_node? {node : String} :
    (c.node? id node).isSome = true ↔ c.Has id (·.hasNode node = true) := by
  cases found : c.workflow? id <;> simp [node?, Has, Workflow.hasNode, found]

theorem isSome_revise? {f : Workflow → Option Workflow} :
    (c.revise? id f).isSome = true ↔ c.Has id fun w => (f w).isSome = true := by
  cases found : c.sheet? id with
  | none => simp [revise?, Has, workflow?, found]
  | some s => cases done : f s.workflow <;> simp [revise?, Has, workflow?, found, done]

theorem isSome_restructure? {f : Workflow → Option Workflow} :
    (c.restructure? id f).isSome = true ↔ c.Has id fun w => (f w).isSome = true := by
  cases found : c.sheet? id with
  | none => simp [restructure?, Has, workflow?, found]
  | some s => cases done : f s.workflow <;> simp [restructure?, Has, workflow?, found, done]

end Stepflow.Canvas
