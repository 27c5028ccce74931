import Stepflow.Canvas.Basic
import Stepflow.Workflow.Suggestion

/-!
# Edits

Every edit of a canvas as data, so that a session is a list of edits. An edit that creates
something draws fresh ids; one that is refused draws none and leaves the canvas as it was.
-/

namespace Stepflow

inductive Edit where
  | createWorkflow (name : String) (scope : Scope)
  | insertWorkflow (workflow : Workflow)
  | updateWorkflow (workflow : String) (change : WorkflowChange)
  | removeWorkflow (workflow : String)
  | selectNode (workflow node : String)
  | clearSelection
  | addNode (workflow : String) (kind : NodeKind) (x y : Double)
  | updateNode (workflow node : String) (change : NodeChange)
  | configureNode (workflow node key : String) (value : Json.Value)
  | moveNode (workflow node : String) (x y : Double)
  | toggleBreakpoint (workflow node : String)
  | removeNode (workflow node : String)
  | duplicateNode (workflow node : String)
  | connect (workflow source target : String) (port : Port)
  | disconnect (workflow source target : String)
  | insertBetween (workflow source target : String) (kind : NodeKind) (x y : Double)
  /-- The kind is left to a suggestion, which is missing when the service failed. -/
  | insertSuggested (workflow source target : String) (suggestion : Option String) (x y : Double)
  | addParameter (workflow : String) (list : ParameterList)
  | updateParameter (workflow : String) (list : ParameterList) (id : String)
      (change : ParameterChange)
  | removeParameter (workflow : String) (list : ParameterList) (id : String)
  | undo (workflow : String)
  | redo (workflow : String)

/-- What an edit answers. -/
inductive Reply where
  | done
  | accepted (yes : Bool)
  | created (id : Option String)
  | removed (workflow : Option Workflow)
  | flagged (breakpoint : Option Bool)

def Reply.isRefusal : Reply → Bool
  | .accepted false | .created none | .removed none | .flagged none => true
  | _ => false

/-- What an edit answers and leaves behind, and how many ids it drew. -/
structure EditResult where
  reply : Reply
  drawn : Nat
  canvas : Canvas

namespace Canvas

/-- The result of an edit that draws no id. -/
def answer (c : Canvas) : Option Canvas → EditResult
  | some c => ⟨.accepted true, 0, c⟩
  | none => ⟨.accepted false, 0, c⟩

/-- The result of an edit that creates `id`. -/
def creation (c : Canvas) (id : String) : Option Canvas → EditResult
  | some c => ⟨.created (some id), 1, c⟩
  | none => ⟨.created none, 0, c⟩

/-- Apply an edit; `fresh` lists the ids it may draw. -/
def perform (fresh : Nat → String) (c : Canvas) : Edit → EditResult
  | .createWorkflow name scope =>
    ⟨.created (some (fresh 0)), 2, c.createWorkflow (fresh 0) (fresh 1) name scope⟩
  | .insertWorkflow w => ⟨.created (some w.id), 0, c.insertWorkflow w⟩
  | .updateWorkflow w change => c.answer (c.updateWorkflow? w change)
  | .removeWorkflow w =>
    match c.removeWorkflow? w with
    | some (removed, c) => ⟨.removed (some removed), 0, c⟩
    | none => ⟨.removed none, 0, c⟩
  | .selectNode w n => c.answer (c.select? w n)
  | .clearSelection => ⟨.done, 0, c.clearSelection⟩
  | .addNode w kind x y => c.creation (fresh 0) (c.addNode? w (fresh 0) kind x y)
  | .updateNode w n change => c.answer (c.updateNode? w n change)
  | .configureNode w n key value => c.answer (c.configureNode? w n key value)
  | .moveNode w n x y => c.answer (c.moveNode? w n x y)
  | .toggleBreakpoint w n =>
    match c.toggleBreakpoint? w n with
    | some (flag, c) => ⟨.flagged (some flag), 0, c⟩
    | none => ⟨.flagged none, 0, c⟩
  | .removeNode w n => c.answer (c.removeNode? w n)
  | .duplicateNode w n => c.creation (fresh 0) (c.duplicateNode? w n (fresh 0))
  | .connect w s t port => c.answer (c.connect? w s t port)
  | .disconnect w s t => c.answer (c.disconnect? w s t)
  | .insertBetween w s t kind x y =>
    c.creation (fresh 0) (c.insertBetween? w (fresh 0) s t kind x y)
  | .insertSuggested w s t suggestion x y =>
    let kind := (suggestion.map NodeKind.ofSuggestion).getD .fallback
    c.creation (fresh 0) (c.insertBetween? w (fresh 0) s t kind x y)
  | .addParameter w list => c.creation (fresh 0) (c.addParameter? w list (fresh 0))
  | .updateParameter w list id change => c.answer (c.updateParameter? w list id change)
  | .removeParameter w list id => c.answer (c.removeParameter? w list id)
  | .undo w => let (yes, c) := c.undo w; ⟨.accepted yes, 0, c⟩
  | .redo w => let (yes, c) := c.redo w; ⟨.accepted yes, 0, c⟩

end Canvas

end Stepflow
