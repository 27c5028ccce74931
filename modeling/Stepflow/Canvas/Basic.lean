import Stepflow.History
import Stepflow.Settings
import Stepflow.Workflow.Splice

/-!
# Canvas

All workflows of an editing session, each with its history, and the selected node. Edits follow
two rules:

* an edit that names something unknown, or that would break an edge rule, is refused: the result
  is `none`;
* an edge and its port change together, and a node goes with all edges to it.

Edits to the structure (nodes, edges, parameters) leave a snapshot. Names, places, config and
breakpoints change without one; `undo` and `redo` fold them into the snapshot they leave.

Ids of new things are given by the caller.
-/

namespace Stepflow

/-- A workflow on the canvas. It has no history when history is turned off. -/
structure Sheet where
  workflow : Workflow
  history : Option History

namespace Sheet

/-- A workflow as it is put on the canvas, with one snapshot. -/
def fresh (r : Retention) (w : Workflow) : Sheet where
  workflow := w
  history := if r.enabled then some ((History.empty r.maxSnapshots.toNat).record w) else none

def recorded (s : Sheet) : Sheet := { s with history := s.history.map (·.record s.workflow) }

def canUndo (s : Sheet) : Bool := s.history.any (·.canUndo)

def canRedo (s : Sheet) : Bool := s.history.any (·.canRedo)

end Sheet

structure Selection where
  workflow : String
  node : String
deriving DecidableEq, Repr

structure Canvas where
  /-- In the order of their creation, with distinct ids. -/
  sheets : List Sheet
  selection : Option Selection
  layout : Layout
  retention : Retention

namespace Canvas

def empty (s : Settings) : Canvas := ⟨[], none, s.layout, s.retention⟩

def workflows (c : Canvas) : List Workflow := c.sheets.map (·.workflow)

def sheet? (c : Canvas) (id : String) : Option Sheet := c.sheets.find? (·.workflow.id = id)

def workflow? (c : Canvas) (id : String) : Option Workflow := (c.sheet? id).map (·.workflow)

theorem id_of_workflow? {c : Canvas} {id : String} {w : Workflow}
    (found : c.workflow? id = some w) : w.id = id := by
  obtain ⟨s, sheet, rfl⟩ := Option.map_eq_some_iff.1 found
  simpa using List.find?_some sheet

def node? (c : Canvas) (workflow node : String) : Option Node := do
  (← c.workflow? workflow).node? node

def nodes (c : Canvas) (workflow : String) : List Node :=
  ((c.workflow? workflow).map (·.nodes)).getD []

/-- The workflows of one scope. -/
def visible (c : Canvas) (scope : Scope) : List Workflow := c.workflows.filter (·.scope = scope)

def selectedNode? (c : Canvas) : Option Node := do
  let s ← c.selection
  c.node? s.workflow s.node

def canUndo (c : Canvas) (workflow : String) : Bool := (c.sheet? workflow).any (·.canUndo)

def canRedo (c : Canvas) (workflow : String) : Bool := (c.sheet? workflow).any (·.canRedo)

def setSheet (c : Canvas) (id : String) (s : Sheet) : Canvas :=
  { c with sheets := modifyFirst (·.workflow.id = id) (fun _ => s) c.sheets }

theorem sheet?_setSheet (c : Canvas) {id : String} {s : Sheet} (same : s.workflow.id = id)
    (id' : String) :
    (c.setSheet id s).sheet? id' =
      if id' = id then (c.sheet? id).map fun _ => s else c.sheet? id' := by
  simp only [sheet?, setSheet]
  induction c.sheets with
  | nil => grind [modifyFirst]
  | cons t rest ih => grind [modifyFirst]

/-- Change a workflow without a snapshot. -/
def revise? (c : Canvas) (id : String) (f : Workflow → Option Workflow) : Option Canvas := do
  let s ← c.sheet? id
  let w ← f s.workflow
  return c.setSheet id { s with workflow := w }

/-- Change a workflow and leave a snapshot of the result. -/
def restructure? (c : Canvas) (id : String) (f : Workflow → Option Workflow) : Option Canvas := do
  let s ← c.sheet? id
  let w ← f s.workflow
  return c.setSheet id { s with workflow := w }.recorded

/-! Workflows -/

/-- Put a workflow on the canvas, in place of one with the same id. Its history starts anew. -/
def insertWorkflow (c : Canvas) (w : Workflow) : Canvas :=
  let s := Sheet.fresh c.retention w
  if (c.sheet? w.id).isSome then c.setSheet w.id s else { c with sheets := c.sheets ++ [s] }

def createWorkflow (c : Canvas) (id start name : String) (scope : Scope) : Canvas :=
  c.insertWorkflow (.blank id start name scope)

def updateWorkflow? (c : Canvas) (id : String) (change : WorkflowChange) : Option Canvas :=
  c.revise? id fun w => some (change.apply w)

def removeWorkflow? (c : Canvas) (id : String) : Option (Workflow × Canvas) := do
  let s ← c.sheet? id
  return (s.workflow, { c with
    sheets := c.sheets.eraseP (·.workflow.id = id)
    selection := c.selection.filter (·.workflow ≠ id) })

/-! Selection -/

def select? (c : Canvas) (workflow node : String) : Option Canvas := do
  let _ ← c.node? workflow node
  return { c with selection := some ⟨workflow, node⟩ }

def clearSelection (c : Canvas) : Canvas := { c with selection := none }

/-! Nodes -/

def addNode? (c : Canvas) (workflow id : String) (kind : NodeKind) (x y : Double) :
    Option Canvas :=
  c.restructure? workflow fun w => some (w.addNode (.ofKind id kind x y))

def updateNode? (c : Canvas) (workflow node : String) (change : NodeChange) : Option Canvas :=
  c.revise? workflow (·.modifyNode? node change.apply)

def configureNode? (c : Canvas) (workflow node key : String) (value : Json.Value) :
    Option Canvas :=
  c.revise? workflow (·.modifyNode? node (·.configure key value))

def moveNode? (c : Canvas) (workflow node : String) (x y : Double) : Option Canvas :=
  c.revise? workflow (·.modifyNode? node (·.moveTo x y))

/-- Flip the breakpoint of a node. The new flag comes with the canvas. -/
def toggleBreakpoint? (c : Canvas) (workflow node : String) : Option (Bool × Canvas) := do
  let n ← c.node? workflow node
  let c ← c.revise? workflow (·.modifyNode? node Node.toggle)
  return (!n.breakpoint, c)

def removeNode? (c : Canvas) (workflow node : String) : Option Canvas := do
  let c ← c.restructure? workflow (·.removeNode? node)
  return { c with selection := c.selection.filter (· ≠ ⟨workflow, node⟩) }

def duplicateNode? (c : Canvas) (workflow node id : String) : Option Canvas :=
  c.restructure? workflow (·.duplicateNode? node id c.layout.duplicateOffset)

/-! Edges -/

def connect? (c : Canvas) (workflow source target : String) (port : Port) : Option Canvas :=
  c.restructure? workflow (·.connect? source target port)

def disconnect? (c : Canvas) (workflow source target : String) : Option Canvas :=
  c.restructure? workflow (·.disconnect? source target)

def insertBetween? (c : Canvas) (workflow id source target : String) (kind : NodeKind)
    (x y : Double) : Option Canvas :=
  c.restructure? workflow (·.insertBetween? c.layout id source target kind x y)

/-! Parameters -/

def addParameter? (c : Canvas) (workflow : String) (list : ParameterList) (id : String) :
    Option Canvas :=
  c.restructure? workflow fun w => some (w.addParameter list id)

def updateParameter? (c : Canvas) (workflow : String) (list : ParameterList) (id : String)
    (change : ParameterChange) : Option Canvas :=
  c.restructure? workflow (·.updateParameter? list id change)

def removeParameter? (c : Canvas) (workflow : String) (list : ParameterList) (id : String) :
    Option Canvas :=
  c.restructure? workflow (·.removeParameter? list id)

/-! History -/

/-- Move through the history of a workflow: what is live is first written over the snapshot under
the cursor, then the cursor moves, and the snapshot found there becomes live. When that snapshot
cannot be read the live workflow stays. A selected node that is no longer there is deselected. -/
def travel (c : Canvas) (workflow : String) (move : History → Option History) : Bool × Canvas :=
  match c.sheet? workflow with
  | some ⟨live, some history⟩ =>
    let history := history.replaceCurrent live
    match move history with
    | none => (false, c.setSheet workflow ⟨live, some history⟩)
    | some history =>
      match history.current? with
      | some (.ok restored) =>
        let c := c.setSheet workflow ⟨restored, some history⟩
        (true, if c.selectedNode?.isSome then c else c.clearSelection)
      | _ => (false, c.setSheet workflow ⟨live, some history⟩)
  | _ => (false, c)

def undo (c : Canvas) (workflow : String) : Bool × Canvas := c.travel workflow History.back?

def redo (c : Canvas) (workflow : String) : Bool × Canvas := c.travel workflow History.forward?

end Canvas

end Stepflow
