import Stepflow.Run.Expression
import Stepflow.Workflow.Node

/-!
# Evaluating a node

What a node does when a run reaches it: where the run goes next, at most one variable that
changes, and a line for the log. Nothing else of the run is read or changed.
-/

namespace Stepflow

open Json

structure Evaluation where
  /-- The run ends here if there is none. -/
  next : Option String
  update : Option (String × Value)
  message : String
  /-- False for a kind that runs only walk past. -/
  implemented : Bool

namespace Node

def targetKey : String := "targetVar"

def expressionKey : String := "expression"

def queryKey : String := "query"

/-- Go on to the first connection. -/
def pass (n : Node) (message : String) : Evaluation := ⟨n.primary?, none, message, true⟩

/-- A config field as text, where empty text says nothing either. -/
def filledText (n : Node) (key : String) : Except Failure (Option String) :=
  return (← n.configText key).filter (· ≠ "")

/-- Store a value. Without a target nothing is stored and nothing said. -/
def evaluateAssign (n : Node) (values : KeyMap Value) : Except Failure Evaluation := do
  let target ← n.filledText targetKey
  let expression ← n.configText expressionKey
  match target with
  | none => return n.pass ""
  | some name =>
    let value := (expression.map (resolve · values)).getD .null
    return { n.pass ("Set " ++ name ++ " = " ++ value.display) with update := some (name, value) }

/-- Go to the first connection if the condition holds, else to the second or, for want of it, to
the first. -/
def evaluateBranch (n : Node) (values : KeyMap Value) : Except Failure Evaluation := do
  let condition ← n.configText expressionKey
  let result := condition.any (holds · values)
  let next := if result then n.primary? else n.connections[1]?.or n.primary?
  return {
    n.pass ("If (" ++ condition.getD "undefined" ++ ") -> " ++ (if result then "true" else "false"))
    with next := next }

def evaluateAction (n : Node) : Except Failure Evaluation :=
  return n.pass ("Execute: " ++ (← n.filledText queryKey).getD "Action")

def evaluate (n : Node) (values : KeyMap Value) : Except Failure Evaluation :=
  match n.kind with
  | .start => .ok (n.pass "Start")
  | .assign => n.evaluateAssign values
  | .branch => n.evaluateBranch values
  | .action => n.evaluateAction
  | .finish => .ok { n.pass "Return" with next := none }
  | .switch | .foreach =>
    .ok { n.pass (n.kind.label ++ " is not implemented; following first connection") with
      implemented := false }

end Node

end Stepflow
