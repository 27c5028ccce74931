import Stepflow.Settings
import Stepflow.Run.Evaluation
import Stepflow.Run.State
import Stepflow.Workflow.Basic

/-!
# Ticks

A run begins at the start node of a workflow and advances by one node with every tick. The
workflow is looked at anew in every tick, so edits made in between count. Functions here take the
state of a run and return the next; they keep nothing themselves.
-/

namespace Stepflow

open Json

/-- How far a tick may lead: on and on, or to the next node only. -/
inductive Mode where
  | continuous
  | single
deriving DecidableEq, Repr

/-- What follows a tick. -/
inductive Continuation where
  /-- The run was not running, and nothing happened. -/
  | skipped
  | proceed
  | paused
  | breakpoint (node : String)
  /-- The path has ended; completion follows. -/
  | finishing
  /-- There was nothing to evaluate, and the run is idle. -/
  | halted (reason : String)
deriving DecidableEq, Repr

/-- A node that a tick has evaluated. -/
structure Visit where
  node : String
  next : Option String
  message : String
deriving DecidableEq, Repr

structure TickResult where
  state : RunState
  continuation : Continuation
  visit : Option Visit

/-- A log line with the time of day in front. -/
def stamped (clock line : String) : String := "[" ++ clock ++ "] " ++ line

namespace RunState

/-- A run of `w` before its first tick: at the first start node, with every input and local
undefined. A workflow without a start node has none. -/
def begin? (p : Pace) (w : Workflow) : Option RunState := do
  let start ← w.start?
  let state : RunState := {
    status := .running
    current := some start.id
    values := .ofList ((w.inputs ++ w.locals).map fun p => (p.name, .null))
    logs := [] }
  return state.log p.logCapacity.toNat ("Started workflow '" ++ w.name ++ "'")

def halt (s : RunState) (p : Pace) (reason : String) : TickResult where
  state := { s.log p.logCapacity.toNat reason with status := .idle, current := none }
  continuation := .halted reason
  visit := none

/-- The variables after an evaluation. -/
def assign (s : RunState) : Option (String × Value) → RunState
  | some (name, value) => { s with values := s.values.insert name value }
  | none => s

/-- Evaluate `n` and move on. A node that cannot be evaluated changes no variable, and the run
goes on to its first connection. -/
def visit (s : RunState) (p : Pace) (clock : String) (n : Node) : RunState × Visit :=
  let evaluation := match n.evaluate s.values with
    | .ok evaluation => evaluation
    | .error failure => n.pass ("Error: " ++ failure.message)
  let line := stamped clock evaluation.message
  let moved := (s.assign evaluation.update).log p.logCapacity.toNat line
  ({ moved with current := evaluation.next }, ⟨n.id, evaluation.next, evaluation.message⟩)

/-- Evaluate the current node and advance. `w` is missing when the workflow of the run has been
removed. The run pauses before a breakpoint, and after a single step. -/
def tick (s : RunState) (p : Pace) (clock : String) (w : Option Workflow) (mode : Mode) :
    TickResult :=
  if s.status ≠ .running then ⟨s, .skipped, none⟩
  else match w, s.current with
    | some w, some id =>
      match w.node? id with
      | none => s.halt p ("Error: Node " ++ id ++ " not found.")
      | some n =>
        let (s, visit) := s.visit p clock n
        match (visit.next.bind w.node?).filter (·.breakpoint) with
        | some next =>
          let s := s.log p.logCapacity.toNat ("Breakpoint hit at " ++ next.label)
          ⟨{ s with status := .paused }, .breakpoint next.id, some visit⟩
        | none =>
          if mode = .single then ⟨{ s with status := .paused }, .paused, some visit⟩
          else if visit.next.isSome then ⟨s, .proceed, some visit⟩
          else ⟨s, .finishing, some visit⟩
    | _, _ => s.halt p "Execution finished."

/-- The completion that follows the last tick, unless the run has stopped running meanwhile. -/
def complete (s : RunState) (p : Pace) : RunState :=
  if s.status = .running then
    { s.log p.logCapacity.toNat "Execution Completed." with status := .paused, current := none }
  else s

end RunState

end Stepflow
