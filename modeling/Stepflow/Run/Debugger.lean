import Stepflow.Canvas.Basic
import Stepflow.Run.Event
import Stepflow.Run.Tick

/-!
# Debugger

A debugger owns one run and knows the one step it is waiting for. It does not wait itself: control
calls and steps only say what is pending, so steps of a run cannot overlap. Every call looks at
the canvas as it is then.

A call returns the debugger it leaves with the events it emits; a call that is refused returns
`none`.
-/

namespace Stepflow

/-- The step a debugger is waiting for. -/
inductive Pending where
  | tick (mode : Mode)
  | completion
deriving DecidableEq, Repr

structure Debugger where
  pace : Pace
  /-- The time of day as it stands in log lines. -/
  clock : String
  /-- The workflow of the current or last run. -/
  workflow : Option String
  /-- How many runs there have been, the state before the first counted as one. -/
  runs : Nat
  state : RunState
  pending : Option Pending

/-- A debugger after a call, and what it emitted. -/
structure Emission where
  debugger : Debugger
  events : List Event

namespace Debugger

def initial (pace : Pace) (clock : String) : Debugger := ⟨pace, clock, none, 1, .idle, none⟩

/-- The id that the events of the run carry. -/
def execution (d : Debugger) : String := "run-" ++ toString d.runs

/-- Milliseconds to wait before the pending step. -/
def delay? (d : Debugger) : Option Nat :=
  d.pending.map fun
    | .tick _ => d.pace.tickDelay.toNat
    | .completion => d.pace.completionDelay.toNat

/-- Begin a run in place of any other. Refused when there is no such workflow or no start node. -/
def start? (d : Debugger) (c : Canvas) (workflow : String) : Option Emission := do
  let w ← c.workflow? workflow
  let state ← RunState.begin? d.pace w
  let d := { d with
    workflow := some w.id
    runs := d.runs + 1
    state := state
    pending := some (.tick .continuous) }
  return ⟨d, [.started w.id d.execution (state.current.getD "")]⟩

/-- Forget the run and all it has produced. -/
def stop (d : Debugger) : Emission where
  debugger := { d with state := .idle, pending := none }
  events :=
    if d.state.status ≠ .idle ∨ d.pending.isSome then [.stopped d.execution] else []

/-- Go on with a paused run. -/
def resume? (d : Debugger) : Option Debugger :=
  if d.state.status = .paused then
    some { d with
      state := { d.state with status := .running }
      pending := some (.tick .continuous) }
  else none

/-- Advance by one node. When idle this begins a run and pauses on its start node; otherwise the
next step of the run becomes a single one, whatever was pending, and `workflow` does not matter. -/
def step? (d : Debugger) (c : Canvas) (workflow : String) : Option Emission :=
  if d.state.status = .idle then do
    let begun ← d.start? c workflow
    let d := { begun.debugger with
      state := { begun.debugger.state with status := .paused }
      pending := none }
    return ⟨d, begun.events ++ [.paused d.execution d.state.current]⟩
  else
    some ⟨{ d with
      state := { d.state with status := .running }
      pending := some (.tick .single) }, []⟩

/-- What becomes pending after a tick. -/
def Pending.after? : Continuation → Option Pending
  | .proceed => some (.tick .continuous)
  | .finishing => some .completion
  | .skipped | .paused | .breakpoint _ | .halted _ => none

/-- What a tick reports besides its visit. -/
def outcomeEvents (execution : String) (current : Option String) : Continuation → List Event
  | .paused => [.paused execution current]
  | .breakpoint node => [.breakpointHit execution node]
  | .halted reason => [.halted execution reason]
  | .skipped | .proceed | .finishing => []

def runTick (d : Debugger) (c : Canvas) (mode : Mode) : Emission :=
  let result := d.state.tick d.pace d.clock (d.workflow.bind c.workflow?) mode
  let visited := result.visit.toList.map fun v =>
    .nodeEvaluated d.execution v.node v.next v.message
  ⟨{ d with state := result.state, pending := Pending.after? result.continuation },
    visited ++ outcomeEvents d.execution result.state.current result.continuation⟩

def runCompletion (d : Debugger) : Emission :=
  if d.state.status = .running then
    ⟨{ d with state := d.state.complete d.pace, pending := none }, [.completed d.execution]⟩
  else ⟨{ d with pending := none }, []⟩

/-- Run the pending step, if there is one. -/
def runPending? (d : Debugger) (c : Canvas) : Option Emission :=
  d.pending.map fun
    | .tick mode => d.runTick c mode
    | .completion => d.runCompletion

/-- Run pending steps one after the other, without waiting, until none is pending or `max` have
been run. With the debugger come its events and the number of steps. -/
def runUntilSettled (c : Canvas) : Nat → Debugger → Nat × Emission
  | 0, d => (0, ⟨d, []⟩)
  | max + 1, d =>
    match d.runPending? c with
    | none => (0, ⟨d, []⟩)
    | some ran =>
      let (steps, rest) := runUntilSettled c max ran.debugger
      (steps + 1, ⟨rest.debugger, ran.events ++ rest.events⟩)

end Debugger

end Stepflow
