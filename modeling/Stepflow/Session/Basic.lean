import Stepflow.Canvas.Edit
import Stepflow.Run.Debugger
import Stepflow.TimeOfDay

/-!
# Sessions

A canvas with the debugger that runs on it, the events it has emitted, and the supply of ids for
what is created: the n-th id is `$n`, and only what is really created uses one.
-/

namespace Stepflow

structure Session where
  canvas : Canvas
  debugger : Debugger
  /-- Ids drawn so far. -/
  drawn : Nat
  /-- Events since they were last cleared, oldest first. -/
  events : List Event

namespace Session

def initial (s : Settings) (clock : String) : Session :=
  ⟨.empty s, .initial s.pace clock, 0, []⟩

/-- The `n`-th of the ids that are still to be drawn. -/
def fresh (s : Session) (n : Nat) : String := "$" ++ toString (s.drawn + n + 1)

def edit (s : Session) (e : Edit) : Reply × Session :=
  let result := s.canvas.perform s.fresh e
  (result.reply, { s with canvas := result.canvas, drawn := s.drawn + result.drawn })

def clearEvents (s : Session) : Session := { s with events := [] }

/-- What is left when the debugger emits. -/
def absorb (s : Session) (e : Emission) : Session :=
  { s with debugger := e.debugger, events := s.events ++ e.events }

/-- The answer of a control call that may be refused, and what it leaves. -/
def controlled (s : Session) : Option Emission → Bool × Session
  | some e => (true, s.absorb e)
  | none => (false, s)

def start (s : Session) (workflow : String) : Bool × Session :=
  s.controlled (s.debugger.start? s.canvas workflow)

def step (s : Session) (workflow : String) : Bool × Session :=
  s.controlled (s.debugger.step? s.canvas workflow)

def resume (s : Session) : Bool × Session :=
  s.controlled (s.debugger.resume?.map (⟨·, []⟩))

def stop (s : Session) : Session := s.absorb s.debugger.stop

def runPending (s : Session) : Bool × Session := s.controlled (s.debugger.runPending? s.canvas)

def runUntilSettled (s : Session) (max : Nat) : Nat × Session :=
  let (steps, e) := s.debugger.runUntilSettled s.canvas max
  (steps, s.absorb e)

end Session

end Stepflow
