import Stepflow.Session.Basic

/-!
# Pacing

A driver waits out the delay of each pending step and then runs whatever is pending by then, until
it finds nothing pending. Other calls reach the session while the driver sleeps. Time is virtual,
in milliseconds from the moment the driver was started. However long a delay is, the driver sleeps
no more than `longestWait` at a time, and a step that is due later than that runs early.

* `Drive.wake`: what happens when the driver wakes up;
* `drive`: a driver with calls at given times, cut off at a limit.
-/

namespace Stepflow

/-- A call that reaches the session at a given time. -/
structure Call (α : Type) where
  time : Nat
  apply : Session → α × Session

/-- A driver at work. -/
structure Drive where
  session : Session
  /-- When it wakes up next; it has returned if that is never. -/
  wakeAt : Option Nat
  /-- When it woke up last. -/
  now : Nat
  /-- The steps it has run. -/
  steps : Nat

/-- Thirty years of 365 days. -/
def longestWait : Nat := 30 * 365 * 24 * 60 * 60 * 1000

/-- How long a driver sleeps before the pending step. -/
def Session.wait? (s : Session) : Option Nat := s.debugger.delay?.map (min longestWait)

theorem Session.wait?_le {s : Session} {time : Nat} (h : s.wait? = some time) :
    time ≤ longestWait := by
  obtain ⟨delay, -, rfl⟩ := Option.map_eq_some_iff.1 h
  exact Nat.min_le_left _ _

theorem Session.wait?_of_le {s : Session} {delay : Nat} (pending : s.debugger.delay? = some delay)
    (short : delay ≤ longestWait) : s.wait? = some delay := by
  rw [wait?, pending, Option.map_some, Nat.min_eq_right short]

namespace Drive

/-- A driver started on `s`, asleep until its first step is due. -/
def launch (s : Session) : Drive := ⟨s, s.wait?, 0, 0⟩

/-- Run what is pending at time `now`. If nothing is pending any more, nothing is counted. -/
def wake (d : Drive) (now : Nat) : Drive :=
  let (ran, session) := d.session.runPending
  { session := session
    wakeAt := session.wait?.map (now + ·)
    now := now
    steps := if ran then d.steps + 1 else d.steps }

/-- Wake up as often as is due by `deadline`, at most `budget` times: without delays a run on a
cycle would keep the driver awake for ever. -/
def advance (deadline : Nat) : Nat → Drive → Drive
  | 0, d => d
  | budget + 1, d =>
    match d.wakeAt with
    | some time => if time ≤ deadline then advance deadline budget (d.wake time) else d
    | none => d

/-- Let a call reach the session. -/
def receive {α : Type} (d : Drive) (call : Call α) : α × Drive :=
  let (answer, session) := call.apply d.session
  (answer, { d with session := session })

/-- It wakes up by `deadline`. -/
def isDue (d : Drive) (deadline : Nat) : Bool := d.wakeAt.any (· ≤ deadline)

/-- Serve calls in the order of their times, and what is due between them. No call comes after a
budget that was not enough: the driver is awake, and time stands still. -/
def serve {α : Type} (budget limit : Nat) : List (Call α) → Drive → List α × Drive
  | [], d => ([], d.advance limit budget)
  | call :: rest, d =>
    let d := d.advance (min call.time limit) budget
    if d.isDue (min call.time limit) then ([], d)
    else
      let (answer, d) := d.receive call
      let (answers, d) := serve budget limit rest d
      (answer :: answers, d)

/-- It has found nothing pending, rather than been cut off. -/
def returned (d : Drive) : Bool := d.wakeAt.isNone

end Drive

/-- A driver on `s` up to time `limit`, with the answers to the calls. -/
def drive {α : Type} (s : Session) (budget limit : Nat) (calls : List (Call α)) :
    List α × Drive :=
  Drive.serve budget limit calls (.launch s)

end Stepflow
