import Stepflow.Proofs.Run.Budgets
import Stepflow.Session.Pacing

/-!
# The schedule of a driver

What a driver does is told apart from the time it takes: a log lists its wake-ups and the calls in
the order in which they reach the session, and the session does the same without any driver.

* `Session.undergo`: a log carried out by a session alone;
* `Paced`: when the wake-ups of a log are, and how the calls come in between them;
* `Drive.Runs`, `Drive.runs_serve`: a driver at work, happening after happening;
* `driver_keeps_pace`: a driver that is done has a paced log.
-/

namespace Stepflow

/-- What reaches a session that a driver works on. -/
inductive Happening (α : Type) where
  | wake (time : Nat)
  | call (call : Call α)

namespace Happening

variable {α : Type}

def wake? : Happening α → Option Nat
  | .wake time => some time
  | .call _ => none

def call? : Happening α → Option (Call α)
  | .wake _ => none
  | .call received => some received

def wakes (log : List (Happening α)) : List Nat := log.filterMap wake?

def served (log : List (Happening α)) : List (Call α) := log.filterMap call?

/-- Wake-ups without calls in between. -/
def wakeUps (times : List Nat) : List (Happening α) := times.map .wake

theorem eq_wakeUps {log : List (Happening α)} (alone : served log = []) :
    log = wakeUps (wakes log) := by
  induction log with
  | nil => rfl
  | cons happening rest ih =>
    cases happening with
    | wake t => exact congrArg _ (ih alone)
    | call => cases alone

variable {t : Nat} {received : Call α} {log first rest : List (Happening α)}

@[simp] theorem wakes_wake : wakes (.wake t :: log) = t :: wakes log := rfl

@[simp] theorem served_call : served (.call received :: log) = received :: served log := rfl

theorem served_append : served (first ++ rest) = served first ++ served rest :=
  List.filterMap_append

theorem wakes_wakeUps (times : List Nat) : wakes (wakeUps times : List (Happening α)) = times := by
  induction times with
  | nil => rfl
  | cons t rest ih => exact congrArg _ ih

theorem served_wakeUps (times : List Nat) :
    served (wakeUps times : List (Happening α)) = [] := by
  induction times with
  | nil => rfl
  | cons t rest ih => exact ih

end Happening

open Happening

/-- What has become of a session. -/
structure Course (α : Type) where
  /-- To the calls. -/
  answers : List α
  /-- Wake-ups that found something pending. -/
  steps : Nat
  session : Session

namespace Session

variable {α : Type} (s : Session)

/-- One happening after the other, whatever the time. -/
def undergo (s : Session) : List (Happening α) → Course α
  | [] => ⟨[], 0, s⟩
  | .wake _ :: rest =>
    let later := s.runPending.2.undergo rest
    { later with steps := (if s.debugger.pending.isSome then 1 else 0) + later.steps }
  | .call received :: rest =>
    let later := (received.apply s).2.undergo rest
    { later with answers := (received.apply s).1 :: later.answers }

theorem undergo_append (first rest : List (Happening α)) :
    s.undergo (first ++ rest) =
      ⟨(s.undergo first).answers ++ ((s.undergo first).session.undergo rest).answers,
        (s.undergo first).steps + ((s.undergo first).session.undergo rest).steps,
        ((s.undergo first).session.undergo rest).session⟩ := by
  induction first generalizing s with
  | nil => simp [undergo]
  | cons happening others ih =>
    cases happening with
    | wake t => simp [undergo, ih s.runPending.2, Nat.add_assoc]
    | call received => simp [undergo, ih (received.apply s).2]

theorem answers_wakeUps (times : List Nat) :
    (s.undergo (wakeUps times : List (Happening α))).answers = [] := by
  induction times generalizing s with
  | nil => rfl
  | cons t rest ih => exact ih s.runPending.2

theorem runPending_fst : s.runPending.1 = s.debugger.pending.isSome := by
  cases pending : s.debugger.pending <;>
    simp [runPending, controlled, Debugger.runPending?, pending]

variable {s}

theorem runUntilSettled_none (nothing : s.debugger.pending = none) (max : Nat) :
    s.runUntilSettled max = (0, s) := by
  simp only [runUntilSettled, Debugger.runUntilSettled_none nothing, absorb, List.append_nil]

theorem runUntilSettled_succ (pending : s.debugger.pending.isSome = true) (max : Nat) :
    s.runUntilSettled (max + 1)
      = ((s.runPending.2.runUntilSettled max).1 + 1, (s.runPending.2.runUntilSettled max).2) := by
  obtain ⟨step, pending⟩ := Option.isSome_iff_exists.1 pending
  have ran : s.runPending.2 = s.absorb (s.debugger.obey (.runPending s.canvas)) := by
    cases step <;>
      simp [runPending, controlled, Debugger.obey, Debugger.runPending?, pending]
  simp only [ran, runUntilSettled, Debugger.runUntilSettled_succ pending, absorb,
    List.append_assoc]

theorem pace_runPending (s : Session) : s.runPending.2.debugger.pace = s.debugger.pace := by
  cases pending : s.debugger.pending with
  | none => simp [runPending, controlled, Debugger.runPending?, pending]
  | some step =>
    cases step with
    | tick mode =>
      simp [runPending, controlled, Debugger.runPending?, pending, absorb, Debugger.runTick]
    | completion =>
      simp only [runPending, controlled, Debugger.runPending?, pending, Option.map_some, absorb,
        Debugger.runCompletion]
      split <;> rfl

/-- No step comes without a delay. -/
def Delayed (s : Session) : Prop :=
  0 < s.debugger.pace.tickDelay.toNat ∧ 0 < s.debugger.pace.completionDelay.toNat

theorem wait?_pos (delayed : s.Delayed) : ∀ t ∈ s.wait?, 0 < t := by
  intro t member
  obtain ⟨delay, due, rfl⟩ := Option.map_eq_some_iff.1 member
  obtain ⟨step, -, rfl⟩ := Option.map_eq_some_iff.1 due
  have most : 0 < longestWait := by decide
  cases step with
  | tick mode => exact Nat.lt_min.2 ⟨most, delayed.1⟩
  | completion => exact Nat.lt_min.2 ⟨most, delayed.2⟩

end Session

/-- The first wake-up of the log, or else the one after it. -/
def upcoming {α : Type} (log : List (Happening α)) (after : Option Nat) : Option Nat :=
  (log.findSome? Happening.wake?).or after

/-- The wake-ups of a driver on `s` by the time `limit`, and the calls in between. The driver sleeps
as long as `wait` says before it wakes up for the first time, and then again after every wake-up:
it wakes up no more when there is nothing to wait for. -/
structure Paced {α : Type} (wait : Session → Option Nat) (s : Session) (limit : Nat)
    (log : List (Happening α)) (answers : List α) (d : Drive) : Prop where
  sequential : s.undergo log = ⟨answers, d.steps, d.session⟩
  elapsed : d.now = (wakes log).getLast?.getD 0
  first : upcoming log d.wakeAt = wait s
  next : ∀ before t later, log = before ++ .wake t :: later →
    upcoming later d.wakeAt = (wait (s.undergo (before ++ [.wake t])).session).map (t + ·)
  limited : ∀ t ∈ wakes log, t ≤ limit
  between : ∀ before t later, log = before ++ .wake t :: later →
    (∀ call ∈ served before, call.time < t) ∧ ∀ call ∈ served later, t ≤ call.time

namespace Drive

variable {α : Type}

/-- A driver at work. A call finds it asleep, or cut off. -/
inductive Runs (limit : Nat) : Drive → List (Happening α) → Drive → Prop where
  | done (d : Drive) : Runs limit d [] d
  | wake {d d' : Drive} {t : Nat} {log : List (Happening α)} (due : d.wakeAt = some t)
      (within : t ≤ limit) (early : ∀ call ∈ served log, t ≤ call.time)
      (later : Runs limit (d.wake t) log d') : Runs limit d (.wake t :: log) d'
  | call {d d' : Drive} {call : Call α} {log : List (Happening α)}
      (asleep : d.isDue (min call.time limit) = false)
      (later : Runs limit (d.receive call).2 log d') : Runs limit d (.call call :: log) d'

variable {limit : Nat} {d d' m : Drive} {log first rest : List (Happening α)}

theorem isDue_eq_false {deadline : Nat} :
    d.isDue deadline = false ↔ ∀ t ∈ d.wakeAt, deadline < t := by
  cases wakeAt : d.wakeAt <;> simp [isDue, wakeAt]

theorem advance_asleep {deadline : Nat} (asleep : d.isDue deadline = false) (budget : Nat) :
    d.advance deadline budget = d := by
  have late := isDue_eq_false.1 asleep
  cases budget with
  | zero => rfl
  | succ budget =>
    cases wakeAt : d.wakeAt with
    | none => simp [advance, wakeAt]
    | some t =>
      have beyond : ¬t ≤ deadline := Nat.not_le.2 (late t wakeAt)
      simp [advance, wakeAt, beyond]

theorem advance_due {deadline budget : Nat} (due : d.isDue deadline = true) :
    ∃ t, d.wakeAt = some t ∧ t ≤ deadline ∧
      d.advance deadline (budget + 1) = (d.wake t).advance deadline budget := by
  obtain ⟨t, wakeAt, early⟩ : ∃ t, d.wakeAt = some t ∧ t ≤ deadline := by
    simpa [isDue, Option.any_eq_true] using due
  exact ⟨t, wakeAt, early, by simp [advance, wakeAt, early]⟩

theorem Runs.trans (now : Runs limit d first m) (later : Runs limit m rest d')
    (early : ∀ t ∈ wakes first, ∀ call ∈ served rest, t ≤ call.time) :
    Runs limit d (first ++ rest) d' := by
  induction now with
  | done => exact later
  | @wake d m t log due within before _ ih =>
    refine .wake due within ?_ (ih later fun u member => early u (.tail _ member))
    intro call member
    rw [List.append_eq, served_append, List.mem_append] at member
    exact member.elim (before call) (early t (.head _) call)
  | call asleep _ ih => exact .call asleep (ih later early)

/-- What happened falls in two where the log does. -/
theorem Runs.split (runs : Runs limit d (first ++ rest) d') :
    ∃ m, Runs limit d first m ∧ Runs limit m rest d' := by
  induction first generalizing d with
  | nil => exact ⟨d, .done d, runs⟩
  | cons happening others ih =>
    cases runs with
    | wake due within early later =>
      obtain ⟨m, now, then_⟩ := ih later
      refine ⟨m, .wake due within (fun call member => early call ?_) now, then_⟩
      rw [List.append_eq, served_append]
      exact List.mem_append_left _ member
    | call asleep later =>
      obtain ⟨m, now, then_⟩ := ih later
      exact ⟨m, .call asleep now, then_⟩

theorem steps_wake (d : Drive) (t : Nat) : (d.wake t).steps
    = d.steps + if d.session.debugger.pending.isSome then 1 else 0 := by
  rw [← Session.runPending_fst]
  cases ran : d.session.runPending.1 <;> simp [wake, ran]

theorem Runs.sequential (runs : Runs limit d log d') :
    (d.session.undergo log).session = d'.session ∧
      d'.steps = d.steps + (d.session.undergo log).steps := by
  induction runs with
  | done => exact ⟨rfl, rfl⟩
  | @wake d d' t log due within early later ih =>
    refine ⟨ih.1, ih.2.trans ?_⟩
    rw [steps_wake, Nat.add_assoc]
    rfl
  | call asleep later ih => exact ih

theorem Runs.elapsed (runs : Runs limit d log d') :
    d'.now = (wakes log).getLast?.getD d.now := by
  induction runs with
  | done => rfl
  | @wake d d' t log due within early later ih =>
    rw [ih, wakes_wake, List.getLast?_cons, Option.getD_some]
    rfl
  | call asleep later ih => exact ih

theorem Runs.upcoming (runs : Runs limit d log d') : upcoming log d'.wakeAt = d.wakeAt := by
  induction runs with
  | done => rfl
  | wake due => exact due.symm
  | call asleep later ih => exact ih

theorem Runs.limited (runs : Runs limit d log d') : ∀ t ∈ wakes log, t ≤ limit := by
  induction runs with
  | done => simp [wakes]
  | wake due within early later ih => simpa using ⟨within, ih⟩
  | call asleep later ih => exact ih

/-- Time does not run backwards. -/
theorem Runs.forwards (runs : Runs limit d log d') : ∀ t ∈ d'.wakeAt, ∃ u ∈ d.wakeAt, u ≤ t := by
  induction runs with
  | done => exact fun t member => ⟨t, member, Nat.le_refl t⟩
  | @wake d d' t log due within early later ih =>
    intro u member
    obtain ⟨v, next, le⟩ := ih u member
    obtain ⟨delay, -, rfl⟩ := Option.map_eq_some_iff.1 next
    exact ⟨t, due, by omega⟩
  | call asleep later ih => exact ih

/-- A driver that is still to wake up has heard of earlier calls only. -/
theorem Runs.before (runs : Runs limit d log d') {t : Nat} (due : d'.wakeAt = some t)
    (within : t ≤ limit) : ∀ call ∈ served log, call.time < t := by
  induction runs with
  | done => simp [served]
  | wake _ _ _ _ ih => exact ih due
  | @call d d' call log asleep later ih =>
    obtain ⟨u, wakes, le⟩ := later.forwards t due
    have apart := isDue_eq_false.1 asleep u wakes
    have earlier : call.time < t := by omega
    simpa using ⟨earlier, ih due⟩

theorem runs_advance {deadline : Nat} (within : deadline ≤ limit) (budget : Nat) (d : Drive) :
    ∃ times, Runs limit d (wakeUps times : List (Happening α)) (d.advance deadline budget) ∧
      (∀ t ∈ times, t ≤ deadline) ∧
      ((d.advance deadline budget).isDue deadline = true → times.length = budget) := by
  induction budget generalizing d with
  | zero => exact ⟨[], .done d, by simp, fun _ => rfl⟩
  | succ budget ih =>
    cases due : d.isDue deadline with
    | false =>
      rw [advance_asleep due]
      exact ⟨[], .done d, by simp, by simp [due]⟩
    | true =>
      obtain ⟨t, wakeAt, early, next⟩ := advance_due due
      obtain ⟨times, runs, others, spent⟩ := ih (d.wake t)
      rw [next]
      refine ⟨t :: times, .wake wakeAt (by omega) ?_ runs, by simpa using ⟨early, others⟩, ?_⟩
      · rw [← wakeUps, served_wakeUps]
        simp
      · intro still
        rw [List.length_cons, spent still]

theorem serve_cons {budget : Nat} {call : Call α} {planned : List (Call α)}
    (asleep : (d.advance (min call.time limit) budget).isDue (min call.time limit) = false) :
    let m := d.advance (min call.time limit) budget
    let others := serve budget limit planned (m.receive call).2
    serve budget limit (call :: planned) d = ((call.apply m.session).1 :: others.1, others.2) :=
  if_neg (by simp [asleep])

/-- Calls are served in order, until the driver has woken up `budget` times between two of them. -/
theorem runs_serve (budget limit : Nat) {planned : List (Call α)}
    (ascending : planned.Pairwise (·.time ≤ ·.time)) (d : Drive) :
    let result := serve budget limit planned d
    ∃ log unserved, planned = served log ++ unserved ∧ Runs limit d log result.2 ∧
      result.1 = (d.session.undergo log).answers ∧
      (unserved = [] ∧ result.2.isDue limit = false ∨
        ∃ earlier times, log = earlier ++ wakeUps times ∧ times.length = budget) := by
  induction planned generalizing d with
  | nil =>
    obtain ⟨times, runs, -, spent⟩ := runs_advance (Nat.le_refl limit) budget d
    refine ⟨wakeUps times, [], by rw [served_wakeUps]; rfl, runs,
      (Session.answers_wakeUps _ _).symm, ?_⟩
    cases due : (d.advance limit budget).isDue limit with
    | false => exact .inl ⟨rfl, due⟩
    | true => exact .inr ⟨[], times, rfl, spent due⟩
  | cons call rest ih =>
    obtain ⟨later, ascending⟩ := List.pairwise_cons.1 ascending
    obtain ⟨times, runs, early, spent⟩ :=
      runs_advance (Nat.min_le_right call.time limit) budget d
    let m := d.advance (min call.time limit) budget
    cases due : m.isDue (min call.time limit) with
    | true =>
      have cut : serve budget limit (call :: rest) d = ([], m) := if_pos due
      rw [cut]
      exact ⟨wakeUps times, call :: rest, by rw [served_wakeUps]; rfl, runs,
        (Session.answers_wakeUps _ _).symm, .inr ⟨[], times, rfl, spent due⟩⟩
    | false =>
      rw [serve_cons due]
      obtain ⟨log, unserved, split, others, answers, ended⟩ := ih ascending (m.receive call).2
      refine ⟨wakeUps times ++ .call call :: log, unserved, ?_, ?_, ?_, ?_⟩
      · rw [served_append, served_wakeUps, served_call, split]
        rfl
      · refine runs.trans (.call due others) ?_
        rw [wakes_wakeUps, served_call]
        intro t member received heard
        have first : t ≤ call.time := Nat.le_trans (early t member) (Nat.min_le_left _ _)
        rcases List.mem_cons.1 heard with rfl | next
        · exact first
        · have ahead : received ∈ rest := by
            rw [split]
            exact List.mem_append_left _ next
          exact Nat.le_trans first (later received ahead)
      · rw [Session.undergo_append, Session.answers_wakeUps, runs.sequential.1]
        exact congrArg _ answers
      · rcases ended with done | ⟨earlier, last, rfl, spent⟩
        · exact .inl done
        · exact .inr ⟨wakeUps times ++ .call call :: earlier, last, by simp, spent⟩

/-- Left alone until it returns, a driver runs all that is pending, one step after the other. -/
theorem Runs.settled (runs : Runs limit d log d') (alone : served log = [])
    (fresh : d.wakeAt.isSome = d.session.debugger.pending.isSome) (returned : d'.wakeAt = none) :
    ∃ steps, d'.steps = d.steps + steps ∧
      ∀ max ≥ steps, d.session.runUntilSettled max = (steps, d'.session) := by
  induction runs with
  | done d =>
    have nothing : d.session.debugger.pending = none := by simpa [returned] using fresh.symm
    exact ⟨0, rfl, fun max _ => d.session.runUntilSettled_none nothing max⟩
  | @wake d d' t log due within early later ih =>
    have pending : d.session.debugger.pending.isSome = true := by rw [← fresh, due]; rfl
    have again : (d.wake t).wakeAt.isSome = (d.wake t).session.debugger.pending.isSome := by
      simp [Drive.wake, Session.wait?, Debugger.delay?]
    obtain ⟨steps, counted, settles⟩ := ih alone again returned
    refine ⟨steps + 1, ?_, fun max enough => ?_⟩
    · rw [counted, steps_wake, if_pos pending]
      omega
    · obtain ⟨most, rfl⟩ : ∃ most, max = most + 1 := ⟨max - 1, by omega⟩
      have rest : d.session.runPending.2.runUntilSettled most = (steps, d'.session) :=
        settles most (by omega)
      rw [Session.runUntilSettled_succ pending, rest]
  | call => cases alone

theorem paced_of_runs {s : Session} (runs : Runs limit (launch s) log d) :
    Paced Session.wait? s limit log (s.undergo log).answers d where
  sequential := by
    obtain ⟨session, steps⟩ := runs.sequential
    rw [← session, steps]
    simp [launch]
  elapsed := runs.elapsed
  first := runs.upcoming
  limited := runs.limited
  next before t later same := by
    obtain rfl := same
    obtain ⟨m, first, rest⟩ := runs.split
    have left : (s.undergo before).session = m.session := first.sequential.1
    cases rest with
    | wake due within early after =>
      rw [Session.undergo_append, left]
      exact after.upcoming
  between before t later same := by
    obtain rfl := same
    obtain ⟨m, first, rest⟩ := runs.split
    cases rest with
    | wake due within early after => exact ⟨first.before due within, early⟩

/-! Delays that let time pass -/

theorem advance_settles {deadline budget : Nat} (delayed : d.session.Delayed)
    (enough : ∀ t ∈ d.wakeAt, deadline < budget + t) :
    (d.advance deadline budget).isDue deadline = false ∧
      (d.advance deadline budget).session.debugger.pace = d.session.debugger.pace := by
  induction budget generalizing d with
  | zero => exact ⟨isDue_eq_false.2 fun t member => by simpa using enough t member, rfl⟩
  | succ budget ih =>
    cases due : d.isDue deadline with
    | false =>
      rw [advance_asleep due]
      exact ⟨due, rfl⟩
    | true =>
      obtain ⟨t, wakeAt, early, next⟩ := advance_due due
      have same : (d.wake t).session.debugger.pace = d.session.debugger.pace :=
        d.session.pace_runPending
      have delayed : (d.wake t).session.Delayed := by rwa [Session.Delayed, same]
      have later : ∀ u ∈ (d.wake t).wakeAt, deadline < budget + u := by
        intro u wakes
        obtain ⟨delay, waits, rfl⟩ := Option.map_eq_some_iff.1 wakes
        have positive : 0 < delay := Session.wait?_pos delayed delay waits
        have bound := enough t wakeAt
        omega
      obtain ⟨sleeps, kept⟩ := ih delayed later
      rw [next]
      exact ⟨sleeps, kept.trans same⟩

theorem serve_settles {budget : Nat} (enough : limit < budget) {planned : List (Call α)}
    (keeps : ∀ call ∈ planned, ∀ s, (call.apply s).2.debugger.pace = s.debugger.pace)
    (delayed : d.session.Delayed) :
    let result := serve budget limit planned d
    result.1.length = planned.length ∧ result.2.isDue limit = false := by
  induction planned generalizing d with
  | nil => exact ⟨rfl, (advance_settles delayed fun t _ => by omega).1⟩
  | cons call rest ih =>
    let m := d.advance (min call.time limit) budget
    obtain ⟨sleeps, kept⟩ : m.isDue (min call.time limit) = false ∧
        m.session.debugger.pace = d.session.debugger.pace :=
      advance_settles delayed fun t _ => by omega
    have same : (m.receive call).2.session.debugger.pace = d.session.debugger.pace :=
      (keeps call (.head _) m.session).trans kept
    obtain ⟨served, done⟩ := ih (fun other member => keeps other (.tail _ member))
      (d := (m.receive call).2) (by rwa [Session.Delayed, same])
    rw [serve_cons sleeps]
    exact ⟨congrArg (· + 1) served, done⟩

end Drive

/-- **A driver is the session alone, paced by delays.** Whatever calls come while it sleeps, the
session does what it would do on its own, were the calls and one step for every wake-up made in the
order of their times. The driver wakes up when the step that is pending at the start is due, and
after every wake-up again when the step then pending is; it returns when there is none. What it
counts are the wake-ups that found something pending.

All calls are served and the driver sleeps beyond the limit at the end, unless it has woken up
`budget` times in a row; with delays it cannot do so by a limit below the budget. Where nobody
calls, a driver that returns leaves what running all pending steps at once leaves. -/
theorem driver_keeps_pace {α : Type} (s : Session) (budget limit : Nat) {calls : List (Call α)}
    (ascending : calls.Pairwise (·.time ≤ ·.time)) :
    let result := drive s budget limit calls
    let d := result.2
    (∃ log unserved, calls = served log ++ unserved ∧
      Paced Session.wait? s limit log result.1 d ∧
      (unserved = [] ∧ d.isDue limit = false ∨
        ∃ earlier times, log = earlier ++ wakeUps times ∧ times.length = budget)) ∧
    (s.Delayed → limit < budget →
      (∀ call ∈ calls, ∀ s, (call.apply s).2.debugger.pace = s.debugger.pace) →
      result.1.length = calls.length ∧ d.isDue limit = false) ∧
    (calls = [] → d.returned = true →
      ∀ max ≥ d.steps, s.runUntilSettled max = (d.steps, d.session)) := by
  intro result d
  obtain ⟨log, unserved, split, runs, answers, ended⟩ :=
    Drive.runs_serve budget limit ascending (.launch s)
  have worked : Drive.Runs limit (.launch s) log d := runs
  refine ⟨⟨log, unserved, split, ?_, ended⟩, ?_, ?_⟩
  · have answered : result.1 = (s.undergo log).answers := answers
    rw [answered]
    exact Drive.paced_of_runs worked
  · exact fun delayed enough keeps => Drive.serve_settles enough keeps delayed
  · intro none returned
    have alone : served log = [] := by
      rw [none] at split
      exact (List.append_eq_nil_iff.1 split.symm).1
    have fresh : (Drive.launch s).wakeAt.isSome = s.debugger.pending.isSome := by
      simp [Drive.launch, Session.wait?, Debugger.delay?]
    obtain ⟨steps, counted, settles⟩ :=
      worked.settled alone fresh (Option.isNone_iff_eq_none.1 returned)
    obtain rfl : d.steps = steps := counted.trans (Nat.zero_add steps)
    exact settles

/-- A run of one node, before its first step. -/
def begun (settings : Settings) : Session :=
  let sole : Workflow := {
    id := "w"
    name := "Sole"
    scope := .server
    inputs := []
    outputs := []
    locals := []
    nodes := [.ofKind "s" .start (.ofInt 0) (.ofInt 0)] }
  (((Session.initial settings "00:00:00").edit (.insertWorkflow sole)).2.start "w").2

/-- Stopped before its completion is due, a run leaves the driver one wake-up that does not
count. -/
theorem stopped_keeps_pace :
    let calls : List (Call Unit) := [⟨700, fun s => ((), s.stop)⟩]
    let result := drive (begun {}) 2001 2000 calls
    calls.Pairwise (·.time ≤ ·.time) ∧
    (result.2.returned = true ∧ result.2.steps = 1 ∧ result.2.now = 1100) ∧
    (∃ log unserved, calls = served log ++ unserved ∧
      Paced Session.wait? (begun {}) 2000 log result.1 result.2) ∧
    result.1.length = calls.length ∧ result.2.isDue 2000 = false := by
  intro calls result
  have ascending : calls.Pairwise (·.time ≤ ·.time) := List.pairwise_singleton _ _
  obtain ⟨⟨log, unserved, split, paced, -⟩, settles, -⟩ :=
    driver_keeps_pace (begun {}) 2001 2000 ascending
  have keeps : ∀ call ∈ calls, ∀ s, (call.apply s).2.debugger.pace = s.debugger.pace := by
    simp [calls, Session.stop, Session.absorb, Debugger.stop]
  exact ⟨ascending, by decide +kernel, ⟨log, unserved, split, paced⟩,
    settles ⟨by decide +kernel, by decide +kernel⟩ (by decide) keeps⟩

/-- Steps are not always as far apart as their delays: a delay of thirty years and a millisecond is
cut short, and the driver returns a millisecond too early. -/
theorem long_delays_are_cut :
    let s := begun { pace := { tickDelay := 946080000001 } }
    let result := drive s 3 1000000000000 ([] : List (Call Unit))
    ¬∃ log unserved, [] = served log ++ unserved ∧
      Paced (·.debugger.delay?) s 1000000000000 log result.1 result.2 := by
  intro s result
  let course (times : List Nat) : Course Unit := s.undergo (wakeUps times)
  have returned : result.2.wakeAt = none := by decide +kernel
  have early : result.2.now = 946080000500 := by decide +kernel
  have first : s.debugger.delay? = some 946080000001 := by decide +kernel
  have second : (course [946080000001]).session.debugger.delay? = some 500 := by decide +kernel
  have third : (course [946080000001, 946080000501]).session.debugger.delay? = none := by
    decide +kernel
  rintro ⟨log, unserved, split, paced⟩
  obtain ⟨times, rfl⟩ : ∃ times, log = wakeUps times :=
    ⟨_, eq_wakeUps (List.append_eq_nil_iff.1 split.symm).1⟩
  have next := paced.next
  have starts := paced.first
  have ends := paced.elapsed
  rw [returned] at next starts
  rw [first] at starts
  rw [early, wakes_wakeUps] at ends
  -- the two wake-ups are where their delays put them, and that is too late
  cases times with
  | nil => cases starts
  | cons t times =>
    obtain rfl : t = 946080000001 := Option.some.inj starts
    have goesOn := (next [] _ (wakeUps times) rfl).trans (congrArg (Option.map _) second)
    cases times with
    | nil => cases goesOn
    | cons u times =>
      obtain rfl : u = 946080000501 := Option.some.inj goesOn
      have stops := (next [.wake _] _ (wakeUps times) rfl).trans (congrArg (Option.map _) third)
      cases times with
      | nil => cases ends
      | cons => cases stops

end Stepflow
