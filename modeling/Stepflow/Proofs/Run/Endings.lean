import Stepflow.Proofs.Run.Highlight

/-!
# How runs end

A path ends with a visit that leads nowhere. After a continuous tick a completion is pending then,
after a single step nothing is. What is said here holds from that visit to the next start, whatever
canvases the calls see.

* `Ended`, `ended_obey`: the visit leaves a run that stands nowhere, without an end in its report;
* `Aftermath`, `Ended.aftermath`: all that a call can do to such a run;
* `Closing`, `closing_follow`: its last words, if there are any;
* `halt_follows_letting_go`: it halts where it has been let go on, and nowhere else.
-/

namespace Stepflow.Debugger

/-- A run whose path has ended: it stands nowhere. -/
structure Ended (d : Debugger) : Prop where
  fit : d.Coherent
  nowhere : d.state.current = none

/-- The call lets the run go on: a resume from a pause, or a step of a run that is not idle. -/
def LetsGo (d : Debugger) : Command → Prop
  | .resume => d.state.status = .paused
  | .step _ _ => d.state.status ≠ .idle
  | .start _ _ | .stop | .runPending _ => False

instance (d : Debugger) (command : Command) : Decidable (d.LetsGo command) :=
  match command with
  | .resume => inferInstanceAs (Decidable (d.state.status = .paused))
  | .step _ _ => inferInstanceAs (Decidable (d.state.status ≠ .idle))
  | .start _ _ | .stop | .runPending _ => inferInstanceAs (Decidable False)

variable {d : Debugger}

/-! The end of a path -/

/-- A tick whose visit leads nowhere announces no end. After it nothing is pending but, perhaps,
the completion. -/
theorem ended_runTick (running : d.state.status = .running) {c : Canvas} {mode : Mode}
    {visit : Visit} (visited : visit ∈ (d.runTick c mode).events.filterMap Event.visit?)
    (ends : visit.next = none) :
    (d.runTick c mode).debugger.Ended ∧
      (∀ event ∈ (d.runTick c mode).events, event.isEnd = false) ∧
      ∀ mode', (d.runTick c mode).debugger.pending ≠ some (.tick mode') := by
  have fit := coherent_runTick running c mode
  obtain ⟨result, advance, ran⟩ := runTick_cases running c mode
  rw [ran] at visited fit ⊢
  cases advance with
  | lost | dangling => cases visited
  | @breakpoint w id n next live position found arrival =>
    obtain rfl : visit = (d.state.visit d.pace d.clock n).2 := List.mem_singleton.1 visited
    rw [ends] at arrival
    cases arrival
  | @single w id n =>
    obtain rfl : visit = (d.state.visit d.pace d.clock n).2 := List.mem_singleton.1 visited
    refine ⟨⟨fit, ends⟩, ?_, fun mode' => ?_⟩
    · simp [report, outcomeEvents, Event.isEnd]
    · simp [report, Pending.after?]
  | @proceed w id next n live position found on leads =>
    obtain rfl : visit = (d.state.visit d.pace d.clock n).2 := List.mem_singleton.1 visited
    rw [ends] at leads
    cases leads
  | @finish w id n =>
    obtain rfl : visit = (d.state.visit d.pace d.clock n).2 := List.mem_singleton.1 visited
    refine ⟨⟨fit, ends⟩, ?_, fun mode' => ?_⟩
    · simp [report, outcomeEvents, Event.isEnd]
    · simp [report, Pending.after?]

/-- Only ticks visit anything. -/
theorem ended_obey (fit : d.Coherent) {command : Command} {visit : Visit}
    (visited : visit ∈ (d.obey command).events.filterMap Event.visit?)
    (ends : visit.next = none) :
    (d.obey command).debugger.Ended ∧
      (∀ event ∈ (d.obey command).events, event.isEnd = false) ∧
      ∀ mode, (d.obey command).debugger.pending ≠ some (.tick mode) := by
  have response := d.response_obey command
  generalize d.obey command = e at response visited ⊢
  cases response with
  | refused | resumed | stepped => cases visited
  | started begun | entered _ begun =>
    obtain ⟨w, start, -, -, s, -, -, -, -, rfl⟩ := start?_cases begun
    cases visited
  | stopped =>
    unfold stop at visited
    split at visited <;> cases visited
  | ticked pending => exact ended_runTick (fit.running pending) visited ends
  | completed pending =>
    rw [runCompletion, if_pos (fit.running pending)] at visited
    cases visited

/-! What a call does then -/

/-- All that a call can do to a run whose path has ended, short of beginning another, case by
case. -/
inductive Aftermath (d : Debugger) : Command → Emission → Prop where
  | held {command : Command} (kept : ¬ d.LetsGo command) : Aftermath d command ⟨d, []⟩
  | stopped : Aftermath d .stop d.stop
  | letGo {command : Command} (mode : Mode) (goes : d.LetsGo command) :
      Aftermath d command ⟨d.released mode, []⟩
  | halted {c : Canvas} {mode : Mode} (pending : d.pending = some (.tick mode)) :
      Aftermath d (.runPending c) (d.report (d.state.halt d.pace "Execution finished."))
  | completed {c : Canvas} (pending : d.pending = some .completion) :
      Aftermath d (.runPending c) d.runCompletion

/-- There is nothing left to evaluate. -/
theorem Ended.runTick_eq (ended : d.Ended) (running : d.state.status = .running) (c : Canvas)
    (mode : Mode) : d.runTick c mode = d.report (d.state.halt d.pace "Execution finished.") := by
  obtain ⟨result, advance, ran⟩ := runTick_cases running c mode
  rw [ran]
  cases advance with
  | lost => rfl
  | dangling _ position | breakpoint _ position | single _ position | proceed _ position
  | finish _ position =>
    rw [ended.nowhere] at position
    cases position

theorem Ended.aftermath (ended : d.Ended) {command : Command}
    (sameRun : ∀ event ∈ (d.obey command).events, event.isStart = false) :
    d.Aftermath command (d.obey command) := by
  have unbegun {c : Canvas} {id : String} {e : Emission} (begun : d.start? c id = some e) :
      ¬∀ event ∈ e.events, event.isStart = false := by
    obtain ⟨w, start, -, -, s, -, -, -, -, rfl⟩ := start?_cases begun
    simp [Event.isStart]
  cases command with
  | start c id =>
    cases begun : d.start? c id with
    | none =>
      rw [obey_start_refused begun]
      exact .held not_false
    | some e =>
      rw [obey_start begun] at sameRun
      exact absurd sameRun (unbegun begun)
  | stop => exact .stopped
  | resume =>
    by_cases paused : d.state.status = .paused
    · rw [obey_resume_paused paused]
      exact .letGo .continuous paused
    · rw [obey_resume_refused paused]
      exact .held paused
  | step c id =>
    by_cases idle : d.state.status = .idle
    · cases begun : d.start? c id with
      | none =>
        rw [obey_step_refused idle begun]
        exact .held fun awake => awake idle
      | some e =>
        rw [obey_step_idle idle begun] at sameRun
        refine absurd (fun event member => ?_) (unbegun begun)
        exact sameRun event (List.mem_append_left _ member)
    · rw [obey_step_awake idle]
      exact .letGo .single idle
  | runPending c =>
    cases pending : d.pending with
    | none =>
      rw [obey_runPending_none pending]
      exact .held not_false
    | some step =>
      cases step with
      | tick mode =>
        rw [obey_runPending_tick pending, ended.runTick_eq (ended.fit.running pending) c mode]
        exact .halted pending
      | completion =>
        rw [obey_runPending_completion pending]
        exact .completed pending

/-- Only a start puts the run somewhere again. -/
theorem Ended.keeps (ended : d.Ended) {command : Command}
    (sameRun : ∀ event ∈ (d.obey command).events, event.isStart = false) :
    (d.obey command).debugger.Ended ∧ (d.obey command).debugger.execution = d.execution := by
  have fit := coherent_obey ended.fit command
  have aftermath := ended.aftermath sameRun
  generalize d.obey command = e at aftermath fit ⊢
  cases aftermath with
  | held | letGo => exact ⟨⟨fit, ended.nowhere⟩, rfl⟩
  | stopped | halted => exact ⟨⟨fit, rfl⟩, rfl⟩
  | completed pending =>
    rw [runCompletion, if_pos (ended.fit.running pending)] at fit ⊢
    refine ⟨⟨fit, ?_⟩, rfl⟩
    rw [RunState.complete, if_pos (ended.fit.running pending)]

theorem Ended.keeps_follow (ended : d.Ended) {commands : List Command}
    (sameRun : ∀ event ∈ (d.follow commands).events, event.isStart = false) :
    (d.follow commands).debugger.Ended ∧ (d.follow commands).debugger.execution = d.execution := by
  induction commands generalizing d with
  | nil => exact ⟨ended, rfl⟩
  | cons command rest ih =>
    obtain ⟨next, same⟩ := ended.keeps fun event member =>
      sameRun event (List.mem_append_left _ member)
    obtain ⟨last, later⟩ := ih next fun event member =>
      sameRun event (List.mem_append_right _ member)
    exact ⟨last, later.trans same⟩

/-- Once let go, the run halts in the next tick. -/
theorem Ended.halts (ended : d.Ended) {command : Command} (goes : d.LetsGo command) (c : Canvas) :
    let ran := (d.obey command).debugger.obey (.runPending c)
    ran.events = [.halted d.execution "Execution finished."] ∧
      ran.debugger.state.status = .idle := by
  obtain ⟨mode, released⟩ : ∃ mode, d.obey command = ⟨d.released mode, []⟩ := by
    cases command with
    | resume => exact ⟨.continuous, obey_resume_paused goes⟩
    | step c id => exact ⟨.single, obey_step_awake goes c id⟩
    | start | stop | runPending => cases goes
  have nowhere : (d.released mode).Ended :=
    ⟨by simpa [released] using coherent_obey ended.fit command, ended.nowhere⟩
  have ticked : (d.released mode).obey (.runPending c) = (d.released mode).runTick c mode := rfl
  intro ran
  have halted : ran = (d.released mode).report
      ((d.released mode).state.halt d.pace "Execution finished.") := by
    change (d.obey command).debugger.obey (.runPending c) = _
    rw [released, ticked]
    exact nowhere.runTick_eq rfl c mode
  rw [halted]
  exact ⟨rfl, rfl⟩

/-! Last words -/

/-- What is said before the next start by a run whose path has ended: at most a completion, if that
is due, and then at most one of a halt and a stop. -/
structure Closing (d : Debugger) (events : List Event) : Prop where
  brief :
    events.Sublist [.completed d.execution, .halted d.execution "Execution finished."] ∨
      events.Sublist [.completed d.execution, .stopped d.execution]
  due : .completed d.execution ∈ events → d.pending = some .completion
  awake : d.state.status = .idle → events = []

theorem closing_follow (ended : d.Ended) {commands : List Command}
    (sameRun : ∀ event ∈ (d.follow commands).events, event.isStart = false) :
    d.Closing (d.follow commands).events := by
  induction commands generalizing d with
  | nil =>
    constructor
    · exact .inl (List.nil_sublist _)
    · simp [follow]
    · exact fun _ => rfl
  | cons command rest ih =>
    have now : ∀ event ∈ (d.obey command).events, event.isStart = false :=
      fun event member => sameRun event (List.mem_append_left _ member)
    obtain ⟨next, same⟩ := ended.keeps now
    have later := ih next fun event member => sameRun event (List.mem_append_right _ member)
    have aftermath := ended.aftermath now
    simp only [follow]
    generalize d.obey command = e at aftermath next same later ⊢
    obtain ⟨brief, due, awake⟩ := later
    rw [same] at brief due
    cases aftermath with
    | held => exact ⟨brief, due, awake⟩
    | letGo mode goes =>
      refine ⟨brief, fun said => (by cases due said), fun idle => ?_⟩
      cases command with
      | resume => exact absurd (goes.symm.trans idle) (by decide)
      | step => exact absurd idle goes
      | start | stop | runPending => cases goes
    | stopped =>
      rw [awake rfl, List.append_nil]
      by_cases idle : d.state.status = .idle
      · have silent : d.stop.events = [] := by
          have nothing := ended.fit.scheduled
          simp [stop, idle] at nothing ⊢
          exact nothing
        rw [silent]
        exact ⟨.inl (List.nil_sublist _), by simp, fun _ => rfl⟩
      · have spoken : d.stop.events = [.stopped d.execution] := by simp [stop, idle]
        rw [spoken]
        exact ⟨.inr (by simp), by simp, fun asleep => absurd asleep idle⟩
    | halted pending =>
      have running := ended.fit.running pending
      rw [awake rfl, List.append_nil]
      refine ⟨.inl ?_, ?_, ?_⟩
      · simp [report, RunState.halt, outcomeEvents]
      · simp [report, RunState.halt, outcomeEvents]
      · simp [running]
    | completed pending =>
      have running := ended.fit.running pending
      have spoken : d.runCompletion.events = [.completed d.execution] := by
        rw [runCompletion, if_pos running]
      have nothing : d.runCompletion.debugger.pending = none := by
        rw [runCompletion, if_pos running]
      rw [nothing] at due
      -- the completion has been said, and is not said again
      have onward {others : List Event}
          (h : (d.runCompletion.debugger.follow rest).events.Sublist
            (.completed d.execution :: others)) :
          (.completed d.execution :: (d.runCompletion.debugger.follow rest).events).Sublist
            (.completed d.execution :: others) := by
        rcases List.sublist_cons_iff.1 h with fewer | ⟨_, again, -⟩
        · exact fewer.cons_cons _
        · cases due (by rw [again]; exact .head _)
      rw [spoken]
      exact ⟨brief.imp onward onward, fun _ => pending, by simp [running]⟩

/-- Who halts has been let go on. -/
theorem letGo_of_halted (ended : d.Ended) (unticked : ∀ mode, d.pending ≠ some (.tick mode))
    {commands : List Command}
    (sameRun : ∀ event ∈ (d.follow commands).events, event.isStart = false)
    (halted : ∃ event ∈ (d.follow commands).events, event.isHalt = true) :
    ∃ before command after, commands = before ++ command :: after ∧
      (d.follow before).debugger.LetsGo command := by
  induction commands generalizing d with
  | nil => simp [follow] at halted
  | cons command rest ih =>
    have now : ∀ event ∈ (d.obey command).events, event.isStart = false :=
      fun event member => sameRun event (List.mem_append_left _ member)
    have then_ : ∀ event ∈ ((d.obey command).debugger.follow rest).events, event.isStart = false :=
      fun event member => sameRun event (List.mem_append_right _ member)
    by_cases goes : d.LetsGo command
    · exact ⟨[], command, rest, rfl, goes⟩
    · obtain ⟨next, -⟩ := ended.keeps now
      obtain ⟨silent, unticked⟩ : (∀ event ∈ (d.obey command).events, event.isHalt = false) ∧
          ∀ mode, (d.obey command).debugger.pending ≠ some (.tick mode) := by
        have aftermath := ended.aftermath now
        generalize d.obey command = e at aftermath ⊢
        cases aftermath with
        | held => exact ⟨by simp, unticked⟩
        | stopped =>
          refine ⟨?_, by simp [stop]⟩
          unfold stop
          split <;> simp [Event.isHalt]
        | letGo mode released => exact absurd released goes
        | halted pending => exact absurd pending (unticked _)
        | completed pending =>
          rw [runCompletion, if_pos (ended.fit.running pending)]
          exact ⟨by simp [Event.isHalt], by simp⟩
      have later : ∃ event ∈ ((d.obey command).debugger.follow rest).events,
          event.isHalt = true := by
        obtain ⟨event, member, halts⟩ := halted
        rcases List.mem_append.1 member with first | others
        · rw [silent event first] at halts
          cases halts
        · exact ⟨event, others, halts⟩
      obtain ⟨before, call, after, split, released⟩ := ih next unticked then_ later
      exact ⟨command :: before, call, after, by rw [split]; rfl, released⟩

/-- **A run halts after the end of its path where it is let go on, and only there.** From the visit
that leads nowhere to the next start, after any calls on any canvases: the call of the visit
announces no end; after it come at most a completion, if that is pending, and then at most one of a
halt for want of a current node and a stop. A run that halts has been let go on since, by a resume
from its pause or by a step; and once it is let go on, the next tick halts it. -/
theorem halt_follows_letting_go (pace : Pace) (clock : String) (before : List Command)
    (last : Command) (after : List Command) :
    let reached := ((initial pace clock).follow before).debugger.obey last
    let run := reached.debugger.execution
    let rest := reached.debugger.follow after
    (∃ visit ∈ reached.events.filterMap Event.visit?, visit.next = none) →
    (∀ event ∈ rest.events, event.isStart = false) →
    (∀ event ∈ reached.events, event.isEnd = false) ∧
    (rest.events.Sublist [.completed run, .halted run "Execution finished."] ∨
      rest.events.Sublist [.completed run, .stopped run]) ∧
    (.completed run ∈ rest.events → reached.debugger.pending = some .completion) ∧
    ((∃ event ∈ rest.events, event.isHalt = true) →
      ∃ between command later, after = between ++ command :: later ∧
        (reached.debugger.follow between).debugger.LetsGo command) ∧
    ∀ between command later, after = between ++ command :: later →
      (reached.debugger.follow between).debugger.LetsGo command →
      ∀ c : Canvas,
        let ran := ((reached.debugger.follow between).debugger.obey command).debugger.obey
          (.runPending c)
        ran.events = [.halted run "Execution finished."] ∧
          ran.debugger.state.status = .idle := by
  intro reached run rest ⟨visit, visited, ends⟩ sameRun
  have fit := coherent_follow (coherent_initial pace clock) before
  obtain ⟨ended, quiet, unticked⟩ := ended_obey fit visited ends
  have closing := closing_follow ended sameRun
  refine ⟨quiet, closing.brief, closing.due, letGo_of_halted ended unticked sameRun, ?_⟩
  intro between command later split goes c
  have through : ∀ event ∈ (reached.debugger.follow between).events, event.isStart = false := by
    intro event member
    apply sameRun
    change event ∈ (reached.debugger.follow after).events
    rw [split, follow_append]
    exact List.mem_append_left _ member
  obtain ⟨there, same⟩ := ended.keeps_follow through
  intro ran
  obtain ⟨halted, idle⟩ := there.halts goes c
  exact ⟨by rw [halted, same], idle⟩

/-- A workflow of one node: the run completes, and halts once it is resumed. -/
theorem sole_node_halts_when_resumed :
    let c : Canvas := ⟨[⟨⟨"w", "Sole", .server, [], [], [],
      [Node.ofKind "s" .start (.ofInt 0) (.ofInt 0)]⟩, none⟩], none, {}, {}⟩
    let reached := ((initial {} "00:00:00").follow [.start c "w"]).debugger.obey (.runPending c)
    let resumed := [.runPending c, .resume, .runPending c]
    (∃ visit ∈ reached.events.filterMap Event.visit?, visit.next = none) ∧
      (∀ event ∈ (reached.debugger.follow resumed).events, event.isStart = false) ∧
      (((reached.debugger.follow [.runPending c]).debugger.obey .resume).debugger.obey
        (.runPending c)).events = [.halted reached.debugger.execution "Execution finished."] := by
  intro c reached resumed
  have ends : ∃ visit ∈ reached.events.filterMap Event.visit?, visit.next = none := by
    decide +kernel
  have sameRun : ∀ event ∈ (reached.debugger.follow resumed).events, event.isStart = false := by
    decide +kernel
  obtain ⟨-, -, -, -, halts⟩ := halt_follows_letting_go {} "00:00:00" [.start c "w"] (.runPending c)
    resumed ends sameRun
  exact ⟨ends, sameRun, (halts [.runPending c] .resume [.runPending c] rfl (by decide +kernel) c).1⟩

end Stepflow.Debugger
