import Stepflow.Proofs.Run.Commands

/-!
# Phases of a run

Status, current node and pending step are kept apart, and every call of a debugger may find them
in any phase. `Debugger.Coherent` says how they fit together; every call keeps it, whatever
happened to the canvas in between.

`phases_fit` is the whole invariant, with what it rules out: no tick is skipped, no completion is
discarded, and no pending step runs in silence.
-/

namespace Stepflow.Debugger

structure Coherent (d : Debugger) : Prop where
  scheduled : d.pending.isSome = true ↔ d.state.status = .running
  completing : d.pending = some .completion → d.state.current = none
  idle : d.state.status = .idle → d.state.current = none

theorem Coherent.running {d : Debugger} (h : d.Coherent) {step : Pending}
    (pending : d.pending = some step) : d.state.status = .running :=
  h.scheduled.1 (by rw [pending]; rfl)

theorem Coherent.unscheduled {d : Debugger} (h : d.Coherent)
    (still : d.state.status ≠ .running) : d.pending = none := by
  have scheduled := h.scheduled
  simpa [still] using scheduled

theorem coherent_initial (pace : Pace) (clock : String) : (initial pace clock).Coherent where
  scheduled := by simp [initial, RunState.idle]
  completing := by simp [initial]
  idle := fun _ => rfl

theorem coherent_start? {d : Debugger} {c : Canvas} {id : String} {e : Emission}
    (h : d.start? c id = some e) : e.debugger.Coherent := by
  obtain ⟨w, start, -, -, s, -, running, -, -, rfl⟩ := start?_cases h
  exact ⟨by simp [running], by simp, by simp [running]⟩

theorem coherent_stop (d : Debugger) : d.stop.debugger.Coherent where
  scheduled := by simp [stop, RunState.idle]
  completing := by simp [stop]
  idle := fun _ => rfl

theorem coherent_resume? {d d' : Debugger} (h : d.resume? = some d') : d'.Coherent := by
  unfold resume? at h
  split at h
  · cases h
    exact ⟨by simp, by simp, by simp⟩
  · cases h

theorem coherent_step? {d : Debugger} {c : Canvas} {id : String} {e : Emission}
    (h : d.step? c id = some e) : e.debugger.Coherent := by
  unfold step? at h
  split at h
  · obtain ⟨begun, -, h⟩ := Option.bind_eq_some_iff.1 h
    cases h
    exact ⟨by simp, by simp, by simp⟩
  · cases h
    exact ⟨by simp, by simp, by simp⟩

/-- A tick leaves a step pending only where the run goes on. -/
theorem coherent_runTick {d : Debugger} (running : d.state.status = .running) (c : Canvas)
    (mode : Mode) : (d.runTick c mode).debugger.Coherent := by
  have visited (n : Node) : (d.state.visit d.pace d.clock n).1.status = .running :=
    (RunState.status_visit d.state d.pace d.clock n).trans running
  have positioned (n : Node) : (d.state.visit d.pace d.clock n).1.current
      = (d.state.visit d.pace d.clock n).2.next := rfl
  obtain ⟨result, advance, ran⟩ := runTick_cases running c mode
  rw [ran]
  cases advance with
  | lost | dangling =>
    exact ⟨by simp [report, Pending.after?, RunState.halt],
      by simp [report, Pending.after?, RunState.halt], fun _ => rfl⟩
  | breakpoint | single =>
    exact ⟨by simp [report, Pending.after?], by simp [report, Pending.after?], by simp [report]⟩
  | proceed =>
    exact ⟨by simp [report, Pending.after?, visited], by simp [report, Pending.after?],
      by simp [report, visited]⟩
  | finish _ _ _ _ ends =>
    exact ⟨by simp [report, Pending.after?, visited],
      fun _ => by rw [report, positioned, ends], by simp [report, visited]⟩

theorem coherent_runCompletion {d : Debugger} (running : d.state.status = .running) :
    d.runCompletion.debugger.Coherent := by
  rw [runCompletion, if_pos running]
  exact ⟨by simp [RunState.complete, running], by simp,
    fun _ => by simp [RunState.complete, running]⟩

theorem coherent_runPending? {d : Debugger} (h : d.Coherent) {c : Canvas} {e : Emission}
    (ran : d.runPending? c = some e) : e.debugger.Coherent := by
  obtain ⟨step, pending, rfl⟩ := Option.map_eq_some_iff.1 ran
  cases step with
  | tick mode => exact coherent_runTick (h.running pending) c mode
  | completion => exact coherent_runCompletion (h.running pending)

theorem coherent_obey {d : Debugger} (h : d.Coherent) (command : Command) :
    (d.obey command).debugger.Coherent := by
  -- a refused call leaves the debugger as it was
  cases command with
  | start c id =>
    cases started : d.start? c id with
    | none => simpa [obey, started] using h
    | some e => simpa [obey, started] using coherent_start? started
  | stop => exact coherent_stop d
  | resume =>
    cases resumed : d.resume? with
    | none => simpa [obey, resumed] using h
    | some d' => simpa [obey, resumed] using coherent_resume? resumed
  | step c id =>
    cases stepped : d.step? c id with
    | none => simpa [obey, stepped] using h
    | some e => simpa [obey, stepped] using coherent_step? stepped
  | runPending c =>
    cases ran : d.runPending? c with
    | none => simpa [obey, ran] using h
    | some e => simpa [obey, ran] using coherent_runPending? h ran

theorem coherent_follow {d : Debugger} (h : d.Coherent) (commands : List Command) :
    (d.follow commands).debugger.Coherent := by
  induction commands generalizing d with
  | nil => exact h
  | cons command rest ih => exact ih (coherent_obey h command)

/-- Whatever is pending says something when it runs. -/
theorem events_runPending? {d : Debugger} (h : d.Coherent) {c : Canvas} {e : Emission}
    (ran : d.runPending? c = some e) : e.events ≠ [] := by
  obtain ⟨step, pending, rfl⟩ := Option.map_eq_some_iff.1 ran
  have running := h.running pending
  cases step with
  | tick mode =>
    obtain ⟨result, advance, report⟩ := runTick_cases running c mode
    change (d.runTick c mode).events ≠ []
    rw [report]
    cases advance <;> simp [Debugger.report, RunState.halt, outcomeEvents]
  | completion => simp [runCompletion, running]

/-- Before the first start no call does anything. -/
theorem obey_initial (pace : Pace) (clock : String) (command : Command) :
    (initial pace clock).obey command = ⟨initial pace clock, []⟩ ∨
      ∃ workflow execution node,
        .started workflow execution node ∈ ((initial pace clock).obey command).events := by
  have begins {c : Canvas} {id : String} {e : Emission}
      (h : (initial pace clock).start? c id = some e) :
      ∃ workflow execution node, .started workflow execution node ∈ e.events := by
    obtain ⟨w, start, -, -, s, -, -, -, -, rfl⟩ := start?_cases h
    exact ⟨_, _, _, .head _⟩
  cases command with
  | stop | resume | runPending => exact .inl rfl
  | start c id =>
    cases started : (initial pace clock).start? c id with
    | none => exact .inl (by simp [obey, started])
    | some e => exact .inr (by simpa [obey, started] using begins started)
  | step c id =>
    have idle : (initial pace clock).step? c id = (do
        let begun ← (initial pace clock).start? c id
        return ⟨{ begun.debugger with
            state := { begun.debugger.state with status := .paused }
            pending := none },
          begun.events ++ [.paused begun.debugger.execution begun.debugger.state.current]⟩) := rfl
    cases started : (initial pace clock).start? c id with
    | none => exact .inl (by simp [obey, idle, started])
    | some e =>
      obtain ⟨workflow, execution, node, member⟩ := begins started
      exact .inr ⟨workflow, execution, node, by simp [obey, idle, started, member]⟩

theorem follow_initial {pace : Pace} {clock : String} {commands : List Command}
    (unstarted : ∀ workflow execution node,
      .started workflow execution node ∉ ((initial pace clock).follow commands).events) :
    ((initial pace clock).follow commands).debugger = initial pace clock := by
  induction commands with
  | nil => rfl
  | cons command rest ih =>
    have apart : ∀ workflow execution node,
        .started workflow execution node ∉ ((initial pace clock).obey command).events := by
      intro workflow execution node member
      exact unstarted workflow execution node (List.mem_append_left _ member)
    rcases obey_initial pace clock command with still | ⟨workflow, execution, node, member⟩
    · simp only [follow, still, List.nil_append] at unstarted ⊢
      exact ih unstarted
    · exact absurd member (apart workflow execution node)

/-- **The phases of a run fit together**, after any calls on any canvases. A step is pending
exactly while the run is running; completion waits at no node, and an idle debugger is at none;
one that has started nothing is as it was created. So a pending tick finds the run running, a
pending completion completes it, and either is reported. -/
theorem phases_fit (pace : Pace) (clock : String) (commands : List Command) :
    let e := (initial pace clock).follow commands
    let d := e.debugger
    (d.pending.isSome = true ↔ d.state.status = .running) ∧
    (d.pending = some .completion → d.state.current = none) ∧
    (d.state.status = .idle → d.state.current = none) ∧
    ((∀ workflow execution node, .started workflow execution node ∉ e.events) →
      d = initial pace clock) ∧
    (∀ mode w, d.pending = some (.tick mode) →
      (d.state.tick d.pace d.clock w mode).continuation ≠ .skipped) ∧
    (d.pending = some .completion → d.runCompletion.events = [.completed d.execution]) ∧
    ∀ c ran, d.runPending? c = some ran → ran.events ≠ [] := by
  intro e d
  have fit : d.Coherent := coherent_follow (coherent_initial pace clock) commands
  refine ⟨fit.scheduled, fit.completing, fit.idle, follow_initial, ?_, ?_, ?_⟩
  · intro mode w pending
    have advance := RunState.advance_tick d.pace d.clock w mode (fit.running pending)
    generalize d.state.tick d.pace d.clock w mode = result at advance ⊢
    cases advance <;> simp [RunState.halt]
  · intro pending
    simp [runCompletion, fit.running pending]
  · exact fun c ran h => events_runPending? fit h

end Stepflow.Debugger
