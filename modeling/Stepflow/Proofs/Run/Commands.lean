import Stepflow.Run.Debugger

/-!
# Commands

The calls of a debugger as data. Each comes with the canvas as it is at that moment, so nothing is
said about how canvases change from one call to the next.

* `RunState.Advance`, `RunState.advance_tick`: all that the tick of a running run can do;
* `Debugger.obey`: one call, which leaves the debugger and emits nothing when it is refused;
* `Debugger.Response`, `Debugger.response_obey`: all that a call can do;
* `Debugger.follow`: a list of calls, with all that they emit.
-/

namespace Stepflow

namespace RunState

theorem status_visit (s : RunState) (p : Pace) (clock : String) (n : Node) :
    (s.visit p clock n).1.status = s.status := by
  unfold visit log assign
  dsimp only
  split <;> rfl

/-- The tick of a run on `w`, case by case, with the result it has in each. -/
inductive Advance (s : RunState) (p : Pace) (clock : String) (w : Option Workflow) (mode : Mode) :
    TickResult → Prop where
  /-- The workflow is gone, or there is no current node. -/
  | lost (absent : w = none ∨ s.current = none) :
      Advance s p clock w mode (s.halt p "Execution finished.")
  | dangling {v : Workflow} {id : String} (live : w = some v) (position : s.current = some id)
      (unknown : v.node? id = none) :
      Advance s p clock w mode (s.halt p ("Error: Node " ++ id ++ " not found."))
  | breakpoint {v : Workflow} {id : String} {n next : Node} (live : w = some v)
      (position : s.current = some id) (found : v.node? id = some n)
      (arrival : (s.visit p clock n).2.next.bind v.node? = some next)
      (flagged : next.breakpoint = true) :
      Advance s p clock w mode
        ⟨{ (s.visit p clock n).1.log p.logCapacity.toNat ("Breakpoint hit at " ++ next.label) with
            status := .paused },
          .breakpoint next.id, some (s.visit p clock n).2⟩
  | single {v : Workflow} {id : String} {n : Node} (live : w = some v)
      (position : s.current = some id) (found : v.node? id = some n) (only : mode = .single)
      (clear : ∀ next, (s.visit p clock n).2.next.bind v.node? = some next →
        next.breakpoint = false) :
      Advance s p clock w mode
        ⟨{ (s.visit p clock n).1 with status := .paused }, .paused, some (s.visit p clock n).2⟩
  | proceed {v : Workflow} {id next : String} {n : Node} (live : w = some v)
      (position : s.current = some id) (found : v.node? id = some n) (on : mode = .continuous)
      (leads : (s.visit p clock n).2.next = some next)
      (clear : ∀ node, v.node? next = some node → node.breakpoint = false) :
      Advance s p clock w mode ⟨(s.visit p clock n).1, .proceed, some (s.visit p clock n).2⟩
  | finish {v : Workflow} {id : String} {n : Node} (live : w = some v)
      (position : s.current = some id) (found : v.node? id = some n) (on : mode = .continuous)
      (ends : (s.visit p clock n).2.next = none) :
      Advance s p clock w mode ⟨(s.visit p clock n).1, .finishing, some (s.visit p clock n).2⟩

theorem advance_tick {s : RunState} (p : Pace) (clock : String) (w : Option Workflow) (mode : Mode)
    (running : s.status = .running) : Advance s p clock w mode (s.tick p clock w mode) := by
  unfold tick
  rw [if_neg (by simp [running])]
  split
  · rename_i v id position
    split
    · rename_i unknown
      exact .dangling rfl position unknown
    · rename_i n found
      dsimp only
      split
      · rename_i next arrival
        obtain ⟨arrival, flagged⟩ := Option.filter_eq_some_iff.1 arrival
        exact .breakpoint rfl position found arrival flagged
      · rename_i clear
        have clear : ∀ next, (s.visit p clock n).2.next.bind v.node? = some next →
            next.breakpoint = false := by
          intro next arrival
          simpa [arrival, Option.filter] using clear
        split
        · rename_i only
          exact .single rfl position found only clear
        · rename_i mixed
          have on : mode = .continuous := by
            cases mode with
            | continuous => rfl
            | single => exact absurd rfl mixed
          split
          · rename_i onward
            obtain ⟨next, leads⟩ := Option.isSome_iff_exists.1 onward
            refine .proceed rfl position found on leads fun node arrival => ?_
            exact clear node (by rw [leads]; exact arrival)
          · rename_i stuck
            exact .finish rfl position found on (by simpa using stuck)
  · rename_i absent
    refine .lost (Classical.or_iff_not_imp_left.2 fun here => ?_)
    obtain ⟨v, live⟩ := Option.ne_none_iff_exists'.1 here
    cases position : s.current with
    | none => rfl
    | some id => exact (absent v id live position).elim

end RunState

/-- A call of a debugger, with the canvas that it sees. -/
inductive Command where
  | start (canvas : Canvas) (workflow : String)
  | stop
  | resume
  | step (canvas : Canvas) (workflow : String)
  | runPending (canvas : Canvas)

namespace Debugger

def obey (d : Debugger) : Command → Emission
  | .start c w => (d.start? c w).getD ⟨d, []⟩
  | .stop => d.stop
  | .resume => ⟨d.resume?.getD d, []⟩
  | .step c w => (d.step? c w).getD ⟨d, []⟩
  | .runPending c => (d.runPending? c).getD ⟨d, []⟩

/-- A run that a call has let go on. -/
def released (d : Debugger) (mode : Mode) : Debugger :=
  { d with state := { d.state with status := .running }, pending := some (.tick mode) }

section

variable {d : Debugger} {c : Canvas} {id : String} {e : Emission}

theorem obey_start_refused (refused : d.start? c id = none) : d.obey (.start c id) = ⟨d, []⟩ := by
  rw [obey, refused]
  rfl

theorem obey_start (begun : d.start? c id = some e) : d.obey (.start c id) = e := by
  rw [obey, begun]
  rfl

theorem obey_step_refused (idle : d.state.status = .idle) (refused : d.start? c id = none) :
    d.obey (.step c id) = ⟨d, []⟩ := by
  rw [obey, step?, if_pos idle, refused]
  rfl

/-- A step from idle begins a run that is paused at once. -/
theorem obey_step_idle (idle : d.state.status = .idle) (begun : d.start? c id = some e) :
    d.obey (.step c id) = ⟨{ e.debugger with
        state := { e.debugger.state with status := .paused }
        pending := none },
      e.events ++ [.paused e.debugger.execution e.debugger.state.current]⟩ := by
  rw [obey, step?, if_pos idle, begun]
  rfl

theorem obey_step_awake (awake : d.state.status ≠ .idle) (c : Canvas) (id : String) :
    d.obey (.step c id) = ⟨d.released .single, []⟩ := by
  rw [obey, step?, if_neg awake]
  rfl

theorem obey_resume_paused (paused : d.state.status = .paused) :
    d.obey .resume = ⟨d.released .continuous, []⟩ := by
  rw [obey, resume?, if_pos paused]
  rfl

theorem obey_resume_refused (unpaused : d.state.status ≠ .paused) : d.obey .resume = ⟨d, []⟩ := by
  rw [obey, resume?, if_neg unpaused]
  rfl

theorem obey_runPending_none (pending : d.pending = none) (c : Canvas) :
    d.obey (.runPending c) = ⟨d, []⟩ := by
  rw [obey, runPending?, pending]
  rfl

theorem obey_runPending_tick {mode : Mode} (pending : d.pending = some (.tick mode)) (c : Canvas) :
    d.obey (.runPending c) = d.runTick c mode := by
  rw [obey, runPending?, pending]
  rfl

theorem obey_runPending_completion (pending : d.pending = some .completion) (c : Canvas) :
    d.obey (.runPending c) = d.runCompletion := by
  rw [obey, runPending?, pending]
  rfl

end

/-- All that a call can do, case by case. -/
inductive Response (d : Debugger) : Command → Emission → Prop where
  | refused (command : Command) : Response d command ⟨d, []⟩
  | started {c : Canvas} {id : String} {e : Emission} (begun : d.start? c id = some e) :
      Response d (.start c id) e
  | stopped : Response d .stop d.stop
  | resumed (paused : d.state.status = .paused) :
      Response d .resume ⟨d.released .continuous, []⟩
  | entered {c : Canvas} {id : String} {e : Emission} (idle : d.state.status = .idle)
      (begun : d.start? c id = some e) :
      Response d (.step c id) ⟨{ e.debugger with
          state := { e.debugger.state with status := .paused }
          pending := none },
        e.events ++ [.paused e.debugger.execution e.debugger.state.current]⟩
  | stepped {c : Canvas} {id : String} (awake : d.state.status ≠ .idle) :
      Response d (.step c id) ⟨d.released .single, []⟩
  | ticked {c : Canvas} {mode : Mode} (pending : d.pending = some (.tick mode)) :
      Response d (.runPending c) (d.runTick c mode)
  | completed {c : Canvas} (pending : d.pending = some .completion) :
      Response d (.runPending c) d.runCompletion

theorem response_obey (d : Debugger) (command : Command) :
    d.Response command (d.obey command) := by
  cases command with
  | start c id =>
    cases begun : d.start? c id with
    | none =>
      rw [obey_start_refused begun]
      exact .refused _
    | some e =>
      rw [obey_start begun]
      exact .started begun
  | stop => exact .stopped
  | resume =>
    by_cases paused : d.state.status = .paused
    · rw [obey_resume_paused paused]
      exact .resumed paused
    · rw [obey_resume_refused paused]
      exact .refused _
  | step c id =>
    by_cases idle : d.state.status = .idle
    · cases begun : d.start? c id with
      | none =>
        rw [obey_step_refused idle begun]
        exact .refused _
      | some e =>
        rw [obey_step_idle idle begun]
        exact .entered idle begun
    · rw [obey_step_awake idle]
      exact .stepped idle
  | runPending c =>
    cases pending : d.pending with
    | none =>
      rw [obey_runPending_none pending]
      exact .refused _
    | some step =>
      cases step with
      | tick mode =>
        rw [obey_runPending_tick pending]
        exact .ticked pending
      | completion =>
        rw [obey_runPending_completion pending]
        exact .completed pending

def follow (d : Debugger) : List Command → Emission
  | [] => ⟨d, []⟩
  | command :: rest =>
    let first := d.obey command
    let others := first.debugger.follow rest
    ⟨others.debugger, first.events ++ others.events⟩

theorem follow_append (d : Debugger) (first rest : List Command) :
    d.follow (first ++ rest) =
      ⟨((d.follow first).debugger.follow rest).debugger,
        (d.follow first).events ++ ((d.follow first).debugger.follow rest).events⟩ := by
  induction first generalizing d with
  | nil => rfl
  | cons command others ih => simp only [List.cons_append, follow, ih, List.append_assoc]

/-- All that a start that is not refused does. -/
theorem start?_cases {d : Debugger} {c : Canvas} {id : String} {e : Emission}
    (h : d.start? c id = some e) :
    ∃ w start, c.workflow? id = some w ∧ w.start? = some start ∧
      ∃ s, RunState.begin? d.pace w = some s ∧ s.status = .running ∧ s.current = some start.id ∧
        s.values = .ofList ((w.inputs ++ w.locals).map fun p => (p.name, .null)) ∧
        e = ⟨{ d with
            workflow := some w.id
            runs := d.runs + 1
            state := s
            pending := some (.tick .continuous) },
          [.started w.id ("run-" ++ toString (d.runs + 1)) start.id]⟩ := by
  obtain ⟨w, found, h⟩ := Option.bind_eq_some_iff.1 h
  obtain ⟨s, begun, h⟩ := Option.bind_eq_some_iff.1 h
  obtain ⟨start, first, state⟩ := Option.bind_eq_some_iff.1 begun
  cases state
  cases h
  exact ⟨w, start, found, first, _, begun, rfl, rfl, rfl, rfl⟩

/-- What a debugger makes of a tick that led to `result`. -/
def report (d : Debugger) (result : TickResult) : Emission where
  debugger := { d with state := result.state, pending := Pending.after? result.continuation }
  events := (result.visit.toList.map fun v =>
      .nodeEvaluated d.execution v.node v.next v.message)
    ++ outcomeEvents d.execution result.state.current result.continuation

theorem runTick_cases {d : Debugger} (running : d.state.status = .running) (c : Canvas)
    (mode : Mode) :
    ∃ result, d.state.Advance d.pace d.clock (d.workflow.bind c.workflow?) mode result ∧
      d.runTick c mode = d.report result :=
  ⟨_, RunState.advance_tick _ _ _ _ running, rfl⟩

end Debugger

end Stepflow
