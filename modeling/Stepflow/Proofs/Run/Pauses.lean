import Stepflow.Proofs.Run.Walk

/-!
# Pauses at breakpoints

A run that arrives at a node with a breakpoint pauses before it. Where it pauses follows from what
it visits, and a run that is resumed every time goes on along its walk.

* `Workflow.flagged?`, `Workflow.hits`: the breakpoints on the way of visits;
* `obey_pauses`, `follow_pauses`: one call, and so any calls, pause at those;
* `rounds`, `rounds_walk`: run and resumed often enough, a run visits any part of its walk.
-/

namespace Stepflow

namespace Event

/-- The node with a breakpoint that a run has arrived at. -/
def hit? : Event → Option String
  | .breakpointHit _ node => some node
  | _ => none

theorem visits_of_sameRun {events : List Event} (sameRun : ∀ e ∈ events, e.isStart = false) :
    visits events = events.filterMap visit? := by
  have all := visits_append sameRun []
  rw [List.append_nil] at all
  exact all.trans (List.append_nil _)

end Event

namespace Workflow

/-- The name again, if it is that of a node with a breakpoint. -/
def flagged? (w : Workflow) (name : Option String) : Option String :=
  ((name.bind w.node?).filter (·.breakpoint)).map (·.id)

theorem flagged?_clear {w : Workflow} {name : Option String}
    (clear : ∀ n, name.bind w.node? = some n → n.breakpoint = false) : w.flagged? name = none := by
  unfold flagged?
  cases arrival : name.bind w.node? with
  | none => rfl
  | some n => simp [Option.filter, clear n arrival]

theorem flagged?_set {w : Workflow} {name : Option String} {n : Node}
    (arrival : name.bind w.node? = some n) (set : n.breakpoint = true) :
    w.flagged? name = some n.id := by
  simp [flagged?, arrival, Option.filter, set]

/-- The breakpoints on the way of the visits. -/
def hits (w : Workflow) (visits : List Visit) : List String :=
  visits.filterMap fun visit => w.flagged? visit.next

theorem hits_append (w : Workflow) (first rest : List Visit) :
    w.hits (first ++ rest) = w.hits first ++ w.hits rest := List.filterMap_append

end Workflow

namespace Debugger

variable {d : Debugger} {c : Canvas} {w : Workflow}

/-! Where a run pauses -/

theorem hits_runTick (running : d.state.status = .running)
    (live : d.workflow.bind c.workflow? = some w) (mode : Mode) :
    let events := (d.runTick c mode).events
    events.filterMap Event.hit? = w.hits (events.filterMap Event.visit?) := by
  obtain ⟨result, advance, ran⟩ := runTick_cases running c mode
  rw [ran]
  cases advance with
  | lost | dangling => rfl
  | breakpoint here position found arrival set =>
    cases live.symm.trans here
    have hit := Workflow.flagged?_set arrival set
    simp [report, outcomeEvents, List.filterMap_cons, Event.hit?, Event.visit?, Workflow.hits, hit]
  | single here position found only clear =>
    cases live.symm.trans here
    have miss := Workflow.flagged?_clear clear
    simp [report, outcomeEvents, List.filterMap_cons, Event.hit?, Event.visit?, Workflow.hits, miss]
  | proceed here position found on leads clear =>
    cases live.symm.trans here
    have miss : w.flagged? (d.state.visit d.pace d.clock _).2.next = none :=
      Workflow.flagged?_clear fun n arrival => clear n (by rw [leads] at arrival; exact arrival)
    simp [report, outcomeEvents, Event.hit?, Event.visit?, Workflow.hits, miss]
  | finish here position found on ends =>
    cases live.symm.trans here
    simp [report, outcomeEvents, Event.hit?, Event.visit?, Workflow.hits, ends, Workflow.flagged?]

/-- One call pauses at the breakpoints on its way, and leaves the variables alone where it halts. -/
theorem obey_pauses (underway : Underway c w d) (move : Move) :
    let e := d.obey (move.on c)
    e.events.filterMap Event.hit? = w.hits (e.events.filterMap Event.visit?) ∧
      (e.debugger.state.status = .idle → e.debugger.state.values = d.state.values) := by
  cases move with
  | resume =>
    by_cases paused : d.state.status = .paused
    · simp [Move.on, obey, resume?, paused, Workflow.hits]
    · simp [Move.on, obey, resume?, paused, Workflow.hits]
  | step id => simp [Move.on, obey, step?, underway.awake, Workflow.hits]
  | runPending =>
    cases pending : d.pending with
    | none => simp [Move.on, obey, runPending?, pending, Workflow.hits]
    | some step =>
      have running := underway.fit.running pending
      simp only [Move.on, obey, runPending?, pending, Option.map_some, Option.getD_some]
      cases step with
      | tick mode =>
        refine ⟨hits_runTick running underway.live mode, ?_⟩
        intro idle
        rcases runTick_strides running underway.live mode with
          ⟨-, -, -, -, awake⟩ | ⟨-, -, -, values⟩
        · exact absurd idle awake
        · exact values
      | completion =>
        simp [runCompletion, running, List.filterMap_cons, Event.hit?, Event.visit?, Workflow.hits,
          RunState.complete]

/-- **A run pauses at the breakpoints on its way**, in order, and its variables are those of its
walk, also once it has halted. -/
theorem follow_pauses (underway : Underway c w d) (moves : List Move)
    (sameRun : ∀ event ∈ (d.follow (moves.map (·.on c))).events, event.isStart = false) :
    let run := d.follow (moves.map (·.on c))
    let visits := run.events.filterMap Event.visit?
    run.events.filterMap Event.hit? = w.hits visits ∧
      run.debugger.state.values = (w.walk visits.length d.state.position).2.values := by
  induction moves generalizing d with
  | nil => exact ⟨rfl, rfl⟩
  | cons move rest ih =>
    obtain ⟨first, halted⟩ := obey_pauses underway move
    simp only [List.map_cons, follow, List.filterMap_append, Workflow.hits_append] at sameRun ⊢
    have others : ∀ event ∈ ((d.obey (move.on c)).debugger.follow
        (rest.map (·.on c))).events, event.isStart = false :=
      fun event member => sameRun event (List.mem_append_right _ member)
    rw [first]
    cases stage_obey underway move with
    | stays quiet _ workflow position awake =>
      obtain ⟨hits, values⟩ := ih (underway.stays workflow awake) others
      rw [quiet, List.nil_append, hits, ← position]
      exact ⟨rfl, values⟩
    | strides visited _ workflow stride awake =>
      obtain ⟨hits, values⟩ := ih (underway.stays workflow awake) others
      rw [visited, hits, List.singleton_append, List.length_cons, Workflow.walk, stride]
      exact ⟨rfl, values⟩
    | halts only idle =>
      have fit := coherent_obey underway.fit (move.on c)
      rcases follow_idle fit idle c rest with ⟨still, silent⟩ | ⟨_, _, _, _, head⟩
      · rw [still, silent, only]
        exact ⟨rfl, halted idle⟩
      · rw [head] at others
        exact absurd (others _ (.head _)) (by simp [Event.isStart])

/-! Run and resumed -/

/-- Run what is pending and resume, `n` times. -/
def rounds (n : Nat) : List Move := (List.replicate n [Move.runPending, .resume]).flatten

/-- Calls that make `visits` and leave the run at a position, under way. -/
structure Goes (c : Canvas) (w : Workflow) (visits : List Visit) (at_ : Position)
    (run : Emission) : Prop where
  visited : run.events.filterMap Event.visit? = visits
  sameRun : ∀ event ∈ run.events, event.isStart = false
  underway : Underway c w run.debugger
  position : run.debugger.state.position = at_

theorem Goes.then {first rest : Emission} {visits others : List Visit} {at_ next : Position}
    (now : Goes c w visits at_ first) (later : Goes c w others next rest) :
    Goes c w (visits ++ others) next ⟨rest.debugger, first.events ++ rest.events⟩ where
  visited := by rw [List.filterMap_append, now.visited, later.visited]
  sameRun event member := (List.mem_append.1 member).elim (now.sameRun event) (later.sameRun event)
  underway := later.underway
  position := later.position

theorem Underway.rest (underway : Underway c w d) : Goes c w [] d.state.position ⟨d, []⟩ :=
  ⟨rfl, by simp, underway, rfl⟩

/-- A run that is resumed is running, also if it was before. -/
theorem Underway.resume (underway : Underway c w d) :
    Goes c w [] d.state.position (d.obey .resume) ∧
      (d.obey .resume).debugger.state.status = .running := by
  cases status : d.state.status with
  | idle => exact absurd status underway.awake
  | running =>
    have refused : d.obey .resume = ⟨d, []⟩ := by simp [obey, resume?, status]
    rw [refused]
    exact ⟨underway.rest, status⟩
  | paused =>
    have resumed : d.resume? = some { d with
        state := { d.state with status := .running }
        pending := some (.tick .continuous) } := if_pos status
    have fit := coherent_resume? resumed
    rw [obey, resumed]
    exact ⟨⟨rfl, by simp, ⟨fit, underway.live, by simp⟩, rfl⟩, rfl⟩

theorem Underway.tick (underway : Underway c w d) {mode : Mode}
    (pending : d.pending = some (.tick mode)) {visit : Visit} {next : Position}
    (stride : w.stride? d.state.position = some (visit, next)) :
    Goes c w [visit] next (d.obey (.runPending c)) := by
  have running := underway.fit.running pending
  have ran : d.obey (.runPending c) = d.runTick c mode := by
    simp [obey, runPending?, pending]
  rw [ran]
  rcases runTick_strides running underway.live mode with
    ⟨visited, taken, only, sameRun, awake⟩ | ⟨stuck, -⟩
  · cases stride.symm.trans taken
    exact ⟨only, sameRun, ⟨coherent_runTick running c mode, underway.live, awake⟩, rfl⟩
  · cases stride.symm.trans stuck

theorem rounds_walk_running (underway : Underway c w d) (running : d.state.status = .running)
    (k : Nat) :
    ∃ n, Goes c w (w.walk k d.state.position).1 (w.walk k d.state.position).2
      (d.follow ((rounds n).map (·.on c))) := by
  -- one round for each step of the walk: a tick, and a resume in case it paused
  induction k generalizing d with
  | zero => exact ⟨0, underway.rest⟩
  | succ k ih =>
    cases stride : w.stride? d.state.position with
    | none =>
      rw [Workflow.walk, stride]
      exact ⟨0, underway.rest⟩
    | some step =>
      obtain ⟨visit, next⟩ := step
      simp only [Workflow.walk, stride]
      obtain ⟨step, pending⟩ := Option.isSome_iff_exists.1 (underway.fit.scheduled.2 running)
      cases step with
      | tick mode =>
        have ran := underway.tick pending stride
        obtain ⟨resumed, running⟩ := ran.underway.resume
        obtain ⟨n, others⟩ := ih resumed.underway running
        rw [resumed.position, ran.position] at others
        exact ⟨n + 1, ran.then (resumed.then others)⟩
      | completion =>
        have ended := underway.fit.completing pending
        simp [Workflow.stride?, RunState.position, ended] at stride

/-- **Run and resumed often enough, a run visits any part of its walk.** -/
theorem rounds_walk (underway : Underway c w d) (k : Nat) :
    ∃ n, Goes c w (w.walk k d.state.position).1 (w.walk k d.state.position).2
      (d.follow ((rounds n).map (·.on c))) := by
  cases status : d.state.status with
  | idle => exact absurd status underway.awake
  | running => exact rounds_walk_running underway status k
  | paused =>
    -- nothing is pending, so the first round only resumes
    have nothing : d.pending = none := underway.fit.unscheduled (by simp [status])
    have waits : d.obey (.runPending c) = ⟨d, []⟩ := by simp [obey, runPending?, nothing]
    have waited : Goes c w [] d.state.position (d.obey (.runPending c)) := by
      rw [waits]
      exact underway.rest
    obtain ⟨resumed, running⟩ := waited.underway.resume
    obtain ⟨n, others⟩ := rounds_walk_running resumed.underway running k
    rw [resumed.position, waited.position] at others
    exact ⟨n + 1, waited.then (resumed.then others)⟩

end Debugger

end Stepflow
