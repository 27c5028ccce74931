import Stepflow.Proofs.Run.Phases

/-!
# The walk of a run

A workflow that is not edited determines one walk through its nodes, whatever calls advance the
run: continuous ticks, single steps and resumes from breakpoints in any order.

* `Workflow.walk`: the reference walk, on positions, without a debugger;
* `Workflow.outline`, `walk_outline`: all that the walk depends on;
* `Stage`, `stage_obey`: what one call makes of a run at a position;
* `runs_walk`: a run visits a prefix of the walk and stands where it leads.
-/

namespace Stepflow

open Json

namespace Node

/-- What becomes of a visit. A node that cannot be evaluated leads to its first connection, with
the failure as its message. -/
def outcome (n : Node) (values : KeyMap Value) : Evaluation :=
  match n.evaluate values with
  | .ok evaluation => evaluation
  | .error failure => n.pass ("Error: " ++ failure.message)

/-- A node without what only a canvas shows. -/
def core (n : Node) : Node :=
  { n with
    label := ""
    x := .finite (.zero false)
    y := .finite (.zero false)
    ports := .empty
    breakpoint := false }

@[simp] theorem core_id (n : Node) : n.core.id = n.id := rfl

theorem outcome_core (n : Node) (values : KeyMap Value) :
    n.core.outcome values = n.outcome values := rfl

end Node

/-- Where a walk stands: at a node, unless it has ended, with the values of its variables. -/
structure Position where
  current : Option String
  values : KeyMap Value

def RunState.position (s : RunState) : Position := ⟨s.current, s.values⟩

/-- The position that an evaluation leads to. -/
def Position.take (at_ : Position) (e : Evaluation) : Position where
  current := e.next
  values := match e.update with
    | some (name, value) => at_.values.insert name value
    | none => at_.values

namespace Workflow

/-- At the first start node, with every input and local undefined. -/
def origin (w : Workflow) : Position where
  current := w.start?.map (·.id)
  values := .ofList ((w.inputs ++ w.locals).map fun p => (p.name, .null))

/-- One step of the walk. There is none where it has ended, and none from an id without a node. -/
def stride? (w : Workflow) (at_ : Position) : Option (Visit × Position) := do
  let n ← at_.current.bind w.node?
  let outcome := n.outcome at_.values
  return (⟨n.id, outcome.next, outcome.message⟩, at_.take outcome)

/-- The visits of up to `k` steps, and where they lead. -/
def walk (w : Workflow) : Nat → Position → List Visit × Position
  | 0, at_ => ([], at_)
  | k + 1, at_ =>
    match w.stride? at_ with
    | some (visit, next) => (visit :: (w.walk k next).1, (w.walk k next).2)
    | none => ([], at_)

/-- What a walk depends on: where it begins, which variables there are, and of every node its id,
kind, connections and config. -/
structure Outline where
  start : Option String
  names : List String
  nodes : List Node

def outline (w : Workflow) : Outline where
  start := w.start?.map (·.id)
  names := (w.inputs ++ w.locals).map (·.name)
  nodes := w.nodes.map Node.core

theorem core_node? (w : Workflow) (id : String) :
    (w.node? id).map Node.core = w.outline.nodes.find? (·.id = id) := by
  unfold node? outline
  rw [List.find?_map]
  rfl

theorem origin_outline {w v : Workflow} (same : v.outline = w.outline) : v.origin = w.origin := by
  have start : v.start?.map (·.id) = w.start?.map (·.id) := congrArg Outline.start same
  have names : (v.inputs ++ v.locals).map (·.name) = (w.inputs ++ w.locals).map (·.name) :=
    congrArg Outline.names same
  have entries (u : Workflow) : (u.inputs ++ u.locals).map (fun p => (p.name, Value.null))
      = ((u.inputs ++ u.locals).map (·.name)).map fun name => (name, Value.null) := by
    rw [List.map_map]; rfl
  unfold origin
  rw [start, entries v, names, ← entries w]

theorem stride?_outline {w v : Workflow} (same : v.outline = w.outline) (at_ : Position) :
    v.stride? at_ = w.stride? at_ := by
  -- only the core of the node counts, and it is the same in both
  have core (u : Workflow) : u.stride? at_ = do
      let n ← at_.current.bind fun id => u.outline.nodes.find? (·.id = id)
      let outcome := n.outcome at_.values
      return (⟨n.id, outcome.next, outcome.message⟩, at_.take outcome) := by
    cases position : at_.current with
    | none => simp [stride?, position]
    | some id =>
      cases found : u.node? id with
      | none => simp [stride?, position, found, ← core_node?]
      | some n => simp [stride?, position, found, ← core_node?, Node.outcome_core]
  rw [core v, core w, same]

theorem walk_outline {w v : Workflow} (same : v.outline = w.outline) (k : Nat) (at_ : Position) :
    v.walk k at_ = w.walk k at_ := by
  induction k generalizing at_ with
  | zero => rfl
  | succ k ih => simp only [walk, stride?_outline same, ih]

end Workflow

theorem RunState.values_assign (s : RunState) (update : Option (String × Value)) :
    (s.assign update).values = match update with
      | some (name, value) => s.values.insert name value
      | none => s.values := by
  cases update <;> rfl

theorem RunState.position_visit (s : RunState) (p : Pace) (clock : String) (n : Node) :
    (s.visit p clock n).1.position = s.position.take (n.outcome s.values) := by
  unfold visit position Position.take log Node.outcome
  exact congrArg (Position.mk _) (values_assign s _)

theorem Workflow.stride?_visit {w : Workflow} {s : RunState} (p : Pace) (clock : String)
    {id : String} {n : Node} (position : s.current = some id) (found : w.node? id = some n) :
    w.stride? s.position = some ((s.visit p clock n).2, (s.visit p clock n).1.position) := by
  rw [RunState.position_visit]
  simp only [stride?, RunState.position, position, Option.bind_some, found]
  rfl

/-! Runs -/

namespace Event

def isStart : Event → Bool
  | .started .. => true
  | _ => false

def isHalt : Event → Bool
  | .halted .. => true
  | _ => false

def visit? : Event → Option Visit
  | .nodeEvaluated _ node next message => some ⟨node, next, message⟩
  | _ => none

/-- The visits before the next start. -/
def visits (events : List Event) : List Visit :=
  (events.takeWhile (!·.isStart)).filterMap visit?

theorem visits_append {first : List Event} (sameRun : ∀ e ∈ first, e.isStart = false)
    (rest : List Event) : visits (first ++ rest) = first.filterMap visit? ++ visits rest := by
  unfold visits
  rw [List.takeWhile_append_of_pos (by simpa using sameRun), List.filterMap_append]

end Event

/-- The calls that advance a run. A step from idle begins a run of the workflow it names. -/
inductive Move where
  | runPending
  | resume
  | step (workflow : String)

def Move.on (c : Canvas) : Move → Command
  | .runPending => .runPending c
  | .resume => .resume
  | .step workflow => .step c workflow

namespace Debugger

/-- A run on `w` that has begun and not halted. -/
structure Underway (c : Canvas) (w : Workflow) (d : Debugger) : Prop where
  fit : d.Coherent
  live : d.workflow.bind c.workflow? = some w
  awake : d.state.status ≠ .idle

/-- What a call makes of a run on `w` that is not idle. -/
inductive Stage (w : Workflow) (d : Debugger) (e : Emission) : Prop where
  /-- It stays where it is. -/
  | stays (quiet : e.events.filterMap Event.visit? = [])
      (sameRun : ∀ event ∈ e.events, event.isStart = false)
      (workflow : e.debugger.workflow = d.workflow)
      (position : e.debugger.state.position = d.state.position)
      (awake : e.debugger.state.status ≠ .idle)
  | strides {visit : Visit} (visited : e.events.filterMap Event.visit? = [visit])
      (sameRun : ∀ event ∈ e.events, event.isStart = false)
      (workflow : e.debugger.workflow = d.workflow)
      (stride : w.stride? d.state.position = some (visit, e.debugger.state.position))
      (awake : e.debugger.state.status ≠ .idle)
  /-- It has nowhere to go. -/
  | halts {reason : String} (only : e.events = [.halted d.execution reason])
      (idle : e.debugger.state.status = .idle)

/-- A tick takes one stride of the walk, or halts where there is none. -/
theorem runTick_strides {d : Debugger} {c : Canvas} {w : Workflow}
    (running : d.state.status = .running) (live : d.workflow.bind c.workflow? = some w)
    (mode : Mode) :
    let e := d.runTick c mode
    (∃ visit, w.stride? d.state.position = some (visit, e.debugger.state.position) ∧
      e.events.filterMap Event.visit? = [visit] ∧ (∀ event ∈ e.events, event.isStart = false) ∧
      e.debugger.state.status ≠ .idle) ∨
    w.stride? d.state.position = none ∧ (∃ reason, e.events = [.halted d.execution reason]) ∧
      e.debugger.state.status = .idle ∧ e.debugger.state.values = d.state.values := by
  have visited (n : Node) : (d.state.visit d.pace d.clock n).1.status = .running :=
    (RunState.status_visit d.state d.pace d.clock n).trans running
  obtain ⟨result, advance, ran⟩ := runTick_cases running c mode
  rw [ran]
  cases advance with
  | lost absent =>
    have nowhere : d.state.current = none := absent.resolve_left (by simp [live])
    have stuck : w.stride? d.state.position = none := by
      simp [Workflow.stride?, RunState.position, nowhere]
    exact .inr ⟨stuck, ⟨_, rfl⟩, rfl, rfl⟩
  | dangling here position unknown =>
    cases live.symm.trans here
    have stuck : w.stride? d.state.position = none := by
      simp [Workflow.stride?, RunState.position, position, unknown]
    exact .inr ⟨stuck, ⟨_, rfl⟩, rfl, rfl⟩
  | breakpoint here position found | single here position found
  | proceed here position found | finish here position found =>
    cases live.symm.trans here
    exact .inl ⟨_, Workflow.stride?_visit d.pace d.clock position found,
      by simp [report, Event.visit?, outcomeEvents],
      by simp [report, Event.isStart, outcomeEvents], by simp [report, visited]⟩

theorem stage_runTick {d : Debugger} {c : Canvas} {w : Workflow}
    (running : d.state.status = .running) (live : d.workflow.bind c.workflow? = some w)
    (mode : Mode) : Stage w d (d.runTick c mode) := by
  rcases runTick_strides running live mode with
    ⟨visit, stride, visited, sameRun, awake⟩ | ⟨-, ⟨reason, only⟩, idle, -⟩
  · exact .strides visited sameRun rfl stride awake
  · exact .halts only idle

theorem stage_runPending? {d : Debugger} {c : Canvas} {w : Workflow} {e : Emission}
    (underway : Underway c w d) (ran : d.runPending? c = some e) : Stage w d e := by
  obtain ⟨step, pending, rfl⟩ := Option.map_eq_some_iff.1 ran
  have running := underway.fit.running pending
  cases step with
  | tick mode => exact stage_runTick running underway.live mode
  | completion =>
    refine .stays ?_ ?_ ?_ ?_ ?_
    · simp [runCompletion, running, Event.visit?]
    · simp [runCompletion, running, Event.isStart]
    · simp [runCompletion, running]
    · have ended := underway.fit.completing pending
      simp [runCompletion, running, RunState.complete, RunState.log, RunState.position, ended]
    · simp [runCompletion, running, RunState.complete]

theorem stage_step? {d : Debugger} {c : Canvas} {w : Workflow} {id : String} {e : Emission}
    (awake : d.state.status ≠ .idle) (stepped : d.step? c id = some e) : Stage w d e := by
  rw [step?, if_neg awake] at stepped
  cases stepped
  exact .stays rfl (by simp) rfl rfl (by simp)

theorem stage_obey {d : Debugger} {c : Canvas} {w : Workflow} (underway : Underway c w d)
    (move : Move) : Stage w d (d.obey (move.on c)) := by
  have refused : Stage w d ⟨d, []⟩ := .stays rfl (by simp) rfl rfl underway.awake
  cases move with
  | runPending =>
    cases ran : d.runPending? c with
    | none => simpa [Move.on, obey, ran] using refused
    | some e => simpa [Move.on, obey, ran] using stage_runPending? underway ran
  | resume =>
    by_cases paused : d.state.status = .paused
    · simp only [Move.on, obey, resume?, if_pos paused]
      exact .stays rfl (by simp) rfl rfl (by simp)
    · simp only [Move.on, obey, resume?, if_neg paused]
      exact refused
  | step id =>
    cases stepped : d.step? c id with
    | none => simpa [Move.on, obey, stepped] using refused
    | some e => simpa [Move.on, obey, stepped] using stage_step? underway.awake stepped

/-- Unless a call halts it, a run stays under way. -/
theorem Underway.stays {d : Debugger} {c : Canvas} {w : Workflow} (underway : Underway c w d)
    {move : Move} (workflow : (d.obey (move.on c)).debugger.workflow = d.workflow)
    (awake : (d.obey (move.on c)).debugger.state.status ≠ .idle) :
    Underway c w (d.obey (move.on c)).debugger :=
  ⟨coherent_obey underway.fit (move.on c), by rw [workflow]; exact underway.live, awake⟩

theorem head_step?_idle {d : Debugger} {c : Canvas} {id : String} {e : Emission}
    (idle : d.state.status = .idle) (stepped : d.step? c id = some e) :
    ∃ workflow execution node rest, e.events = .started workflow execution node :: rest := by
  unfold step? at stepped
  rw [if_pos idle] at stepped
  obtain ⟨begun, started, stepped⟩ := Option.bind_eq_some_iff.1 stepped
  cases stepped
  obtain ⟨-, -, -, -, -, -, -, -, -, rfl⟩ := start?_cases started
  exact ⟨_, _, _, _, rfl⟩

/-- Nothing is done from idle before a run begins. -/
theorem follow_idle {d : Debugger} (fit : d.Coherent) (idle : d.state.status = .idle) (c : Canvas)
    (moves : List Move) :
    let run := d.follow (moves.map (·.on c))
    run.debugger = d ∧ run.events = [] ∨
      ∃ workflow execution node rest, run.events = .started workflow execution node :: rest := by
  have nothing : d.pending = none := fit.unscheduled (by simp [idle])
  induction moves with
  | nil => exact .inl ⟨rfl, rfl⟩
  | cons move rest ih =>
    cases move with
    | runPending => simpa [follow, Move.on, obey, runPending?, nothing] using ih
    | resume => simpa [follow, Move.on, obey, resume?, idle] using ih
    | step id =>
      cases stepped : d.step? c id with
      | none => simpa [follow, Move.on, obey, stepped] using ih
      | some e =>
        obtain ⟨workflow, execution, node, others, head⟩ := head_step?_idle idle stepped
        exact .inr ⟨workflow, execution, node, _, by
          simp only [List.map_cons, follow, Move.on, obey, stepped, Option.getD_some, head]
          rfl⟩

/-- Nothing is visited from idle before a run begins. -/
theorem visits_follow_idle {d : Debugger} (fit : d.Coherent) (idle : d.state.status = .idle)
    (c : Canvas) (moves : List Move) :
    Event.visits (d.follow (moves.map (·.on c))).events = [] := by
  rcases follow_idle fit idle c moves with ⟨-, silent⟩ | ⟨_, _, _, _, head⟩
  · rw [silent]
    rfl
  · rw [head]
    rfl

/-- A run on `w` visits what its walk visits from where the run stands. Unless it halts, it then
stands where the walk leads. -/
theorem follow_walk {d : Debugger} {c : Canvas} {w : Workflow} (underway : Underway c w d)
    (moves : List Move) :
    let run := d.follow (moves.map (·.on c))
    let visits := Event.visits run.events
    visits = (w.walk visits.length d.state.position).1 ∧
    ((∀ event ∈ run.events, event.isHalt = false) →
      run.debugger.state.position = (w.walk visits.length d.state.position).2) := by
  induction moves generalizing d with
  | nil => exact ⟨rfl, fun _ => rfl⟩
  | cons move rest ih =>
    simp only [List.map_cons, follow]
    cases stage_obey underway move with
    | stays quiet sameRun workflow position awake =>
      have others := ih (underway.stays workflow awake)
      rw [Event.visits_append sameRun, quiet, List.nil_append, ← position]
      exact ⟨others.1, fun apart => others.2 fun event member =>
        apart event (List.mem_append_right _ member)⟩
    | strides visited sameRun workflow stride awake =>
      have others := ih (underway.stays workflow awake)
      rw [Event.visits_append sameRun, visited]
      simp only [List.singleton_append, List.length_cons, Workflow.walk, stride]
      exact ⟨congrArg _ others.1, fun apart => others.2 fun event member =>
        apart event (List.mem_append_right _ member)⟩
    | halts only idle =>
      have ended := visits_follow_idle (coherent_obey underway.fit (move.on c)) idle c rest
      rw [Event.visits_append (by simp [only, Event.isStart]), ended, only]
      exact ⟨rfl, fun apart => absurd (apart _ (.head _)) (by simp [Event.isHalt])⟩

/-- A run of the workflow `id` begins, continuously or with a single step. -/
def Begins (d : Debugger) (c : Canvas) (id : String) (e : Emission) : Prop :=
  d.start? c id = some e ∨ d.state.status = .idle ∧ d.step? c id = some e

/-- What begins a run leaves it at the origin of its walk. -/
theorem begin_walk {d : Debugger} {c : Canvas} {id : String} {w : Workflow} {e : Emission}
    (found : c.workflow? id = some w) (begun : d.Begins c id e) :
    Underway c w e.debugger ∧ e.debugger.workflow = some w.id ∧
      e.debugger.state.position = w.origin ∧ ∃ start, w.start? = some start ∧
      ∃ rest, e.events = .started w.id e.debugger.execution start.id :: rest ∧
        ∀ event ∈ rest, event.isStart = false ∧ event.visit? = none := by
  -- a step from idle is a start that is paused at once
  have starts {e : Emission} (started : d.start? c id = some e) :
      e.debugger.workflow = some w.id ∧ e.debugger.state.status = .running ∧
        e.debugger.state.position = w.origin ∧ ∃ start, w.start? = some start ∧
        e.events = [.started w.id e.debugger.execution start.id] := by
    obtain ⟨v, start, found', first, s, -, running, current, values, rfl⟩ := start?_cases started
    cases found.symm.trans found'
    refine ⟨rfl, running, ?_, start, first, rfl⟩
    rw [RunState.position, current, values, Workflow.origin, first]
    rfl
  have live : (some w.id).bind c.workflow? = some w := by
    rw [Option.bind_some, Canvas.id_of_workflow? found, found]
  rcases begun with started | ⟨idle, stepped⟩
  · obtain ⟨workflow, running, position, start, first, events⟩ := starts started
    exact ⟨⟨coherent_start? started, by rw [workflow]; exact live, by simp [running]⟩, workflow,
      position, start, first, [], events, by simp⟩
  · have fit := coherent_step? stepped
    rw [step?, if_pos idle] at stepped
    obtain ⟨begun, started, stepped⟩ := Option.bind_eq_some_iff.1 stepped
    cases stepped
    obtain ⟨workflow, -, position, start, first, events⟩ := starts started
    refine ⟨⟨fit, by rw [workflow]; exact live, by simp⟩, workflow, position, start, first, _,
      by rw [events]; rfl, ?_⟩
    simp [Event.isStart, Event.visit?]

/-- **Every way to advance a run walks the same path.** On a canvas that stays as it is, what a
run visits before the next start is a prefix of the walk of its workflow, in whatever order
pending steps, single steps and resumes are called; while it has not halted it stands where the
walk has led. The walk depends on the outline of the workflow alone: breakpoints, labels, places
and ports have no part in it. -/
theorem runs_walk {c : Canvas} {id : String} {w : Workflow} {start : Node} {d : Debugger}
    {e : Emission} (found : c.workflow? id = some w) (first : w.start? = some start)
    (begun : d.start? c id = some e ∨ d.state.status = .idle ∧ d.step? c id = some e)
    (moves : List Move) :
    let run := e.debugger.follow (moves.map (·.on c))
    ∃ later, e.events ++ run.events = .started w.id e.debugger.execution start.id :: later ∧
      (Event.visits later = (w.walk (Event.visits later).length w.origin).1) ∧
      ((∀ event ∈ later, event.isHalt = false) →
        run.debugger.state.position = (w.walk (Event.visits later).length w.origin).2) ∧
      ∀ v : Workflow, v.outline = w.outline → ∀ k, v.walk k v.origin = w.walk k w.origin := by
  intro run
  obtain ⟨underway, -, position, start', first', rest, events, silent⟩ := begin_walk found begun
  cases first.symm.trans first'
  have walked := follow_walk underway moves
  have same : Event.visits (rest ++ run.events) = Event.visits run.events := by
    rw [Event.visits_append fun event member => (silent event member).1,
      List.filterMap_eq_nil_iff.2 fun event member => (silent event member).2, List.nil_append]
  refine ⟨rest ++ run.events, by rw [events]; rfl, ?_, ?_, ?_⟩
  · rw [same, ← position]
    exact walked.1
  · intro apart
    rw [same, ← position]
    exact walked.2 fun event member => apart event (List.mem_append_right _ member)
  · intro v outline k
    rw [Workflow.origin_outline outline, Workflow.walk_outline outline]

/-- A start node and a branch with a breakpoint that leads back to it. -/
def ring : Workflow where
  id := "ring"
  name := "Ring"
  scope := .server
  inputs := [⟨"p", "x", .any⟩]
  outputs := []
  locals := []
  nodes := [
    { Node.ofKind "s" .start (.ofInt 0) (.ofInt 0) with connections := ["b"] },
    { Node.ofKind "b" .branch (.ofInt 0) (.ofInt 0) with connections := ["s"], breakpoint := true }]

theorem runs_walk_ring :
    let c : Canvas := ⟨[⟨ring, none⟩], none, {}, {}⟩
    let d := initial {} "00:00:00"
    ∃ e, d.start? c "ring" = some e ∧
      let moves := [.runPending, .resume, .step "ring", .runPending]
      let run := e.debugger.follow (moves.map (Move.on c))
      ∃ later, e.events ++ run.events = .started "ring" e.debugger.execution "s" :: later ∧
        (Event.visits later = (ring.walk (Event.visits later).length ring.origin).1) ∧
        ((∀ event ∈ later, event.isHalt = false) →
          run.debugger.state.position = (ring.walk (Event.visits later).length ring.origin).2) ∧
        ∀ v : Workflow, v.outline = ring.outline →
          ∀ k, v.walk k v.origin = ring.walk k ring.origin := by
  intro c d
  obtain ⟨e, begun⟩ : ∃ e, d.start? c "ring" = some e := ⟨_, rfl⟩
  exact ⟨e, begun, runs_walk (w := ring) rfl rfl (.inl begun) _⟩

end Debugger

end Stepflow
