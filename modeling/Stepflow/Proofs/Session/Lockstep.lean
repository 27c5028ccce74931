import Mathlib.Data.List.Forall2
import Stepflow.Proofs.Canvas.Lookups
import Stepflow.Proofs.Run.Walk

/-!
# Debuggers in lockstep

Two debuggers obey the same calls on canvases that may look different. What a run does depends on
no more of a canvas than it has to: not on places and ports, labels, scopes, results, or the ids
and types of parameters. Nor does it depend on the pace of the debugger, its clock or its log.

* `Workflow.bare`, `Canvas.Alike`: a workflow without what is only shown, and canvases that do not
  differ in anything else;
* `Debugger.muted`: a debugger without its settings, its log and the count of its runs;
* `RunState.tick_alike`, `Debugger.attempt_alike`: what one tick and one call make of two debuggers
  that are the same apart from that;
* `Debugger.serve`, `serve_alike`: requests one after the other, with the answer to each.
-/

namespace Stepflow

open Json

/-! Canvases as a run sees them -/

/-- A node without its place and its ports, and with as much of its label as is `shown`. -/
def Node.bare (shown : String → String) (n : Node) : Node :=
  { n with
    label := shown n.label
    x := .finite (.zero false)
    y := .finite (.zero false)
    ports := .empty }

/-- A parameter of which only the name counts. -/
def Parameter.bare (p : Parameter) : Parameter := { p with id := "", type := .any }

/-- A workflow without what runs do not look at. -/
def Workflow.bare (shown : String → String) (w : Workflow) : Workflow :=
  { w with
    scope := .server
    inputs := w.inputs.map Parameter.bare
    outputs := []
    locals := w.locals.map Parameter.bare
    nodes := w.nodes.map (Node.bare shown) }

/-- Under each id there is the same workflow, as far as runs look at it. -/
def Canvas.Alike (shown : String → String) (c c' : Canvas) : Prop :=
  ∀ id, (c'.workflow? id).map (Workflow.bare shown) = (c.workflow? id).map (Workflow.bare shown)

/-- The same command, on canvases that are alike. -/
inductive Command.Alike (shown : String → String) : Command → Command → Prop where
  | start {c c' : Canvas} (alike : c.Alike shown c') (workflow : String) :
      Alike shown (.start c workflow) (.start c' workflow)
  | stop : Alike shown .stop .stop
  | resume : Alike shown .resume .resume
  | step {c c' : Canvas} (alike : c.Alike shown c') (workflow : String) :
      Alike shown (.step c workflow) (.step c' workflow)
  | runPending {c c' : Canvas} (alike : c.Alike shown c') :
      Alike shown (.runPending c) (.runPending c')

variable {shown : String → String}

namespace Workflow

@[simp] theorem bare_node? (w : Workflow) (id : String) :
    (w.bare shown).node? id = (w.node? id).map (Node.bare shown) := by
  unfold node? bare
  rw [List.find?_map]
  rfl

@[simp] theorem bare_start? (w : Workflow) :
    (w.bare shown).start? = w.start?.map (Node.bare shown) := by
  unfold start? bare
  rw [List.find?_map]
  rfl

theorem bare_flagged (w : Workflow) (next : Option String) :
    (next.bind (w.bare shown).node?).filter (·.breakpoint)
      = ((next.bind w.node?).filter (·.breakpoint)).map (Node.bare shown) := by
  cases next with
  | none => rfl
  | some id =>
    rw [Option.bind_some, Option.bind_some, bare_node?]
    cases w.node? id with
    | none => rfl
    | some n => cases flagged : n.breakpoint <;> simp [Option.filter, Node.bare, flagged]

theorem bare_names (w : Workflow) :
    ((w.bare shown).inputs ++ (w.bare shown).locals).map (fun p => (p.name, Value.null))
      = (w.inputs ++ w.locals).map fun p => (p.name, Value.null) := by
  simp only [bare, List.map_append, List.map_map]
  rfl

end Workflow

/-- Canvases are alike when their workflows are, one by one. -/
theorem Canvas.alike_of_workflows {c c' : Canvas}
    (same : c'.workflows.map (Workflow.bare shown) = c.workflows.map (Workflow.bare shown)) :
    c.Alike shown c' := by
  have found (c : Canvas) (id : String) : (c.workflow? id).map (Workflow.bare shown)
      = (c.workflows.map (Workflow.bare shown)).find? (·.id = id) := by
    rw [workflow?_eq_find?, List.find?_map]
    rfl
  intro id
  rw [found c', found c, same]

theorem Canvas.Alike.refl (c : Canvas) : c.Alike shown c := fun _ => rfl

theorem Command.Alike.refl (command : Command) : command.Alike shown command := by
  cases command with
  | start c workflow => exact .start (.refl c) workflow
  | stop => exact .stop
  | resume => exact .resume
  | step c workflow => exact .step (.refl c) workflow
  | runPending c => exact .runPending (.refl c)

/-! One tick -/

/-- A state without its log. -/
def RunState.muted (s : RunState) : RunState := { s with logs := [] }

def TickResult.muted (r : TickResult) : TickResult := { r with state := r.state.muted }

namespace RunState

theorem muted_eq_iff {s s' : RunState} :
    s'.muted = s.muted ↔
      s'.status = s.status ∧ s'.current = s.current ∧ s'.values = s.values := by
  simp [muted]

theorem begin?_bare (shown : String → String) (p p' : Pace) (w : Workflow) :
    (begin? p' (w.bare shown)).map muted = (begin? p w).map muted := by
  unfold begin?
  rw [Workflow.bare_start?, Workflow.bare_names]
  cases w.start? <;> rfl

theorem begin?_alike {w w' : Workflow} (alike : w'.bare shown = w.bare shown) (p p' : Pace) :
    (begin? p' w').map muted = (begin? p w).map muted := by
  rw [← begin?_bare shown p' p' w', alike, begin?_bare shown p p' w]

/-- Where a visit leads does not depend on what it adds to. -/
theorem visit_bare (shown : String → String) (s : RunState) (p p' : Pace) (clock clock' : String)
    (n : Node) :
    (s.muted.visit p' clock' (n.bare shown)).1.muted = (s.visit p clock n).1.muted ∧
      (s.muted.visit p' clock' (n.bare shown)).2 = (s.visit p clock n).2 := by
  refine ⟨muted_eq_iff.2 ⟨?_, rfl, ?_⟩, rfl⟩
  · rw [status_visit, status_visit]
    rfl
  · exact congrArg Position.values
      ((position_visit s.muted p' clock' (n.bare shown)).trans (position_visit s p clock n).symm)

/-- What follows a visit that left `s`, when `next` is the node with a breakpoint that it leads to,
if there is one. -/
def arrive (s : RunState) (p : Pace) (mode : Mode) (visit : Visit) : Option Node → TickResult
  | some next =>
    ⟨{ s.log p.logCapacity.toNat ("Breakpoint hit at " ++ next.label) with status := .paused },
      .breakpoint next.id, some visit⟩
  | none =>
    if mode = .single then ⟨{ s with status := .paused }, .paused, some visit⟩
    else if visit.next.isSome then ⟨s, .proceed, some visit⟩
    else ⟨s, .finishing, some visit⟩

theorem tick_found {s : RunState} {w : Workflow} {id : String} {n : Node}
    (running : s.status = .running) (position : s.current = some id) (found : w.node? id = some n)
    (p : Pace) (clock : String) (mode : Mode) :
    s.tick p clock (some w) mode
      = (s.visit p clock n).1.arrive p mode (s.visit p clock n).2
          (((s.visit p clock n).2.next.bind w.node?).filter (·.breakpoint)) := by
  unfold tick
  rw [if_neg (by simp [running]), position]
  simp only [found]
  cases ((s.visit p clock n).2.next.bind w.node?).filter (·.breakpoint) <;> rfl

theorem arrive_bare {s s' : RunState} (same : s'.muted = s.muted) (p p' : Pace) (mode : Mode)
    (visit : Visit) (next : Option Node) :
    (s'.arrive p' mode visit (next.map (Node.bare shown))).muted
      = (s.arrive p mode visit next).muted := by
  obtain ⟨-, current, values⟩ := muted_eq_iff.1 same
  cases next with
  | some n => simp [arrive, TickResult.muted, muted_eq_iff, log, current, values, Node.bare]
  | none =>
    cases mode with
    | single => simp [arrive, TickResult.muted, muted_eq_iff, current, values]
    | continuous => cases onward : visit.next <;> simp [arrive, TickResult.muted, onward, same]

theorem tick_bare (shown : String → String) (s : RunState) (p p' : Pace) (clock clock' : String)
    (w : Option Workflow) (mode : Mode) :
    (s.muted.tick p' clock' (w.map (Workflow.bare shown)) mode).muted
      = (s.tick p clock w mode).muted := by
  -- whatever the tick finds missing in one workflow is missing in the other
  have halted (reason : String) :
      (s.muted.halt p' reason).muted = (s.halt p reason).muted := rfl
  have status : s.muted.status = s.status := rfl
  have current : s.muted.current = s.current := rfl
  by_cases running : s.status = .running
  · cases w with
    | none => simpa [tick, status, running] using halted _
    | some w =>
      cases position : s.current with
      | none => simpa [tick, status, current, running, position] using halted _
      | some id =>
        cases found : w.node? id with
        | none => simpa [tick, status, current, running, position, found] using halted _
        | some n =>
          have found' : (w.bare shown).node? id = some (n.bare shown) := by
            rw [Workflow.bare_node?, found]
            rfl
          have visited := visit_bare shown s p p' clock clock' n
          rw [Option.map_some, tick_found (status.trans running) (current.trans position) found',
            tick_found running position found, visited.2, Workflow.bare_flagged]
          exact arrive_bare visited.1 p p' mode _ _
  · simp [tick, running, TickResult.muted, muted]

theorem tick_alike {s s' : RunState} {w w' : Option Workflow} (same : s'.muted = s.muted)
    (alike : w'.map (Workflow.bare shown) = w.map (Workflow.bare shown)) (p p' : Pace)
    (clock clock' : String) (mode : Mode) :
    (s'.tick p' clock' w' mode).muted = (s.tick p clock w mode).muted := by
  rw [← tick_bare shown s' p' p' clock' clock' w', same, alike,
    tick_bare shown s p p' clock clock' w]

end RunState

/-! One call -/

/-- An event without the id of its run. -/
def Event.anonymous : Event → Event
  | .started workflow _ node => .started workflow "" node
  | .nodeEvaluated _ node next message => .nodeEvaluated "" node next message
  | .breakpointHit _ node => .breakpointHit "" node
  | .paused _ node => .paused "" node
  | .completed _ => .completed ""
  | .halted _ reason => .halted "" reason
  | .stopped _ => .stopped ""

/-- A debugger without its settings, its log and the count of its runs. -/
def Debugger.muted (d : Debugger) : Debugger :=
  { d with pace := ⟨0, 0, 0⟩, clock := "", runs := 0, state := d.state.muted }

def Emission.muted (e : Emission) : Emission := ⟨e.debugger.muted, e.events.map Event.anonymous⟩

/-- What is left of a start that is paused at once. -/
def Emission.entered (e : Emission) : Emission where
  debugger := { e.debugger with
    state := { e.debugger.state with status := .paused }
    pending := none }
  events := e.events ++ [.paused e.debugger.execution e.debugger.state.current]

theorem Emission.muted_entered (e : Emission) : e.muted.entered.muted = e.entered.muted := by
  have twice : Event.anonymous ∘ Event.anonymous = Event.anonymous := by
    funext event
    cases event <;> rfl
  simp only [muted, entered, List.map_append, List.map_map, twice]
  rfl

namespace Debugger

theorem muted_eq_iff {d d' : Debugger} :
    d'.muted = d.muted ↔
      d'.workflow = d.workflow ∧ d'.state.muted = d.state.muted ∧ d'.pending = d.pending := by
  simp [muted]

variable {d d' : Debugger}

/-- A start leaves nothing of the run before it, so the debuggers need not be the same. -/
theorem start?_alike {c c' : Canvas} (d d' : Debugger) (alike : c.Alike shown c') (id : String) :
    (d'.start? c' id).map Emission.muted = (d.start? c id).map Emission.muted := by
  have found := alike id
  unfold start?
  cases known : c.workflow? id with
  | none =>
    rw [known, Option.map_none, Option.map_eq_none_iff] at found
    rw [found]
    rfl
  | some w =>
    rw [known, Option.map_some, Option.map_eq_some_iff] at found
    obtain ⟨w', found, bare⟩ := found
    have named : w'.id = w.id :=
      (congrArg Workflow.id bare : (w'.bare shown).id = (w.bare shown).id)
    have begun := RunState.begin?_alike bare d.pace d'.pace
    rw [found]
    simp only [Option.bind_eq_bind, Option.bind_some]
    cases entered : RunState.begin? d.pace w with
    | none =>
      rw [entered, Option.map_none, Option.map_eq_none_iff] at begun
      rw [begun]
      rfl
    | some s =>
      rw [entered, Option.map_some, Option.map_eq_some_iff] at begun
      obtain ⟨s', begun, state⟩ := begun
      have current := (RunState.muted_eq_iff.1 state).2.1
      rw [begun]
      simp [Emission.muted, muted_eq_iff, Event.anonymous, named, state, current]

theorem stop_alike (same : d'.muted = d.muted) : d'.stop.muted = d.stop.muted := by
  obtain ⟨workflow, state, pending⟩ := muted_eq_iff.1 same
  have status := (RunState.muted_eq_iff.1 state).1
  unfold stop Emission.muted
  rw [status, pending]
  congr 1
  · exact muted_eq_iff.2 ⟨workflow, rfl, rfl⟩
  · dsimp only
    split <;> rfl

theorem released_alike (same : d'.muted = d.muted) (mode : Mode) :
    (d'.released mode).muted = (d.released mode).muted := by
  obtain ⟨workflow, state, -⟩ := muted_eq_iff.1 same
  obtain ⟨-, current, values⟩ := RunState.muted_eq_iff.1 state
  exact muted_eq_iff.2 ⟨workflow, RunState.muted_eq_iff.2 ⟨rfl, current, values⟩, rfl⟩

theorem resume?_alike (same : d'.muted = d.muted) :
    d'.resume?.map muted = d.resume?.map muted := by
  obtain ⟨-, state, -⟩ := muted_eq_iff.1 same
  unfold resume?
  rw [(RunState.muted_eq_iff.1 state).1]
  split
  · exact congrArg some (released_alike same .continuous)
  · rfl

theorem step?_idle (idle : d.state.status = .idle) (c : Canvas) (id : String) :
    d.step? c id = (d.start? c id).map Emission.entered := by
  rw [step?, if_pos idle]
  cases d.start? c id <;> rfl

theorem step?_awake (awake : d.state.status ≠ .idle) (c : Canvas) (id : String) :
    d.step? c id = some ⟨d.released .single, []⟩ := by
  rw [step?, if_neg awake]
  rfl

theorem step?_alike {c c' : Canvas} (same : d'.muted = d.muted) (alike : c.Alike shown c')
    (id : String) :
    (d'.step? c' id).map Emission.muted = (d.step? c id).map Emission.muted := by
  obtain ⟨-, state, -⟩ := muted_eq_iff.1 same
  have status := (RunState.muted_eq_iff.1 state).1
  by_cases idle : d.state.status = .idle
  · have entered (o : Option Emission) : (o.map Emission.entered).map Emission.muted
        = (o.map Emission.muted).map fun e => e.entered.muted := by
      simp [Function.comp_def, Emission.muted_entered]
    rw [step?_idle idle, step?_idle (status.trans idle), entered, entered,
      start?_alike d d' alike]
  · rw [step?_awake idle, step?_awake (status ▸ idle)]
    exact congrArg (some <| Emission.mk · []) (released_alike same .single)

theorem anonymous_outcomeEvents (execution : String) (current : Option String)
    (continuation : Continuation) :
    (outcomeEvents execution current continuation).map Event.anonymous
      = outcomeEvents "" current continuation := by
  cases continuation <;> rfl

theorem report_alike {r r' : TickResult} (same : d'.muted = d.muted) (alike : r'.muted = r.muted) :
    (d'.report r').muted = (d.report r).muted := by
  obtain ⟨workflow, -, -⟩ := muted_eq_iff.1 same
  obtain ⟨state, continuation, visit⟩ := TickResult.mk.inj alike
  have current := (RunState.muted_eq_iff.1 state).2.1
  unfold Emission.muted report
  simp only [List.map_append, List.map_map, anonymous_outcomeEvents, current, continuation, visit]
  congr 1
  exact muted_eq_iff.2 ⟨workflow, state, rfl⟩

/-- The workflow of a run is the same on canvases that are alike, as far as runs look at it. -/
theorem subject_alike {c c' : Canvas} (same : d'.muted = d.muted) (alike : c.Alike shown c') :
    (d'.workflow.bind c'.workflow?).map (Workflow.bare shown)
      = (d.workflow.bind c.workflow?).map (Workflow.bare shown) := by
  obtain ⟨workflow, -, -⟩ := muted_eq_iff.1 same
  rw [workflow]
  cases d.workflow with
  | none => rfl
  | some id => exact alike id

theorem runTick_alike {c c' : Canvas} (same : d'.muted = d.muted) (alike : c.Alike shown c')
    (mode : Mode) : (d'.runTick c' mode).muted = (d.runTick c mode).muted := by
  obtain ⟨-, state, -⟩ := muted_eq_iff.1 same
  have seen := subject_alike same alike
  exact report_alike same (RunState.tick_alike state seen d.pace d'.pace d.clock d'.clock mode)

theorem runCompletion_alike (same : d'.muted = d.muted) :
    d'.runCompletion.muted = d.runCompletion.muted := by
  obtain ⟨workflow, state, -⟩ := muted_eq_iff.1 same
  obtain ⟨status, -, values⟩ := RunState.muted_eq_iff.1 state
  -- the debuggers may be in any phase, so the run need not be running
  by_cases running : d.state.status = .running
  · have completed : (d'.state.complete d'.pace).muted = (d.state.complete d.pace).muted := by
      simp [RunState.complete, running, status.trans running, RunState.muted_eq_iff,
        RunState.log, values]
    rw [runCompletion, runCompletion, if_pos running, if_pos (status.trans running)]
    exact congrArg (Emission.mk · [.completed ""]) (muted_eq_iff.2 ⟨workflow, completed, rfl⟩)
  · rw [runCompletion, runCompletion, if_neg running, if_neg (status ▸ running)]
    exact congrArg (Emission.mk · []) (muted_eq_iff.2 ⟨workflow, state, rfl⟩)

/-- What a call does, unless it is refused. -/
def attempt (d : Debugger) : Command → Option Emission
  | .start c w => d.start? c w
  | .stop => some d.stop
  | .resume => d.resume?.map (⟨·, []⟩)
  | .step c w => d.step? c w
  | .runPending c => d.runPending? c

theorem obey_attempt (d : Debugger) (command : Command) :
    d.obey command = (d.attempt command).getD ⟨d, []⟩ := by
  cases command with
  | start | stop | step | runPending => rfl
  | resume =>
    rw [obey, attempt]
    cases d.resume? <;> rfl

/-- Debuggers that are the same apart from what is muted stay so, and answer alike. -/
theorem attempt_alike {command command' : Command} (same : d'.muted = d.muted)
    (alike : command.Alike shown command') :
    (d'.attempt command').map Emission.muted = (d.attempt command).map Emission.muted := by
  cases alike with
  | start alike id => exact start?_alike d d' alike id
  | stop => exact congrArg some (stop_alike same)
  | resume =>
    have quiet (o : Option Debugger) : (o.map (⟨·, []⟩ : Debugger → Emission)).map Emission.muted
        = (o.map muted).map (⟨·, []⟩) := by
      simp only [Option.map_map]
      rfl
    rw [attempt, attempt, quiet, quiet, resume?_alike same]
  | step alike id => exact step?_alike same alike id
  | @runPending c c' alike =>
    obtain ⟨-, -, pending⟩ := muted_eq_iff.1 same
    simp only [attempt, runPending?, pending]
    cases d.pending with
    | none => rfl
    | some step =>
      cases step with
      | tick mode => exact congrArg some (runTick_alike same alike mode)
      | completion => exact congrArg some (runCompletion_alike same)

end Debugger

/-! Requests -/

/-- A command, and the time of day at which it comes. -/
structure Request where
  clock : String
  command : Command

structure Request.Alike (shown : String → String) (r r' : Request) : Prop where
  clock : r'.clock = r.clock
  command : r.command.Alike shown r'.command

theorem Request.Alike.refl (r : Request) : r.Alike shown r := ⟨rfl, .refl r.command⟩

/-- Whether a request was granted, and the events that it led to. -/
structure Answer where
  granted : Bool
  events : List Event

def Answer.anonymous (a : Answer) : Answer := { a with events := a.events.map Event.anonymous }

namespace Debugger

/-- A debugger that nobody has called. Its first run gets the id that follows `runs`. -/
def fresh (pace : Pace) (clock : String) (runs : Nat) : Debugger :=
  { initial pace clock with runs := runs }

/-- A debugger whose next log lines get the time `clock`. -/
def clocked (d : Debugger) (clock : String) : Debugger := { d with clock := clock }

/-- What a request leaves. -/
def after (d : Debugger) (r : Request) : Debugger :=
  ((d.clocked r.clock).obey r.command).debugger

def answer (d : Debugger) (r : Request) : Answer where
  granted := ((d.clocked r.clock).attempt r.command).isSome
  events := ((d.clocked r.clock).obey r.command).events

/-- Requests one after the other, with the answer to each and the debugger that they leave. -/
def serve (d : Debugger) : List Request → List Answer × Debugger
  | [] => ([], d)
  | r :: rest => (d.answer r :: ((d.after r).serve rest).1, ((d.after r).serve rest).2)

variable {d d' : Debugger} {r r' : Request}

theorem obey_alike {command command' : Command} (same : d'.muted = d.muted)
    (alike : command.Alike shown command') :
    (d'.obey command').muted = (d.obey command).muted := by
  have settled (d : Debugger) (command : Command) : (d.obey command).muted
      = ((d.attempt command).map Emission.muted).getD ⟨d.muted, []⟩ := by
    rw [obey_attempt]
    cases d.attempt command <;> rfl
  rw [settled, settled, attempt_alike same alike, same]

theorem after_alike (same : d'.muted = d.muted) (alike : r.Alike shown r') :
    (d'.after r').muted = (d.after r).muted := by
  have clocked : (d'.clocked r'.clock).muted = (d.clocked r.clock).muted := same
  exact congrArg Emission.debugger (obey_alike clocked alike.command)

theorem answer_alike (same : d'.muted = d.muted) (alike : r.Alike shown r') :
    (d'.answer r').anonymous = (d.answer r).anonymous := by
  have clocked : (d'.clocked r'.clock).muted = (d.clocked r.clock).muted := same
  have granted := congrArg Option.isSome (attempt_alike clocked alike.command)
  have events := congrArg Emission.events (obey_alike clocked alike.command)
  rw [Option.isSome_map, Option.isSome_map] at granted
  unfold answer Answer.anonymous
  dsimp only
  rw [granted]
  exact congrArg (Answer.mk _) events

/-- What is muted never shows in an answer, nor in what an editor sees apart from the log. -/
theorem serve_alike {requests requests' : List Request} (same : d'.muted = d.muted)
    (alike : List.Forall₂ (Request.Alike shown) requests requests') :
    (d'.serve requests').1.map Answer.anonymous = (d.serve requests).1.map Answer.anonymous ∧
      (d'.serve requests').2.muted = (d.serve requests).2.muted := by
  induction alike generalizing d d' with
  | nil => exact ⟨rfl, same⟩
  | cons alike _ ih =>
    obtain ⟨answers, muted⟩ := ih (after_alike same alike)
    refine ⟨?_, muted⟩
    rw [serve, serve, List.map_cons, List.map_cons, answers, answer_alike same alike]

end Debugger

end Stepflow
