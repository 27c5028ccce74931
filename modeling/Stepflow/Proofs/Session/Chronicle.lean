import Mathlib.Data.List.DropRight
import Stepflow.Proofs.Session.Lockstep

/-!
# The chronicle of a run

All that a run has logged since its start, kept or not. It follows from the events: each adds at
most one line, and only a breakpoint has to be looked up for its label.

* `Debugger.chronicle`: the lines of the current run after any requests;
* `keeps_after`, `keeps_serve`: a log holds the end of the chronicle, as much as fits;
* `chronicle_alike`: canvases that look different lead to the same chronicle, apart from labels;
* `looks_never_matter`, `capacity_only_cuts`: two debuggers that differ in what they see of a
  canvas, or in how much they keep.
-/

namespace Stepflow

/-! The end of a list -/

theorem rtake_rtake {α : Type} (l : List α) {n m : Nat} (le : n ≤ m) :
    (l.rtake m).rtake n = l.rtake n := by
  simp only [List.rtake_eq_reverse_take_reverse, List.reverse_reverse, List.take_take]
  rw [Nat.min_eq_left le]

theorem rtake_push {α : Type} (l : List α) (a : α) (n : Nat) :
    (l.rtake n ++ [a]).rtake n = (l ++ [a]).rtake n := by
  cases n with
  | zero => rw [List.rtake_zero, List.rtake_zero]
  | succ n =>
    rw [List.rtake_concat_succ, List.rtake_concat_succ, rtake_rtake l (Nat.le_succ n)]

/-! Logs -/

/-- The log holds the end of `lines`, as much as `capacity` allows. -/
def RunState.Keeps (s : RunState) (capacity : Nat) (lines : List String) : Prop :=
  s.logs = lines.rtake capacity

namespace RunState

theorem keeps_log {s : RunState} {capacity : Nat} {lines : List String}
    (keeps : s.Keeps capacity lines) (line : String) :
    (s.log capacity line).Keeps capacity (lines ++ [line]) := by
  have pushed : (s.log capacity line).logs = (s.logs ++ [line]).rtake capacity := rfl
  unfold Keeps at keeps ⊢
  rw [pushed, keeps, rtake_push]

theorem keeps_visit {s : RunState} {p : Pace} {lines : List String}
    (keeps : s.Keeps p.logCapacity.toNat lines) (clock : String) (n : Node) :
    (s.visit p clock n).1.Keeps p.logCapacity.toNat
      (lines ++ [stamped clock (s.visit p clock n).2.message]) := by
  have assigned (update : Option (String × Json.Value)) :
      (s.assign update).Keeps p.logCapacity.toNat lines := by
    cases update <;> exact keeps
  exact keeps_log (assigned _) _

theorem keeps_begin? {p : Pace} {w : Workflow} {s : RunState} (begun : begin? p w = some s) :
    s.Keeps p.logCapacity.toNat ["Started workflow '" ++ w.name ++ "'"] := by
  obtain ⟨start, -, state⟩ := Option.bind_eq_some_iff.1 begun
  cases state
  rfl

end RunState

/-! The chronicle -/

/-- The lines of a run after one more event. `w` is its workflow at the time. -/
def Event.record (clock : String) (w : Option Workflow) (lines : List String) :
    Event → List String
  | .started .. => ["Started workflow '" ++ (w.map (·.name)).getD "" ++ "'"]
  | .nodeEvaluated _ _ _ message => lines ++ [stamped clock message]
  | .breakpointHit _ node =>
    lines ++ ["Breakpoint hit at " ++ ((w.bind (·.node? node)).map (·.label)).getD ""]
  | .completed _ => lines ++ ["Execution Completed."]
  | .halted _ reason => lines ++ [reason]
  | .paused .. | .stopped _ => lines

/-- The canvas that a command sees. -/
def Command.canvas? : Command → Option Canvas
  | .start c _ | .step c _ | .runPending c => some c
  | .stop | .resume => none

namespace Debugger

/-- The workflow of the run, as a command sees it. -/
def subject? (d : Debugger) (command : Command) : Option Workflow :=
  command.canvas?.bind fun c => d.workflow.bind c.workflow?

/-- The lines of the current run after a request; a stop forgets them. -/
def chronicled (d : Debugger) (lines : List String) (r : Request) : List String :=
  match r.command with
  | .stop => []
  | command =>
    (d.answer r).events.foldl (Event.record r.clock ((d.after r).subject? command)) lines

/-- The lines of the current run after some requests, when before there were `lines`. -/
def chronicle (d : Debugger) (lines : List String) : List Request → List String
  | [] => lines
  | r :: rest => (d.after r).chronicle (d.chronicled lines r) rest

theorem keeps_start? {d : Debugger} {c : Canvas} {id : String} {e : Emission}
    (begun : d.start? c id = some e) (lines : List String) :
    e.debugger.state.Keeps d.pace.logCapacity.toNat
      (e.events.foldl (Event.record d.clock (e.debugger.workflow.bind c.workflow?)) lines) := by
  obtain ⟨w, start, found, -, s, entered, -, -, -, rfl⟩ := start?_cases begun
  have live : (some w.id).bind c.workflow? = some w := by
    rw [Option.bind_some, Canvas.id_of_workflow? found, found]
  rw [live]
  exact RunState.keeps_begin? entered

theorem keeps_runTick {d : Debugger} {lines : List String}
    (keeps : d.state.Keeps d.pace.logCapacity.toNat lines) (c : Canvas) (mode : Mode) :
    (d.runTick c mode).debugger.state.Keeps d.pace.logCapacity.toNat
      ((d.runTick c mode).events.foldl
        (Event.record d.clock (d.workflow.bind c.workflow?)) lines) := by
  by_cases running : d.state.status = .running
  · obtain ⟨result, advance, ran⟩ := runTick_cases running c mode
    rw [ran]
    cases advance with
    | lost | dangling => exact RunState.keeps_log keeps _
    | @breakpoint v id n next live position found arrival flagged =>
      -- the event only names the node; its label is on the canvas that the tick has seen
      obtain ⟨target, -, arrived⟩ := Option.bind_eq_some_iff.1 arrival
      have named : next.id = target := by simpa using List.find?_some arrived
      have label : ((d.workflow.bind c.workflow?).bind (·.node? next.id)).map (·.label)
          = some next.label := by
        rw [live, Option.bind_some, named, arrived]
        rfl
      simp only [report, outcomeEvents, Option.toList_some, List.map_cons, List.map_nil,
        List.cons_append, List.nil_append, List.foldl_cons, List.foldl_nil, Event.record, label,
        Option.getD_some]
      exact RunState.keeps_log (RunState.keeps_visit keeps d.clock n) _
    | @single v id n _ _ _ _ _ => exact RunState.keeps_visit keeps d.clock n
    | @proceed v id next n _ _ _ _ _ => exact RunState.keeps_visit keeps d.clock n
    | @finish v id n _ _ _ _ _ => exact RunState.keeps_visit keeps d.clock n
  · have skipped : d.state.tick d.pace d.clock (d.workflow.bind c.workflow?) mode
        = ⟨d.state, .skipped, none⟩ := by
      simp [RunState.tick, running]
    rw [runTick, skipped]
    exact keeps

theorem keeps_runCompletion {d : Debugger} {lines : List String}
    (keeps : d.state.Keeps d.pace.logCapacity.toNat lines) (w : Option Workflow) :
    d.runCompletion.debugger.state.Keeps d.pace.logCapacity.toNat
      (d.runCompletion.events.foldl (Event.record d.clock w) lines) := by
  by_cases running : d.state.status = .running
  · rw [runCompletion, if_pos running, RunState.complete, if_pos running]
    exact RunState.keeps_log keeps _
  · rw [runCompletion, if_neg running]
    exact keeps

/-- A call adds to the log what its events say. A stop is no such call: it forgets the log of a
halted run without an event. -/
theorem keeps_obey {d : Debugger} {lines : List String}
    (keeps : d.state.Keeps d.pace.logCapacity.toNat lines) {command : Command}
    (working : command ≠ .stop) :
    (d.obey command).debugger.state.Keeps d.pace.logCapacity.toNat
      ((d.obey command).events.foldl
        (Event.record d.clock ((d.obey command).debugger.subject? command)) lines) := by
  have response := d.response_obey command
  generalize d.obey command = e at response ⊢
  cases response with
  | refused => exact keeps
  | started begun => exact keeps_start? begun lines
  | stopped => exact absurd rfl working
  | resumed => exact keeps
  | entered _ begun =>
    rw [List.foldl_append]
    exact keeps_start? begun lines
  | stepped => exact keeps
  | @ticked c mode => exact keeps_runTick keeps c mode
  | completed => exact keeps_runCompletion keeps _

theorem pace_obey (d : Debugger) (command : Command) :
    (d.obey command).debugger.pace = d.pace := by
  have started {c : Canvas} {id : String} {e : Emission} (begun : d.start? c id = some e) :
      e.debugger.pace = d.pace := by
    obtain ⟨w, start, -, -, s, -, -, -, -, rfl⟩ := start?_cases begun
    rfl
  have response := d.response_obey command
  generalize d.obey command = e at response ⊢
  cases response with
  | started begun => exact started begun
  | entered _ begun => exact (started begun :)
  | completed =>
    unfold runCompletion
    split <;> rfl
  | refused | stopped | resumed | stepped | ticked => rfl

theorem pace_after (d : Debugger) (r : Request) : (d.after r).pace = d.pace :=
  (d.clocked r.clock).pace_obey r.command

theorem keeps_after {d : Debugger} {lines : List String}
    (keeps : d.state.Keeps d.pace.logCapacity.toNat lines) (r : Request) :
    (d.after r).state.Keeps d.pace.logCapacity.toNat (d.chronicled lines r) := by
  obtain ⟨clock, command⟩ := r
  have clocked : (d.clocked clock).state.Keeps (d.clocked clock).pace.logCapacity.toNat lines :=
    keeps
  cases command with
  | stop => exact List.rtake_nil _ |>.symm
  | start | resume | step | runPending => exact keeps_obey clocked Command.noConfusion

/-- A log is the end of the chronicle. -/
theorem keeps_serve {d : Debugger} {lines : List String}
    (keeps : d.state.Keeps d.pace.logCapacity.toNat lines) (requests : List Request) :
    (d.serve requests).2.state.Keeps d.pace.logCapacity.toNat (d.chronicle lines requests) := by
  induction requests generalizing d lines with
  | nil => exact keeps
  | cons r rest ih =>
    -- the capacity of a debugger is the same before and after
    have kept := keeps_after keeps r
    rw [← d.pace_after r] at kept ⊢
    exact ih kept

end Debugger

/-! Chronicles on canvases that look different -/

/-- The same line, but for the label of a breakpoint. -/
inductive SameLine (shown : String → String) : String → String → Prop where
  | same (line : String) : SameLine shown line line
  | breakpoint {label label' : String} (alike : shown label' = shown label) :
      SameLine shown ("Breakpoint hit at " ++ label) ("Breakpoint hit at " ++ label')

theorem SameLine.eq {line line' : String} (same : SameLine id line line') : line = line' := by
  cases same with
  | same => rfl
  | @breakpoint label label' alike =>
    have named : label' = label := alike
    rw [named]

variable {shown : String → String}

theorem sameLines_refl (lines : List String) : List.Forall₂ (SameLine shown) lines lines :=
  List.forall₂_same.2 fun line _ => .same line

theorem eq_of_sameLines {lines lines' : List String}
    (same : List.Forall₂ (SameLine id) lines lines') : lines = lines' := by
  induction same with
  | nil => rfl
  | cons line _ ih => rw [line.eq, ih]

theorem sameLines_rtake {lines lines' : List String}
    (same : List.Forall₂ (SameLine shown) lines lines') (n : Nat) :
    List.Forall₂ (SameLine shown) (lines.rtake n) (lines'.rtake n) := by
  unfold List.rtake
  rw [same.length_eq]
  exact List.forall₂_drop _ same

namespace Event

theorem record_anonymous (clock : String) (w : Option Workflow) (lines : List String)
    (event : Event) : event.anonymous.record clock w lines = event.record clock w lines := by
  cases event <;> rfl

theorem record_alike {clock : String} {w w' : Option Workflow} {lines lines' : List String}
    (alike : w'.map (Workflow.bare shown) = w.map (Workflow.bare shown))
    (same : List.Forall₂ (SameLine shown) lines lines') (event : Event) :
    List.Forall₂ (SameLine shown) (event.record clock w lines) (event.record clock w' lines') := by
  have written {line line' : String} (line_same : SameLine shown line line') :
      List.Forall₂ (SameLine shown) (lines ++ [line]) (lines' ++ [line']) :=
    List.rel_append same (.cons line_same .nil)
  cases event with
  | started =>
    have named (w : Option Workflow) :
        w.map (·.name) = (w.map (Workflow.bare shown)).map (·.name) := by
      cases w <;> rfl
    simp only [record]
    rw [named w, named w', alike]
    exact sameLines_refl _
  | breakpointHit execution node =>
    apply written
    apply SameLine.breakpoint
    have labelled (w : Option Workflow) :
        shown (((w.bind (·.node? node)).map (·.label)).getD "")
          = (((w.map (Workflow.bare shown)).bind (·.node? node)).map (·.label)).getD
              (shown "") := by
      cases w with
      | none => rfl
      | some w =>
        rw [Option.map_some, Option.bind_some, Option.bind_some, Workflow.bare_node?]
        cases w.node? node <;> rfl
    rw [labelled w, labelled w', alike]
  | nodeEvaluated => exact written (.same _)
  | completed => exact written (.same _)
  | halted => exact written (.same _)
  | paused => exact same
  | stopped => exact same

theorem records_alike {clock : String} {w w' : Option Workflow} {lines lines' : List String}
    {events events' : List Event}
    (alike : w'.map (Workflow.bare shown) = w.map (Workflow.bare shown))
    (same : List.Forall₂ (SameLine shown) lines lines')
    (reported : events'.map anonymous = events.map anonymous) :
    List.Forall₂ (SameLine shown) (events.foldl (record clock w) lines)
      (events'.foldl (record clock w') lines') := by
  have silent (events : List Event) (w : Option Workflow) (lines : List String) :
      (events.map anonymous).foldl (record clock w) lines
        = events.foldl (record clock w) lines := by
    rw [List.foldl_map]
    simp only [record_anonymous]
  -- no line tells which run it is from
  rw [← silent events, ← silent events', reported]
  generalize events.map anonymous = events
  induction events generalizing lines lines' with
  | nil => exact same
  | cons event rest ih => exact ih (record_alike alike same event)

end Event

namespace Debugger

variable {d d' : Debugger} {r r' : Request} {lines lines' : List String}

theorem subject?_alike {command command' : Command} (same : d'.muted = d.muted)
    (alike : command.Alike shown command') :
    (d'.subject? command').map (Workflow.bare shown)
      = (d.subject? command).map (Workflow.bare shown) := by
  cases alike with
  | stop => rfl
  | resume => rfl
  | start alike | step alike | runPending alike => exact subject_alike same alike

theorem chronicled_alike (same : d'.muted = d.muted) (alike : r.Alike shown r')
    (lined : List.Forall₂ (SameLine shown) lines lines') :
    List.Forall₂ (SameLine shown) (d.chronicled lines r) (d'.chronicled lines' r') := by
  have reported := congrArg Answer.events (answer_alike same alike)
  have seen := subject?_alike (after_alike same alike) alike.command
  obtain ⟨clock, command⟩ := r
  obtain ⟨clock', command'⟩ := r'
  obtain ⟨rfl, alike⟩ := alike
  cases alike with
  | stop => exact .nil
  | start | resume | step | runPending => exact Event.records_alike seen lined reported

theorem chronicle_alike {requests requests' : List Request} (same : d'.muted = d.muted)
    (alike : List.Forall₂ (Request.Alike shown) requests requests')
    (lined : List.Forall₂ (SameLine shown) lines lines') :
    List.Forall₂ (SameLine shown) (d.chronicle lines requests)
      (d'.chronicle lines' requests') := by
  induction alike generalizing d d' lines lines' with
  | nil => exact lined
  | cons alike _ ih => exact ih (after_alike same alike) (chronicled_alike same alike lined)

theorem logs_serve (pace : Pace) (clock : String) (runs : Nat) (requests : List Request) :
    ((fresh pace clock runs).serve requests).2.state.logs
      = ((fresh pace clock runs).chronicle [] requests).rtake pace.logCapacity.toNat := by
  have empty : (fresh pace clock runs).state.Keeps pace.logCapacity.toNat [] :=
    (List.rtake_nil _).symm
  exact keeps_serve empty requests

/-- Before their first call debuggers differ in nothing but what is muted, so all that an editor
sees of them but their logs is the same from then on. -/
theorem serve_fresh_alike (pace pace' : Pace) (clock : String) (runs runs' : Nat)
    {requests requests' : List Request}
    (alike : List.Forall₂ (Request.Alike shown) requests requests') :
    let run := (fresh pace clock runs).serve requests
    let run' := (fresh pace' clock runs').serve requests'
    run'.1.map Answer.anonymous = run.1.map Answer.anonymous ∧
    run'.2.state.status = run.2.state.status ∧
    run'.2.state.current = run.2.state.current ∧
    run'.2.state.values = run.2.state.values ∧
    run'.2.pending = run.2.pending := by
  intro run run'
  have same : (fresh pace' clock runs').muted = (fresh pace clock runs).muted := rfl
  obtain ⟨answers, left⟩ := serve_alike same alike
  obtain ⟨-, state, pending⟩ := muted_eq_iff.1 left
  obtain ⟨status, current, values⟩ := RunState.muted_eq_iff.1 state
  exact ⟨answers, status, current, values, pending⟩

/-- **What only the canvas shows never matters to a run.** Two debuggers of the same pace serve the
same requests, on canvases that differ in places, ports and labels, in scopes and results, and in
the ids and types of parameters. They grant the same and emit the same, apart from the ids of
their runs, and status, current node, values and pending step agree after any requests. Their logs
agree too, apart from labels in lines about breakpoints, and entirely where labels do. -/
theorem looks_never_matter (pace : Pace) (clock : String) (runs runs' : Nat)
    {requests requests' : List Request}
    (alike : List.Forall₂ (Request.Alike fun _ => "") requests requests') :
    let run := (fresh pace clock runs).serve requests
    let run' := (fresh pace clock runs').serve requests'
    run'.1.map Answer.anonymous = run.1.map Answer.anonymous ∧
    run'.2.state.status = run.2.state.status ∧
    run'.2.state.current = run.2.state.current ∧
    run'.2.state.values = run.2.state.values ∧
    run'.2.pending = run.2.pending ∧
    List.Forall₂ (SameLine fun _ => "") run.2.state.logs run'.2.state.logs ∧
    (List.Forall₂ (Request.Alike id) requests requests' →
      run'.2.state.logs = run.2.state.logs) := by
  intro run run'
  have same : (fresh pace clock runs').muted = (fresh pace clock runs).muted := rfl
  obtain ⟨answers, status, current, values, pending⟩ :=
    serve_fresh_alike pace pace clock runs runs' alike
  have logged {shown : String → String}
      (alike : List.Forall₂ (Request.Alike shown) requests requests') :
      List.Forall₂ (SameLine shown) run.2.state.logs run'.2.state.logs := by
    rw [logs_serve, logs_serve]
    exact sameLines_rtake (chronicle_alike same alike .nil) _
  refine ⟨answers, status, current, values, pending, logged alike, ?_⟩
  intro labelled
  exact (eq_of_sameLines (logged labelled)).symm

theorem looks_never_matter_ring :
    let moved : Workflow := { ring with
      scope := .client
      inputs := [⟨"q", "x", .number⟩]
      nodes := ring.nodes.map fun n => { n with label := "Moved", x := .ofInt 7 } }
    let requests (w : Workflow) : List Request :=
      let c : Canvas := ⟨[⟨w, none⟩], none, {}, {}⟩
      [⟨"09:00:00", .start c "ring"⟩, ⟨"09:00:01", .runPending c⟩]
    let run := (fresh {} "" 1).serve (requests ring)
    let run' := (fresh {} "" 5).serve (requests moved)
    List.Forall₂ (Request.Alike fun _ => "") (requests ring) (requests moved) ∧
    run'.1.map Answer.anonymous = run.1.map Answer.anonymous ∧
    run.2.state.logs.getLast? = some "Breakpoint hit at If" ∧
    run'.2.state.logs.getLast? = some "Breakpoint hit at Moved" := by
  intro moved requests run run'
  have alike : List.Forall₂ (Request.Alike fun _ => "") (requests ring) (requests moved) := by
    have canvases : Canvas.Alike (fun _ => "")
        ⟨[⟨ring, none⟩], none, {}, {}⟩ ⟨[⟨moved, none⟩], none, {}, {}⟩ :=
      Canvas.alike_of_workflows rfl
    exact .cons ⟨rfl, .start canvases "ring"⟩ (.cons ⟨rfl, .runPending canvases⟩ .nil)
  obtain ⟨answers, -⟩ := looks_never_matter {} "" 1 5 alike
  exact ⟨alike, answers, by decide, by decide⟩

/-- **The capacity of the log cuts the log and nothing else.** Two debuggers serve the same
requests. However their delays differ, and however much of the log each keeps, they grant the same
and emit the same, apart from the ids of their runs, and status, current node, values and pending
step agree. The log of the one that keeps less is the end of the other's, and the end of all that
its run has logged since its start. -/
theorem capacity_only_cuts {pace pace' : Pace} (less : pace.logCapacity ≤ pace'.logCapacity)
    (clock : String) (runs runs' : Nat) (requests : List Request) :
    let run := (fresh pace clock runs).serve requests
    let run' := (fresh pace' clock runs').serve requests
    run'.1.map Answer.anonymous = run.1.map Answer.anonymous ∧
    run'.2.state.status = run.2.state.status ∧
    run'.2.state.current = run.2.state.current ∧
    run'.2.state.values = run.2.state.values ∧
    run'.2.pending = run.2.pending ∧
    run.2.state.logs = run'.2.state.logs.rtake pace.logCapacity.toNat ∧
    run.2.state.logs.length ≤ pace.logCapacity.toNat ∧
    run.2.state.logs
      = ((fresh pace clock runs).chronicle [] requests).rtake pace.logCapacity.toNat := by
  intro run run'
  have same : (fresh pace' clock runs').muted = (fresh pace clock runs).muted := rfl
  have alike : List.Forall₂ (Request.Alike id) requests requests :=
    List.forall₂_same.2 fun r _ => .refl r
  obtain ⟨answers, status, current, values, pending⟩ :=
    serve_fresh_alike pace pace' clock runs runs' alike
  have kept : run.2.state.logs = _ := logs_serve pace clock runs requests
  have kept' : run'.2.state.logs = _ := logs_serve pace' clock runs' requests
  have written := eq_of_sameLines (chronicle_alike same alike .nil)
  refine ⟨answers, status, current, values, pending, ?_, ?_, kept⟩
  · rw [kept, kept', ← written]
    exact (rtake_rtake _ (UInt64.le_iff_toNat_le.1 less)).symm
  · rw [kept, List.rtake, List.length_drop]
    omega

theorem capacity_only_cuts_ring :
    let c : Canvas := ⟨[⟨ring, none⟩], none, {}, {}⟩
    let requests : List Request :=
      [⟨"09:00:00", .start c "ring"⟩, ⟨"09:00:01", .runPending c⟩]
    let pace : Pace := { logCapacity := 2 }
    let pace' : Pace := { tickDelay := 0 }
    let run := (fresh pace "" 1).serve requests
    let run' := (fresh pace' "" 5).serve requests
    pace.logCapacity ≤ pace'.logCapacity ∧
    run.2.state.logs = run'.2.state.logs.rtake 2 ∧
    run.2.state.logs = ["[09:00:01] Start", "Breakpoint hit at If"] ∧
    run'.2.state.logs = "Started workflow 'Ring'" :: run.2.state.logs := by
  intro c requests pace pace' run run'
  have less : pace.logCapacity ≤ pace'.logCapacity := by decide
  obtain ⟨-, -, -, -, -, cut, -⟩ := capacity_only_cuts less "" 1 5 requests
  exact ⟨less, cut, by decide, by decide⟩

end Debugger

end Stepflow
