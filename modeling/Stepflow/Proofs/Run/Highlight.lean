import Stepflow.Proofs.Run.Walk

/-!
# The highlighted node

A viewer that receives the events of a debugger, and never looks at its state, knows at which node
the run stands and which run it is.

* `View`, `View.see`: what a viewer knows, and what an event adds to it;
* `Event.Fits`: what an event may name, given what was seen before it;
* `View.Right`, `fits_obey`: one call emits events that fit and keeps the viewer right;
* `events_tell`: so does every run of calls, from the first one on.
-/

namespace Stepflow

/-- What a viewer knows from the events so far: the run that was started last, and the node that is
highlighted. -/
structure View where
  run : Option String
  node : Option String

namespace Event

/-- After this there is nothing to evaluate. -/
def isEnd : Event → Bool
  | .completed _ | .halted _ _ | .stopped _ => true
  | _ => false

/-- A start may come at any time. All else belongs to the run that was started last, and what names
a node names the highlighted one. -/
def Fits (v : View) : Event → Prop
  | .started _ _ _ => True
  | .nodeEvaluated execution node _ _ => v.run = some execution ∧ v.node = some node
  | .breakpointHit execution node => v.run = some execution ∧ v.node = some node
  | .paused execution node => v.run = some execution ∧ v.node = node
  | .completed execution | .halted execution _ | .stopped execution => v.run = some execution

end Event

namespace View

/-- Before the first event. -/
def blank : View := ⟨none, none⟩

/-- A start highlights its node and an evaluation the next one; pauses change nothing, and at an end
nothing is highlighted. -/
def see (v : View) : Event → View
  | .started _ execution node => ⟨some execution, some node⟩
  | .nodeEvaluated _ _ next _ => { v with node := next }
  | .breakpointHit _ _ | .paused _ _ => v
  | .completed _ | .halted _ _ | .stopped _ => { v with node := none }

def after (v : View) (events : List Event) : View := events.foldl see v

/-- Each event fits what was seen before it. -/
def Fits (v : View) : List Event → Prop
  | [] => True
  | e :: rest => e.Fits v ∧ (v.see e).Fits rest

variable {v : View}

theorem fits_append (first rest : List Event) :
    v.Fits (first ++ rest) ↔ v.Fits first ∧ (v.after first).Fits rest := by
  induction first generalizing v with
  | nil => simp [Fits, after]
  | cons e others ih => simp [Fits, after, ih, and_assoc]

theorem after_append (first rest : List Event) :
    v.after (first ++ rest) = (v.after first).after rest :=
  List.foldl_append

theorem node_see_of_isEnd {e : Event} (ends : e.isEnd = true) : (v.see e).node = none := by
  cases e <;> first | rfl | cases ends

/-- While nothing is highlighted nothing is evaluated, and only a start changes that. -/
theorem node_after_unlit {events : List Event} (unlit : v.node = none) (fits : v.Fits events)
    (sameRun : ∀ e ∈ events, e.isStart = false) : (v.after events).node = none := by
  induction events generalizing v with
  | nil => exact unlit
  | cons e rest ih =>
    obtain ⟨first, others⟩ := fits
    refine ih ?_ others fun later member => sameRun later (.tail _ member)
    cases e with
    | started => exact absurd (sameRun _ (.head _)) (by simp [Event.isStart])
    | nodeEvaluated => exact absurd (unlit.symm.trans first.2) (by simp)
    | breakpointHit | paused => exact unlit
    | completed | halted | stopped => rfl

/-- Once there is a run there always is one. -/
theorem run_after {events : List Event} (known : v.run ≠ none) : (v.after events).run ≠ none := by
  induction events generalizing v with
  | nil => exact known
  | cons e rest ih =>
    refine ih ?_
    cases e with
    | started => exact Option.some_ne_none _
    | _ => exact known

theorem run_of_fits {e : Event} (fits : e.Fits v) : (v.see e).run ≠ none := by
  cases e with
  | started => exact Option.some_ne_none _
  | nodeEvaluated | breakpointHit | paused => simp [see, fits.1]
  | completed | halted | stopped =>
    have run : v.run = _ := fits
    simp [see, run]

/-- Who has seen an event knows of a run. -/
theorem run_of_spoken {events : List Event} (fits : v.Fits events) (spoken : events ≠ []) :
    (v.after events).run ≠ none := by
  cases events with
  | nil => exact absurd rfl spoken
  | cons e rest =>
    have known : ((v.see e).after rest).run ≠ none := run_after (run_of_fits fits.1)
    exact known

/-- Between an end and an evaluation there is a start. -/
theorem start_between {last event : Event} {between later : List Event}
    (fits : v.Fits (last :: between ++ event :: later)) (ends : last.isEnd = true)
    (visits : event.visit?.isSome = true) : ∃ e ∈ between, e.isStart = true := by
  refine Classical.byContradiction fun apart => ?_
  have sameRun : ∀ e ∈ between, e.isStart = false := by
    intro e member
    cases starts : e.isStart with
    | false => rfl
    | true => exact absurd ⟨e, member, starts⟩ apart
  rw [fits_append] at fits
  have unlit := node_after_unlit (node_see_of_isEnd ends) fits.1.2 sameRun
  cases event with
  | nodeEvaluated => exact absurd (unlit.symm.trans fits.2.1.2) (by simp)
  | _ => cases visits

/-- What a viewer knows is right: the highlighted node is the current one, and the run is the one
of the debugger. Before the first start there is none. -/
structure Right (v : View) (d : Debugger) : Prop where
  node : v.node = d.state.current
  run : v.run = some d.execution ∨ v = blank ∧ d.state.status = .idle

theorem Right.awake {d : Debugger} (right : v.Right d) (awake : d.state.status ≠ .idle) :
    v.run = some d.execution :=
  right.run.resolve_right fun unstarted => awake unstarted.2

end View

namespace Debugger

variable {v : View} {d : Debugger}

theorem fits_start? {c : Canvas} {id : String} {e : Emission} (started : d.start? c id = some e) :
    v.Fits e.events ∧ (v.after e.events).Right e.debugger := by
  obtain ⟨w, start, -, -, s, -, -, current, -, rfl⟩ := start?_cases started
  exact ⟨⟨trivial, trivial⟩, current.symm, .inl rfl⟩

theorem fits_stop (fit : d.Coherent) (right : v.Right d) :
    v.Fits d.stop.events ∧ (v.after d.stop.events).Right d.stop.debugger := by
  by_cases idle : d.state.status = .idle
  · have nothing : d.pending = none := by
      have := fit.scheduled
      simpa [idle] using this
    have silent : d.stop.events = [] := by simp [stop, idle, nothing]
    have unlit : v.node = none := right.node.trans (fit.idle idle)
    rw [silent]
    refine ⟨trivial, unlit, ?_⟩
    exact right.run.imp_right fun unstarted => ⟨unstarted.1, rfl⟩
  · have reported : d.stop.events = [.stopped d.execution] := by simp [stop, idle]
    rw [reported]
    exact ⟨⟨right.awake idle, trivial⟩, rfl, .inl (right.awake idle)⟩

theorem right_resume? {d' : Debugger} (right : v.Right d) (resumed : d.resume? = some d') :
    v.Right d' := by
  unfold resume? at resumed
  split at resumed
  · rename_i paused
    cases resumed
    exact ⟨right.node, .inl (right.awake (by simp [paused]))⟩
  · cases resumed

theorem fits_step? {c : Canvas} {id : String} {e : Emission} (right : v.Right d)
    (stepped : d.step? c id = some e) :
    v.Fits e.events ∧ (v.after e.events).Right e.debugger := by
  unfold step? at stepped
  split at stepped
  · obtain ⟨begun, started, stepped⟩ := Option.bind_eq_some_iff.1 stepped
    cases stepped
    obtain ⟨fits, right⟩ := fits_start? (v := v) started
    have awake : (v.after begun.events).run = some begun.debugger.execution := by
      obtain ⟨w, start, -, -, s, -, -, -, -, rfl⟩ := start?_cases started
      rfl
    rw [View.fits_append, View.after_append]
    exact ⟨⟨fits, ⟨awake, right.node⟩, trivial⟩, right.node, .inl awake⟩
  · rename_i awake
    cases stepped
    exact ⟨trivial, right.node, .inl (right.awake awake)⟩

/-- A tick names the node it evaluates, and the node it comes to a halt before. -/
theorem fits_runTick (running : d.state.status = .running) (right : v.Right d) (c : Canvas)
    (mode : Mode) :
    v.Fits (d.runTick c mode).events ∧
      (v.after (d.runTick c mode).events).Right (d.runTick c mode).debugger := by
  have run : v.run = some d.execution := right.awake (by simp [running])
  have found {w : Workflow} {id : String} {n : Node} (position : d.state.current = some id)
      (node : w.node? id = some n) : v.node = some n.id := by
    have same : n.id = id := by simpa using List.find?_some node
    rw [right.node, position, same]
  obtain ⟨result, advance, ran⟩ := runTick_cases running c mode
  rw [ran]
  cases advance with
  | lost | dangling => exact ⟨⟨run, trivial⟩, rfl, .inl run⟩
  | @breakpoint w id n next live position node arrival flagged =>
    have leads : (d.state.visit d.pace d.clock n).2.next = some next.id := by
      obtain ⟨target, leads, here⟩ := Option.bind_eq_some_iff.1 arrival
      have same : next.id = target := by simpa using List.find?_some here
      rw [leads, same]
    exact ⟨⟨⟨run, found position node⟩, ⟨run, leads⟩, trivial⟩, rfl, .inl run⟩
  | single live position node =>
    exact ⟨⟨⟨run, found position node⟩, ⟨run, rfl⟩, trivial⟩, rfl, .inl run⟩
  | proceed live position node => exact ⟨⟨⟨run, found position node⟩, trivial⟩, rfl, .inl run⟩
  | finish live position node => exact ⟨⟨⟨run, found position node⟩, trivial⟩, rfl, .inl run⟩

theorem fits_runPending? {c : Canvas} {e : Emission} (fit : d.Coherent) (right : v.Right d)
    (ran : d.runPending? c = some e) :
    v.Fits e.events ∧ (v.after e.events).Right e.debugger := by
  obtain ⟨step, pending, rfl⟩ := Option.map_eq_some_iff.1 ran
  have running := fit.running pending
  cases step with
  | tick mode => exact fits_runTick running right c mode
  | completion =>
    have run : v.run = some d.execution := right.awake (by simp [running])
    simp only [runCompletion, if_pos running, RunState.complete]
    exact ⟨⟨run, trivial⟩, rfl, .inl run⟩

theorem fits_obey (fit : d.Coherent) (right : v.Right d) (command : Command) :
    v.Fits (d.obey command).events ∧
      (v.after (d.obey command).events).Right (d.obey command).debugger := by
  have refused : v.Fits [] ∧ (v.after []).Right d := ⟨trivial, right⟩
  cases command with
  | start c id =>
    cases started : d.start? c id with
    | none => simpa [obey, started] using refused
    | some e => simpa [obey, started] using fits_start? started
  | stop => exact fits_stop fit right
  | resume =>
    cases resumed : d.resume? with
    | none => simpa [obey, resumed] using refused
    | some d' =>
      simp only [obey, resumed, Option.getD_some]
      exact ⟨trivial, right_resume? right resumed⟩
  | step c id =>
    cases stepped : d.step? c id with
    | none => simpa [obey, stepped] using refused
    | some e => simpa [obey, stepped] using fits_step? right stepped
  | runPending c =>
    cases ran : d.runPending? c with
    | none => simpa [obey, ran] using refused
    | some e => simpa [obey, ran] using fits_runPending? fit right ran

theorem fits_follow (fit : d.Coherent) (right : v.Right d) (commands : List Command) :
    v.Fits (d.follow commands).events ∧
      (v.after (d.follow commands).events).Right (d.follow commands).debugger := by
  induction commands generalizing d v with
  | nil => exact ⟨trivial, right⟩
  | cons command rest ih =>
    obtain ⟨first, next⟩ := fits_obey fit right command
    obtain ⟨others, last⟩ := ih (coherent_obey fit command) next
    simp only [follow]
    rw [View.fits_append, View.after_append]
    exact ⟨⟨first, others⟩, last⟩

/-- **The events alone tell where a run is**, after any calls on any canvases. The node that they
highlight is the current one, and they belong to the run of the debugger; every event fits what was
seen before it, so that none comes before the first start; and nothing is evaluated between an end
and the next start. -/
theorem events_tell (pace : Pace) (clock : String) (commands : List Command) :
    let run := (initial pace clock).follow commands
    (View.blank.after run.events).node = run.debugger.state.current ∧
    (run.events ≠ [] → (View.blank.after run.events).run = some run.debugger.execution) ∧
    (∀ before event later, run.events = before ++ event :: later →
      event.Fits (View.blank.after before)) ∧
    ∀ before last between event later, run.events = before ++ last :: between ++ event :: later →
      last.isEnd = true → event.visit?.isSome = true → ∃ e ∈ between, e.isStart = true := by
  intro run
  have unstarted : View.blank.Right (initial pace clock) := ⟨rfl, .inr ⟨rfl, rfl⟩⟩
  obtain ⟨fits, right⟩ := fits_follow (coherent_initial pace clock) unstarted commands
  refine ⟨right.node, ?_, ?_, ?_⟩
  · intro spoken
    refine right.run.resolve_right fun unstarted => ?_
    exact View.run_of_spoken fits spoken (congrArg View.run unstarted.1)
  · intro before event later split
    rw [split, View.fits_append] at fits
    exact fits.2.1
  · intro before last between event later split ends visits
    rw [split, List.append_assoc, View.fits_append] at fits
    exact View.start_between fits.2 ends visits

end Debugger

end Stepflow
