import Stepflow.Proofs.Run.Pauses
import Stepflow.Proofs.Session.Deeds
import Stepflow.Proofs.Workflow.WellFormed

/-!
# Breakpoints in a session

Flags are set and cleared while a run goes on, and the tick that arrives at a node looks at the
flag of that moment. What is said here holds after any edits and calls.

* `Arrivals`, `arrivals_obey`: one call pauses at the breakpoint it arrives at, and at no other;
* `carryOut_paused`: a pause holds whatever is edited, until a call ends it;
* `carryOut_release`, `visitsCurrent`: the tick after that leaves the node of the pause behind;
* `arrivals_pause_once`: these three, for a debugger that any deeds have led to.
-/

namespace Stepflow

/-- The calls that let a paused run go on. -/
def Control.releases : Control → Bool
  | .resume | .step _ => true
  | .start _ | .stop | .runPending => false

namespace Debugger

variable {d : Debugger} {c : Canvas} {w : Workflow}

/-! Arrivals -/

/-- The breakpoint that a visit leads to, as the canvas is. -/
def ahead? (d : Debugger) (c : Canvas) (visit : Visit) : Option String :=
  (d.workflow.bind c.workflow?).bind (·.flagged? visit.next)

/-- The tick that made the visit has paused at the breakpoint `node`, and done nothing else. -/
structure PausesAt (d : Debugger) (visit : Visit) (node : String) (e : Emission) : Prop where
  events : e.events = [.nodeEvaluated d.execution visit.node visit.next visit.message,
    .breakpointHit d.execution node]
  leads : visit.next = some node
  paused : e.debugger.state.status = .paused
  position : e.debugger.state.current = some node
  unscheduled : e.debugger.pending = none

/-- A call that pauses at the breakpoints its visits lead to, and reports no others. -/
structure Arrivals (d : Debugger) (c : Canvas) (e : Emission) : Prop where
  once : e.events.filterMap Event.hit?
    = (e.events.filterMap Event.visit?).filterMap (d.ahead? c)
  pauses : ∀ visit ∈ e.events.filterMap Event.visit?, ∀ node,
    d.ahead? c visit = some node → d.PausesAt visit node e

theorem arrivals_quiet {e : Emission} (unvisited : e.events.filterMap Event.visit? = [])
    (unhit : e.events.filterMap Event.hit? = []) : Arrivals d c e where
  once := by rw [unvisited, unhit]; rfl
  pauses := by simp [unvisited]

theorem arrivals_clear {e : Emission} {visit : Visit}
    (visited : e.events.filterMap Event.visit? = [visit]) (clear : d.ahead? c visit = none)
    (unhit : e.events.filterMap Event.hit? = []) : Arrivals d c e where
  once := by rw [visited, unhit]; simp [clear]
  pauses := by
    intro other member node flagged
    rw [visited, List.mem_singleton] at member
    rw [member, clear] at flagged
    cases flagged

theorem ahead?_clear (live : d.workflow.bind c.workflow? = some w) {visit : Visit}
    (clear : ∀ n, visit.next.bind w.node? = some n → n.breakpoint = false) :
    d.ahead? c visit = none := by
  rw [ahead?, live]
  exact Workflow.flagged?_clear clear

theorem arrivals_runTick (running : d.state.status = .running) (c : Canvas) (mode : Mode) :
    Arrivals d c (d.runTick c mode) := by
  obtain ⟨result, advance, ran⟩ := runTick_cases running c mode
  rw [ran]
  cases advance with
  | lost | dangling => exact arrivals_quiet rfl rfl
  | @breakpoint w here n next live position found arrival set =>
    obtain ⟨name, leads, there⟩ := Option.bind_eq_some_iff.1 arrival
    obtain rfl : next.id = name := (Workflow.node?_eq_some there).2
    have ahead : d.ahead? c (d.state.visit d.pace d.clock n).2 = some next.id := by
      rw [ahead?, live]
      exact Workflow.flagged?_set arrival set
    constructor
    · simp [report, outcomeEvents, List.filterMap_cons, Event.hit?, Event.visit?, ahead]
    · intro visit member node flagged
      change visit ∈ [(d.state.visit d.pace d.clock n).2] at member
      obtain rfl := List.mem_singleton.1 member
      cases ahead.symm.trans flagged
      exact ⟨rfl, leads, rfl, leads, rfl⟩
  | single live position found only clear =>
    exact arrivals_clear rfl (ahead?_clear live clear) rfl
  | proceed live position found on leads clear =>
    refine arrivals_clear rfl (ahead?_clear live fun n arrival => ?_) rfl
    rw [leads] at arrival
    exact clear n arrival
  | finish live position found on ends =>
    refine arrivals_clear rfl (ahead?_clear live fun n arrival => ?_) rfl
    rw [ends] at arrival
    cases arrival

/-- Only ticks visit and hit anything. -/
theorem arrivals_obey (fit : d.Coherent) (c : Canvas) (call : Control) :
    Arrivals d c (d.obey (call.on c)) := by
  have response := d.response_obey (call.on c)
  generalize seen : call.on c = command at response ⊢
  generalize d.obey command = e at response ⊢
  cases response with
  | refused | resumed | stepped => exact arrivals_quiet rfl rfl
  | started begun | entered _ begun =>
    obtain ⟨-, -, -, -, -, -, -, -, -, rfl⟩ := start?_cases begun
    exact arrivals_quiet rfl rfl
  | stopped =>
    unfold stop
    split <;> exact arrivals_quiet rfl rfl
  | ticked pending =>
    cases call <;> cases seen
    exact arrivals_runTick (fit.running pending) c _
  | completed pending =>
    rw [runCompletion, if_pos (fit.running pending)]
    exact arrivals_quiet rfl rfl

/-! Pauses -/

/-- A pause holds: nothing is pending, and no edit reaches the debugger. -/
theorem carryOut_paused (fit : d.Coherent) (paused : d.state.status = .paused) (c : Canvas)
    {deeds : List Deed} (idle : ∀ call, .call call ∈ deeds → call = .runPending) :
    (carryOut c d deeds).2 = ⟨d, []⟩ := by
  induction deeds generalizing c with
  | nil => rfl
  | cons deed rest ih =>
    have others : ∀ call, .call call ∈ rest → call = .runPending :=
      fun call member => idle call (.tail _ member)
    cases deed with
    | edit fresh e => exact ih (c.perform fresh e).canvas others
    | call call =>
      obtain rfl := idle call (.head _)
      have refused : d.obey (Control.runPending.on c) = ⟨d, []⟩ := by
        simp [Control.on, obey, runPending?, fit.unscheduled (by simp [paused])]
      simp only [carryOut, refused, ih c others, List.append_nil]

theorem obey_release (paused : d.state.status = .paused) (c : Canvas) {call : Control}
    (releases : call.releases = true) : ∃ mode, d.obey (call.on c) = ⟨d.released mode, []⟩ := by
  cases call with
  | resume => exact ⟨.continuous, by simp [Control.on, obey, resume?, paused, released]⟩
  | step id => exact ⟨.single, by simp [Control.on, obey, step?, paused, released]⟩
  | start | stop | runPending => cases releases

theorem obey_released (d : Debugger) (mode : Mode) (c : Canvas) {call : Control}
    (releases : call.releases = true) :
    ∃ later, (d.released mode).obey (call.on c) = ⟨d.released later, []⟩ := by
  cases call with
  | resume => exact ⟨mode, by simp [Control.on, obey, resume?, released]⟩
  | step id => exact ⟨.single, by simp [Control.on, obey, step?, released]⟩
  | start | stop | runPending => cases releases

/-- Once let go, a run waits for its next tick, however often it is let go again. -/
theorem carryOut_released (d : Debugger) (mode : Mode) (c : Canvas) {deeds : List Deed}
    (only : ∀ call, .call call ∈ deeds → call.releases = true) :
    ∃ later, (carryOut c (d.released mode) deeds).2 = ⟨d.released later, []⟩ := by
  induction deeds generalizing c mode with
  | nil => exact ⟨mode, rfl⟩
  | cons deed rest ih =>
    have others : ∀ call, .call call ∈ rest → call.releases = true :=
      fun call member => only call (.tail _ member)
    cases deed with
    | edit fresh e => exact ih mode (c.perform fresh e).canvas others
    | call call =>
      obtain ⟨next, first⟩ := obey_released d mode c (only call (.head _))
      obtain ⟨later, rest⟩ := ih next c others
      exact ⟨later, by simp only [carryOut, first, rest, List.append_nil]⟩

/-- The first of the calls lets the run go. -/
theorem carryOut_release (paused : d.state.status = .paused) (c : Canvas) {deeds : List Deed}
    (only : ∀ call, .call call ∈ deeds → call.releases = true)
    (any : ∃ call, .call call ∈ deeds) :
    ∃ mode, (carryOut c d deeds).2 = ⟨d.released mode, []⟩ := by
  induction deeds generalizing c with
  | nil => cases any.choose_spec
  | cons deed rest ih =>
    have others : ∀ call, .call call ∈ rest → call.releases = true :=
      fun call member => only call (.tail _ member)
    cases deed with
    | edit fresh e => exact ih (c.perform fresh e).canvas others (by simpa using any)
    | call call =>
      obtain ⟨mode, first⟩ := obey_release paused c (only call (.head _))
      obtain ⟨later, rest⟩ := carryOut_released d mode c others
      exact ⟨later, by simp only [carryOut, first, rest, List.append_nil]⟩

/-- A tick visits the current node first, and what else it reports is about the node it leads
to. -/
theorem runTick_leaves (running : d.state.status = .running) {here : String} {n : Node}
    (live : d.workflow.bind c.workflow? = some w) (position : d.state.current = some here)
    (found : w.node? here = some n) (mode : Mode) :
    let outcome := n.outcome d.state.values
    ∃ rest, (d.runTick c mode).events
        = .nodeEvaluated d.execution here outcome.next outcome.message :: rest ∧
      rest.filterMap Event.visit? = [] ∧
      rest.filterMap Event.hit? = (w.flagged? outcome.next).toList := by
  intro outcome
  obtain rfl : n.id = here := (Workflow.node?_eq_some found).2
  have hits := hits_runTick running live mode
  obtain ⟨rest, events, unvisited⟩ : ∃ rest, (d.runTick c mode).events
      = .nodeEvaluated d.execution n.id outcome.next outcome.message :: rest ∧
      rest.filterMap Event.visit? = [] := by
    obtain ⟨result, advance, ran⟩ := runTick_cases running c mode
    rw [ran]
    cases advance with
    | lost absent => simp [live, position] at absent
    | dangling live' position' unknown =>
      cases live.symm.trans live'
      cases position.symm.trans position'
      cases found.symm.trans unknown
    | breakpoint live' position' found' | single live' position' found'
    | proceed live' position' found' | finish live' position' found' =>
      cases live.symm.trans live'
      cases position.symm.trans position'
      cases found.symm.trans found'
      exact ⟨_, rfl, rfl⟩
  refine ⟨rest, events, unvisited, ?_⟩
  simp only [events, List.filterMap_cons, Event.hit?, Event.visit?, unvisited] at hits
  rw [hits]
  cases ahead : w.flagged? outcome.next <;> simp [Workflow.hits, ahead]

/-- What is pending visits the current node, if that is there. All else that it reports is about
the node that comes next. -/
def VisitsCurrent (d : Debugger) (c : Canvas) : Prop :=
  ∀ w here n, d.workflow.bind c.workflow? = some w → d.state.current = some here →
    w.node? here = some n →
    let outcome := n.outcome d.state.values
    ∃ ran rest, d.runPending? c = some ran ∧
      ran.events = .nodeEvaluated d.execution here outcome.next outcome.message :: rest ∧
      rest.filterMap Event.visit? = [] ∧
      rest.filterMap Event.hit? = (w.flagged? outcome.next).toList

theorem visitsCurrent (fit : d.Coherent) {mode : Mode} (pending : d.pending = some (.tick mode))
    (c : Canvas) : d.VisitsCurrent c := by
  intro w here n live position found
  obtain ⟨rest, leaves⟩ := runTick_leaves (fit.running pending) live position found mode
  exact ⟨_, rest, by rw [runPending?, pending]; rfl, leaves⟩

/-- **Each arrival at a breakpoint pauses once, and the pause holds.** After any deeds on any
canvas: a call whose visit leads to a node with a breakpoint, as the canvas is, reports the visit
and then the breakpoint and nothing else, and leaves the run paused before the node with nothing
pending; no breakpoint is reported otherwise. Edits, and attempts to run what is pending, leave a
paused debugger as it is. Once it is let go on, a tick is pending, and that visits the node of the
pause, if there still is one, without reporting its breakpoint again. -/
theorem arrivals_pause_once (c : Canvas) (pace : Pace) (clock : String) (before : List Deed) :
    let canvas := (carryOut c (.initial pace clock) before).1
    let d := (carryOut c (.initial pace clock) before).2.debugger
    (∀ call : Control, Arrivals d canvas (d.obey (call.on canvas))) ∧
    (∀ mode, d.pending = some (.tick mode) → d.VisitsCurrent canvas) ∧
    (d.state.status = .paused → ∀ deeds : List Deed,
      (∀ call, .call call ∈ deeds → call = .runPending) →
      (carryOut canvas d deeds).2 = ⟨d, []⟩) ∧
    (d.state.status = .paused → ∀ deeds : List Deed,
      (∀ call, .call call ∈ deeds → call.releases = true) → (∃ call, .call call ∈ deeds) →
      ∃ mode, (carryOut canvas d deeds).2 = ⟨d.released mode, []⟩ ∧
        (d.released mode).VisitsCurrent (carryOut canvas d deeds).1) := by
  intro canvas d
  have fit : d.Coherent := coherent_carryOut (coherent_initial pace clock) c before
  refine ⟨arrivals_obey fit canvas, fun mode pending => visitsCurrent fit pending canvas,
    fun paused deeds => carryOut_paused fit paused canvas, ?_⟩
  intro paused deeds only any
  obtain ⟨mode, released⟩ := carryOut_release paused canvas only any
  have left : (d.released mode).Coherent := by
    have after := coherent_carryOut fit canvas deeds
    rwa [released] at after
  exact ⟨mode, released, visitsCurrent left rfl _⟩

/-- The ring comes to its breakpoint four times, once while the flag is cleared. -/
example :
    let c : Canvas := ⟨[⟨ring, none⟩], none, {}, {}⟩
    let toggle : Deed := .edit (fun _ => "") (.toggleBreakpoint "ring" "b")
    let round : List Deed := [.call .resume, .call .runPending, .call .runPending]
    let run := carryOut c (initial {} "00:00:00") ([.call (.start "ring"), .call .runPending]
      ++ round ++ [toggle] ++ round ++ [toggle] ++ round)
    run.2.events.filterMap Event.hit? = ["b", "b", "b"] := by
  decide +kernel

end Debugger

end Stepflow
