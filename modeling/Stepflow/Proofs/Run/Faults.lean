import Stepflow.Proofs.Run.Outcomes
import Stepflow.Proofs.Run.Variables

/-!
# Nodes that cannot be evaluated

A node is at fault when a config field that its kind reads is an array or an object. A tick reports
the fault and goes on, so only a workflow or a node that is missing halts a run.

* `Node.Faulty`, `Node.evaluate_eq_error_iff`: which field is at fault;
* `RunState.tick_found`, `RunState.tick_halts_iff`: what a tick does that finds a node, and when it
  finds none;
* `RunState.faults_never_halt`: both together, of every tick.
-/

namespace Stepflow

open Json

def Json.Value.isStructured (v : Value) : Bool :=
  match v.tree with
  | .array _ | .object _ => true
  | .null | .bool _ | .number _ | .string _ => false

/-- The config fields that nodes of the kind read, in this order. -/
def NodeKind.reads : NodeKind → List String
  | .assign => [Node.targetKey, Node.expressionKey]
  | .branch => [Node.expressionKey]
  | .action => [Node.queryKey]
  | .start | .finish | .switch | .foreach => []

namespace Node

/-- The config field is an array or an object. -/
def structured (n : Node) (key : String) : Bool := (n.config.get? key).any Value.isStructured

/-- The field that keeps the node from being evaluated. -/
def fault? (n : Node) : Option String := n.kind.reads.find? n.structured

variable {n : Node} {values : KeyMap Value} {key : String} {failure : Failure}

theorem configText_eq_error_iff :
    n.configText key = .error failure ↔
      n.structured key = true ∧ failure = .invalidConfig n.id key := by
  unfold configText structured
  cases n.config.get? key with
  | none => simp
  | some value =>
    simp only [Option.any_some, Value.isStructured]
    cases value.tree with
    | null | number | string => simp
    | bool b => cases b <;> simp
    | array | object => simp [eq_comm]

theorem filledText_eq_error_iff :
    n.filledText key = .error failure ↔
      n.structured key = true ∧ failure = .invalidConfig n.id key := by
  rw [← configText_eq_error_iff, filledText]
  cases n.configText key <;> simp [bind, Except.bind, pure, Except.pure]

theorem filledText_ok_iff :
    (∃ text, n.filledText key = .ok text) ↔ n.structured key = false := by
  cases read : n.filledText key with
  | error failure => simp [(filledText_eq_error_iff.1 read).1]
  | ok text =>
    have readable : n.structured key ≠ true := fun unreadable => by
      cases read.symm.trans (filledText_eq_error_iff.2 ⟨unreadable, rfl⟩)
    simpa using readable

theorem fault?_none (kind : n.kind.reads = []) : n.fault? = none := by rw [fault?, kind]; rfl

theorem fault?_only (kind : n.kind.reads = [key]) :
    n.fault? = if n.structured key then some key else none := by
  rw [fault?, kind, List.find?_singleton]

theorem fault?_first {key' : String} (kind : n.kind.reads = [key, key']) :
    n.fault? = if n.structured key then some key
      else if n.structured key' then some key' else none := by
  rw [fault?, kind, List.find?_cons, List.find?_singleton]
  cases n.structured key <;> rfl

/-- Nothing else that a node holds keeps it from being evaluated, and the variables never do. -/
theorem evaluate_eq_error_iff :
    n.evaluate values = .error failure ↔
      ∃ key, n.fault? = some key ∧ failure = .invalidConfig n.id key := by
  unfold evaluate
  cases kind : n.kind with
  | start | finish | switch | foreach =>
    rw [fault?_none (by rw [kind]; rfl)]
    simp
  | branch =>
    have read : n.evaluateBranch values = .error failure ↔
        n.configText expressionKey = .error failure := by
      unfold evaluateBranch
      cases n.configText expressionKey <;> simp [bind, Except.bind, pure, Except.pure]
    rw [read, configText_eq_error_iff, fault?_only (by rw [kind]; rfl)]
    simp
  | action =>
    have read : n.evaluateAction = .error failure ↔ n.filledText queryKey = .error failure := by
      unfold evaluateAction
      cases n.filledText queryKey <;> simp [bind, Except.bind, pure, Except.pure]
    rw [read, filledText_eq_error_iff, fault?_only (by rw [kind]; rfl)]
    simp
  | assign =>
    -- the expression is read only once the target has been
    have read : n.evaluateAssign values = .error failure ↔
        n.filledText targetKey = .error failure ∨
          (∃ target, n.filledText targetKey = .ok target) ∧
            n.configText expressionKey = .error failure := by
      unfold evaluateAssign
      rcases n.filledText targetKey with f | _ | name <;>
        cases n.configText expressionKey <;> simp [bind, Except.bind, pure, Except.pure]
    rw [read, filledText_eq_error_iff, filledText_ok_iff, configText_eq_error_iff,
      fault?_first (by rw [kind]; rfl)]
    cases n.structured targetKey <;> simp

theorem outcome_faulty (fault : n.fault? = some key) :
    n.outcome values = n.pass ("Error: " ++ (Failure.invalidConfig n.id key).message) := by
  rw [outcome, evaluate_eq_error_iff.2 ⟨key, fault, rfl⟩]

end Node

namespace RunState

/-- What a tick that finds `n` makes of a run, and what it reports. -/
structure Passes (s : RunState) (n : Node) (visit : Visit) (r : TickResult) : Prop where
  done : r.continuation ≠ .skipped
  alive : ∀ reason, r.continuation ≠ .halted reason
  reported : r.visit = some visit
  node : visit.node = n.id
  moved : r.state.current = visit.next
  connected : ∀ target, visit.next = some target → target ∈ n.connections
  ends : visit.next = none ↔ n.kind = .finish ∨ n.connections = []
  faulty : ∀ key, n.fault? = some key →
    r.state.values = s.values ∧ visit.next = n.connections.head? ∧
      visit.message = "Error: " ++ ("Invalid config '" ++ key ++ "' on node '" ++ n.id ++
        "': expected a string, number or boolean")
  assigned : ∀ name, r.state.values.get? name ≠ s.values.get? name →
    n.fault? = none ∧ n.kind = .assign ∧ n.configText Node.targetKey = .ok (some name)

variable {s : RunState} {w : Option Workflow} (p : Pace) (clock : String) (mode : Mode)

/-- Whatever follows it, the visit is the same. -/
theorem tick_evaluates {v : Workflow} {id : String} {n : Node} (running : s.status = .running)
    (live : w = some v) (position : s.current = some id) (found : v.node? id = some n) :
    let r := s.tick p clock w mode
    r.continuation ≠ .skipped ∧ (∀ reason, r.continuation ≠ .halted reason) ∧
      r.visit = some (s.visit p clock n).2 ∧
      r.state.position = (s.visit p clock n).1.position := by
  have advance := advance_tick p clock w mode running
  intro r
  change Advance s p clock w mode r at advance
  generalize r = r at advance
  cases advance with
  | lost absent => simp [live, position] at absent
  | dangling live' position' unknown =>
    cases live.symm.trans live'
    cases position.symm.trans position'
    cases found.symm.trans unknown
  | breakpoint live' position' found' | single live' position' found'
  | proceed live' position' found' | finish live' position' found' =>
    cases live.symm.trans live'
    cases position.symm.trans position'
    cases found.symm.trans found'
    exact ⟨nofun, nofun, rfl, rfl⟩

theorem tick_passes {v : Workflow} {id : String} {n : Node} (running : s.status = .running)
    (live : w = some v) (position : s.current = some id) (found : v.node? id = some n) :
    Passes s n (s.visit p clock n).2 (s.tick p clock w mode) := by
  obtain ⟨done, alive, reported, same⟩ :=
    tick_evaluates p clock mode running live position found
  have moved := congrArg Position.current same
  have values := congrArg Position.values same
  refine {
    done, alive, reported, moved
    node := rfl
    connected := fun target leads => Node.mem_of_outcome leads
    ends := Node.outcome_ends_iff
    faulty := fun key fault => ?_
    assigned := fun name changed => ?_ }
  · rw [position_visit, Node.outcome_faulty fault] at values
    have outcome : (s.visit p clock n).2
        = ⟨n.id, (n.outcome s.values).next, (n.outcome s.values).message⟩ := rfl
    rw [outcome, Node.outcome_faulty fault]
    exact ⟨values, rfl, rfl⟩
  · have before : s.position.values = s.values := rfl
    change (s.tick p clock w mode).state.values = _ at values
    rw [values, position_visit, Position.take] at changed
    dsimp only at changed
    cases update : (n.outcome s.values).update with
    | none => simp [update, before] at changed
    | some written =>
      obtain ⟨target, value⟩ := written
      have assigns := Node.update_iff.1 update
      refine ⟨?_, assigns.kind, ?_⟩
      · refine Option.eq_none_iff_forall_ne_some.2 fun key fault => ?_
        rw [Node.outcome_faulty fault] at update
        cases update
      · have own : name = target := by
          by_contra other
          simp [update, before, other] at changed
        rw [own]
        exact assigns.target

theorem tick_halts_iff :
    (∃ reason, (s.tick p clock w mode).continuation = .halted reason) ↔
      s.status = .running ∧ (w = none ∨ s.current = none ∨
        ∃ v id, w = some v ∧ s.current = some id ∧ v.node? id = none) := by
  by_cases running : s.status = .running
  · have advance := advance_tick p clock w mode running
    rw [and_iff_right running]
    constructor
    · rintro ⟨reason, halted⟩
      generalize s.tick p clock w mode = r at advance halted
      cases advance with
      | lost absent => exact absent.imp_right .inl
      | dangling live position unknown => exact .inr (.inr ⟨_, _, live, position, unknown⟩)
      | breakpoint | single | proceed | finish => cases halted
    · intro missing
      generalize s.tick p clock w mode = r at advance
      cases advance with
      | lost | dangling => exact ⟨_, rfl⟩
      | breakpoint live position found | single live position found
      | proceed live position found | finish live position found =>
        rcases missing with gone | nowhere | ⟨v, id, live', position', unknown⟩
        · cases live.symm.trans gone
        · cases position.symm.trans nowhere
        · cases live.symm.trans live'
          cases position.symm.trans position'
          cases found.symm.trans unknown
  · have skipped : s.tick p clock w mode = ⟨s, .skipped, none⟩ := by
      unfold tick
      exact if_pos running
    rw [skipped]
    simp [running]

/-- **A node at fault never halts a run.** A tick that finds a node passes it, and an evaluation
fails exactly when a field that the kind of the node reads cannot be read as text. A tick halts only
where there is no node to find. -/
theorem faults_never_halt (s : RunState) (p : Pace) (clock : String) (w : Option Workflow)
    (mode : Mode) :
    let r := s.tick p clock w mode
    (∀ v id n, s.status = .running → w = some v → s.current = some id → v.node? id = some n →
      ∃ visit, Passes s n visit r) ∧
    (∀ n : Node, (∃ failure, n.evaluate s.values = .error failure) ↔ n.fault?.isSome = true) ∧
    ((∃ reason, r.continuation = .halted reason) ↔
      s.status = .running ∧ (w = none ∨ s.current = none ∨
        ∃ v id, w = some v ∧ s.current = some id ∧ v.node? id = none)) := by
  intro r
  refine ⟨fun v id n running live position found => ?_, fun n => ?_, tick_halts_iff ..⟩
  · exact ⟨_, tick_passes p clock mode running live position found⟩
  · rw [Option.isSome_iff_exists]
    constructor
    · rintro ⟨failure, failed⟩
      obtain ⟨key, fault, -⟩ := Node.evaluate_eq_error_iff.1 failed
      exact ⟨key, fault⟩
    · rintro ⟨key, fault⟩
      exact ⟨_, Node.evaluate_eq_error_iff.2 ⟨key, fault, rfl⟩⟩

/-- An assignment that can read neither its target nor its expression. -/
def snag : Node :=
  { Node.ofKind "a" .assign (.ofInt 0) (.ofInt 0) with
    connections := ["b", "c"]
    config := .ofList [(Node.targetKey, .array []), (Node.expressionKey, .object .empty)] }

theorem snag_never_halts :
    let w : Workflow := ⟨"w", "Snagged", .server, [], [], [], [snag]⟩
    let s : RunState := ⟨.running, some "a", .empty, []⟩
    ∃ visit, Passes s snag visit (s.tick {} "00:00:00" (some w) .single) ∧
      visit.next = some "b" ∧
      visit.message = "Error: Invalid config 'targetVar' on node 'a': " ++
        "expected a string, number or boolean" := by
  intro w s
  have fault : snag.fault? = some Node.targetKey := rfl
  obtain ⟨visit, passes⟩ := (faults_never_halt s {} "00:00:00" (some w) .single).1 w "a" snag
    rfl rfl rfl rfl
  obtain ⟨-, next, message⟩ := passes.faulty _ fault
  exact ⟨visit, passes, next, message.trans (by decide +kernel)⟩

end RunState

end Stepflow
