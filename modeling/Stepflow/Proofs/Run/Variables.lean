import Mathlib.Data.List.Induction
import Stepflow.Proofs.Run.Walk

/-!
# Variables of a run

A run declares the inputs and locals of its workflow, and assignments write. Nothing else touches a
variable before the next start or stop, whatever becomes of the canvas.

* `Node.Assigns`, `Node.update_iff`: what an assignment writes, and that only assignments do;
* `Value.Simple`, `simple_resolve`: the values that expressions have;
* `Debugger.Effect`, `effect_obey`: what one call makes of the variables;
* `Debugger.Gives`, `Debugger.Touches`, `get?_obey`: the same, of one variable;
* `variables_are_last_writes`: so a variable has the value that it was last given in the run.
-/

namespace Stepflow

open Json

/-! Assignments -/

namespace Node

/-- The node assigns the value to a variable when it is evaluated: it has a target, and neither the
target nor the expression is an array or object. Without an expression the value is null. -/
structure Assigns (n : Node) (values : KeyMap Value) (name : String) (value : Value) : Prop where
  kind : n.kind = .assign
  target : n.configText targetKey = .ok (some name)
  filled : name ≠ ""
  value : ∃ expression, n.configText expressionKey = .ok expression ∧
    value = (expression.map (resolve · values)).getD .null

variable {n : Node} {values : KeyMap Value} {name : String} {value : Value}

theorem filledText_eq_some (key : String) :
    n.filledText key = .ok (some name) ↔ n.configText key = .ok (some name) ∧ name ≠ "" := by
  rw [filledText]
  rcases n.configText key with failure | _ | text
  · simp [bind, Except.bind]
  · simp [bind, Except.bind, pure, Except.pure]
  · simp only [bind, Except.bind, pure, Except.pure, Except.ok.injEq, Option.some.injEq,
      Option.filter_eq_some_iff, decide_eq_true_eq]

/-- Only assignments write, and what they do. -/
theorem update_iff :
    (n.outcome values).update = some (name, value) ↔ n.Assigns values name value := by
  have idle (other : n.kind ≠ .assign) : ¬n.Assigns values name value :=
    fun assigns => other assigns.kind
  unfold outcome evaluate
  cases kind : n.kind with
  | start | finish | switch | foreach => simp [idle (by simp [kind]), pass]
  | branch =>
    simp only [idle (by simp [kind]), iff_false]
    unfold evaluateBranch
    cases n.configText expressionKey <;> simp [bind, Except.bind, pure, Except.pure, pass]
  | action =>
    simp only [idle (by simp [kind]), iff_false]
    unfold evaluateAction
    cases n.filledText queryKey <;> simp [bind, Except.bind, pure, Except.pure, pass]
  | assign =>
    dsimp only
    constructor
    · intro written
      cases target : n.filledText targetKey with
      | error failure => simp [evaluateAssign, target, bind, Except.bind, pass] at written
      | ok target' =>
        cases expression : n.configText expressionKey with
        | error failure =>
          simp [evaluateAssign, target, expression, bind, Except.bind, pass] at written
        | ok text =>
          cases target' with
          | none =>
            simp [evaluateAssign, target, expression, bind, Except.bind, pure, Except.pure, pass]
              at written
          | some t =>
            simp only [evaluateAssign, target, expression, bind, Except.bind, pure, Except.pure,
              Option.some.injEq, Prod.mk.injEq] at written
            obtain ⟨rfl, rfl⟩ := written
            obtain ⟨read, filled⟩ := (filledText_eq_some targetKey).1 target
            exact ⟨kind, read, filled, text, expression, rfl⟩
    · rintro ⟨-, target, filled, text, expression, rfl⟩
      have target := (filledText_eq_some targetKey).2 ⟨target, filled⟩
      simp [evaluateAssign, target, expression, bind, Except.bind, pure, Except.pure]

end Node

/-! Values -/

/-- What an expression may have for a value: no array or object, and an integer wherever a number is
one that doubles tell apart from its neighbours. -/
def Json.Value.Simple (v : Value) : Prop :=
  match v.tree with
  | .null | .bool _ | .string _ => True
  | .number (.integer n _) => n.natAbs ≤ maxSafeInteger
  | .number (.double x) => ∀ n, x.toInt? = some n → maxSafeInteger < n.natAbs
  | .array _ | .object _ => False

theorem simple_ofLiteral (x : Double.Finite) : (Value.number (.ofLiteral x)).Simple := by
  unfold Json.Number.ofLiteral
  cases whole : x.toInt? with
  | none =>
    intro n integer
    rw [whole] at integer
    cases integer
  | some n =>
    by_cases safe : n.natAbs ≤ maxSafeInteger
    · simp only [dif_pos safe]
      exact safe
    · simp only [dif_neg safe]
      intro m integer
      rw [whole] at integer
      cases integer
      exact Nat.lt_of_not_le safe

/-- Zero is an integer, so there is no negative one. -/
theorem Json.Value.Simple.ne_negative_zero {v : Value} (simple : v.Simple) :
    v ≠ .number (.double (.zero true)) := by
  rintro rfl
  have above := simple 0 (by decide +kernel)
  exact absurd above (Nat.not_lt_zero _)

theorem of_literal? {expression : String} {n : Number} (literal : literal? expression = some n) :
    ∃ x, n = .ofLiteral x := by
  unfold literal? at literal
  split at literal
  · exact ⟨_, (Option.some.inj literal).symm⟩
  · split at literal
    · exact ⟨_, (Option.some.inj literal).symm⟩
    · cases literal

/-- A variable that is copied was simple before. -/
theorem simple_resolve {values : KeyMap Value}
    (simple : ∀ name value, values.get? name = some value → value.Simple) (expression : String) :
    (resolve expression values).Simple := by
  unfold resolve
  cases literal : literal? expression with
  | some n =>
    obtain ⟨x, rfl⟩ := of_literal? literal
    exact simple_ofLiteral x
  | none =>
    dsimp only
    split
    · trivial
    · split
      · trivial
      · split
        · trivial
        · cases defined : defined? values expression with
          | none => trivial
          | some v => exact simple expression v (Option.filter_eq_some_iff.1 defined).1

theorem Node.Assigns.simple {n : Node} {values : KeyMap Value} {name : String} {value : Value}
    (assigns : n.Assigns values name value)
    (simple : ∀ name value, values.get? name = some value → value.Simple) : value.Simple := by
  obtain ⟨expression, -, rfl⟩ := assigns.value
  cases expression with
  | none => trivial
  | some text => exact simple_resolve simple text

/-! Declarations -/

def Workflow.declared (w : Workflow) : List String := (w.inputs ++ w.locals).map (·.name)

theorem get?_const (names : List String) (value v : Value) (name : String) :
    (KeyMap.ofList (names.map (·, value))).get? name = some v ↔ name ∈ names ∧ v = value := by
  have onto (m : KeyMap Value) :
      (List.foldl (fun m e => m.insert e.1 e.2) m (names.map (·, value))).get? name
        = if name ∈ names then some value else m.get? name := by
    induction names generalizing m with
    | nil => simp
    | cons first rest ih =>
      rw [List.map_cons, List.foldl_cons, ih, KeyMap.get?_insert]
      by_cases later : name ∈ rest <;> simp [later]
  rw [KeyMap.ofList, onto]
  by_cases known : name ∈ names <;> simp [known, eq_comm]

/-- The workflow that the call names, as the canvas is. -/
def Command.workflow? : Command → Option Workflow
  | .start c id | .step c id => c.workflow? id
  | .stop | .resume | .runPending _ => none

namespace Debugger

variable {d : Debugger} {command : Command} {name : String} {value : Value}

/-! One call -/

/-- The node that a tick would evaluate. -/
def found? (d : Debugger) (c : Canvas) : Option Node :=
  (d.workflow.bind c.workflow?).bind fun w => d.state.current.bind w.node?

/-- The node that a call evaluates. -/
def evaluated? (d : Debugger) : Command → Option Node
  | .runPending c =>
    match d.pending with
    | some (.tick _) => d.found? c
    | some .completion | none => none
  | .start _ _ | .stop | .resume | .step _ _ => none

/-- What is reported of an evaluation. -/
def visitOf (d : Debugger) (n : Node) : Visit :=
  ⟨n.id, (n.outcome d.state.values).next, (n.outcome d.state.values).message⟩

/-- The workflow that a call begins a run of. -/
def begun? (d : Debugger) (command : Command) : Option Workflow :=
  if (d.obey command).events.any Event.isStart then command.workflow? else none

/-- The call evaluates a node that assigns the value to the variable. -/
def Stores (d : Debugger) (command : Command) (name : String) (value : Value) : Prop :=
  ∃ n, d.evaluated? command = some n ∧ n.Assigns d.state.values name value

/-- The call begins a run, or discards one. -/
def Clears (d : Debugger) (command : Command) : Prop :=
  (d.begun? command).isSome = true ∨ command = .stop

theorem begun?_of_sameRun (sameRun : ∀ event ∈ (d.obey command).events, event.isStart = false) :
    d.begun? command = none := by
  have unstarted : (d.obey command).events.any Event.isStart = false := by
    simpa using sameRun
  rw [begun?, unstarted]
  rfl

/-- A tick evaluates the node that it finds, reports it and stores what it assigns. -/
theorem runTick_found (running : d.state.status = .running) (c : Canvas) (mode : Mode) :
    let e := d.runTick c mode
    e.events.filterMap Event.visit? = (d.found? c).toList.map d.visitOf ∧
    (∀ event ∈ e.events, event.isStart = false) ∧
    e.debugger.state.values =
      ((d.found? c).map fun n => (d.state.assign (n.outcome d.state.values).update).values).getD
        d.state.values := by
  obtain ⟨result, advance, ran⟩ := runTick_cases running c mode
  intro e
  have ran : e = d.report result := ran
  rw [ran]
  cases advance with
  | lost absent =>
    have nothing : d.found? c = none := by
      rcases absent with gone | nowhere
      · simp [found?, gone]
      · cases here : d.workflow.bind c.workflow? <;> simp [found?, here, nowhere]
    rw [nothing]
    exact ⟨rfl, by simp [report, RunState.halt, outcomeEvents, Event.isStart], rfl⟩
  | dangling live position unknown =>
    have nothing : d.found? c = none := by simp [found?, live, position, unknown]
    rw [nothing]
    exact ⟨rfl, by simp [report, RunState.halt, outcomeEvents, Event.isStart], rfl⟩
  | @breakpoint w id n next live position found =>
    have here : d.found? c = some n := by simp [found?, live, position, found]
    rw [here]
    exact ⟨rfl, by simp [report, outcomeEvents, Event.isStart], rfl⟩
  | @single w id n live position found | @finish w id n live position found =>
    have here : d.found? c = some n := by simp [found?, live, position, found]
    rw [here]
    exact ⟨rfl, by simp [report, outcomeEvents, Event.isStart], rfl⟩
  | @proceed w id next n live position found =>
    have here : d.found? c = some n := by simp [found?, live, position, found]
    rw [here]
    exact ⟨rfl, by simp [report, outcomeEvents, Event.isStart], rfl⟩

/-- What becomes of the variables in a call, and what it reports of evaluations. -/
inductive Effect (d : Debugger) (command : Command) : KeyMap Value → List Visit → Prop where
  | begun {w : Workflow} (begins : d.begun? command = some w)
      (unvisited : d.evaluated? command = none) :
      Effect d command (.ofList (w.declared.map (·, .null))) []
  | stopped (stop : command = .stop) (unvisited : d.evaluated? command = none) :
      Effect d command .empty []
  | visited {n : Node} (unbegun : ¬d.Clears command) (found : d.evaluated? command = some n) :
      Effect d command (d.state.assign (n.outcome d.state.values).update).values [d.visitOf n]
  | kept (unbegun : ¬d.Clears command) (unvisited : d.evaluated? command = none) :
      Effect d command d.state.values []

theorem effect_of_start? {c : Canvas} {id : String} {e : Emission}
    (begun : d.start? c id = some e) :
    ∃ w, c.workflow? id = some w ∧ (∃ event ∈ e.events, event.isStart = true) ∧
      e.events.filterMap Event.visit? = [] ∧
      e.debugger.state.values = .ofList (w.declared.map (·, .null)) := by
  obtain ⟨w, start, found, -, s, -, -, -, values, rfl⟩ := start?_cases begun
  refine ⟨w, found, ⟨_, .head _, rfl⟩, rfl, values.trans ?_⟩
  rw [Workflow.declared, List.map_map]
  rfl

theorem not_clears (sameRun : ∀ event ∈ (d.obey command).events, event.isStart = false)
    (ongoing : command ≠ .stop) : ¬d.Clears command := by
  rintro (begins | stop)
  · rw [begun?_of_sameRun sameRun] at begins
    cases begins
  · exact ongoing stop

/-- A call that emits nothing and keeps the variables. -/
theorem effect_quiet {d' : Debugger} (same : d.obey command = ⟨d', []⟩)
    (values : d'.state.values = d.state.values) (ongoing : command ≠ .stop)
    (unvisited : d.evaluated? command = none) :
    d.Effect command (d.obey command).debugger.state.values
      ((d.obey command).events.filterMap Event.visit?) := by
  have unbegun : ¬d.Clears command := not_clears (by simp [same]) ongoing
  rw [same, values]
  exact .kept unbegun unvisited

theorem effect_runPending (fit : d.Coherent) (c : Canvas) :
    d.Effect (.runPending c) (d.obey (.runPending c)).debugger.state.values
      ((d.obey (.runPending c)).events.filterMap Event.visit?) := by
  cases pending : d.pending with
  | none =>
    have unvisited : d.evaluated? (.runPending c) = none := by rw [evaluated?, pending]
    exact effect_quiet (obey_runPending_none pending c) rfl (by simp) unvisited
  | some step =>
    have running := fit.running pending
    cases step with
    | completion =>
      have same := obey_runPending_completion pending c
      have values : d.runCompletion.debugger.state.values = d.state.values := by
        rw [runCompletion, if_pos running, RunState.complete, if_pos running]
        rfl
      have finished : d.runCompletion.events = [.completed d.execution] := by
        rw [runCompletion, if_pos running]
      rw [same, values, finished]
      refine .kept (not_clears ?_ (by simp)) (by rw [evaluated?, pending])
      rw [same, finished]
      exact List.forall_mem_singleton.2 rfl
    | tick mode =>
      have same := obey_runPending_tick pending c
      have evaluated : d.evaluated? (.runPending c) = d.found? c := by rw [evaluated?, pending]
      obtain ⟨visits, sameRun, values⟩ := runTick_found running c mode
      have unbegun : ¬d.Clears (.runPending c) := not_clears (by rwa [same]) (by simp)
      rw [same, visits, values]
      cases found : d.found? c with
      | none => exact .kept unbegun (by rw [evaluated, found])
      | some n => exact .visited unbegun (by rw [evaluated, found])

theorem effect_obey (fit : d.Coherent) (command : Command) :
    d.Effect command (d.obey command).debugger.state.values
      ((d.obey command).events.filterMap Event.visit?) := by
  have begins {w : Workflow} (named : command.workflow? = some w)
      (starts : ∃ event ∈ (d.obey command).events, event.isStart = true) :
      d.begun? command = some w := by
    rw [begun?, if_pos (List.any_eq_true.2 starts), named]
  cases command with
  | start c id =>
    cases started : d.start? c id with
    | none => exact effect_quiet (obey_start_refused started) rfl (by simp) rfl
    | some e =>
      obtain ⟨w, found, starts, unvisited, values⟩ := effect_of_start? started
      rw [obey_start started] at begins ⊢
      rw [unvisited, values]
      exact .begun (begins found starts) rfl
  | step c id =>
    by_cases idle : d.state.status = .idle
    · cases started : d.start? c id with
      | none => exact effect_quiet (obey_step_refused idle started) rfl (by simp) rfl
      | some e =>
        obtain ⟨w, found, ⟨event, member, starts⟩, unvisited, values⟩ :=
          effect_of_start? started
        rw [obey_step_idle idle started] at begins ⊢
        dsimp only at begins ⊢
        rw [List.filterMap_append, unvisited, values]
        exact .begun (begins found ⟨event, List.mem_append_left _ member, starts⟩) rfl
    · exact effect_quiet (obey_step_awake idle c id) rfl (by simp) rfl
  | stop =>
    have silent : d.stop.events.filterMap Event.visit? = [] := by
      unfold stop
      dsimp only
      split <;> rfl
    rw [obey, silent]
    exact .stopped rfl rfl
  | resume =>
    by_cases paused : d.state.status = .paused
    · exact effect_quiet (obey_resume_paused paused) rfl (by simp) rfl
    · exact effect_quiet (obey_resume_refused paused) rfl (by simp) rfl
  | runPending c => exact effect_runPending fit c

theorem Effect.visits_eq {values : KeyMap Value} {visits : List Visit}
    (effect : d.Effect command values visits) :
    visits = (d.evaluated? command).toList.map d.visitOf := by
  cases effect with
  | begun _ unvisited | stopped _ unvisited | kept _ unvisited =>
    rw [unvisited]
    rfl
  | visited _ found =>
    rw [found]
    rfl

/-- The call gives the variable the value: it stores it, or it begins a run that declares the
variable, with null for no value. -/
def Gives (d : Debugger) (command : Command) (name : String) (value : Value) : Prop :=
  d.Stores command name value ∨
    value = .null ∧ ∃ w, d.begun? command = some w ∧ name ∈ w.declared

/-- The call puts an end to what the variable was. -/
def Touches (d : Debugger) (command : Command) (name : String) : Prop :=
  d.Clears command ∨ ∃ value, d.Stores command name value

theorem not_stores (unvisited : d.evaluated? command = none) :
    ¬d.Stores command name value := by
  rintro ⟨n, found, -⟩
  rw [unvisited] at found
  cases found

theorem stores_iff {n : Node} (found : d.evaluated? command = some n) :
    d.Stores command name value ↔ (n.outcome d.state.values).update = some (name, value) := by
  rw [Node.update_iff]
  constructor
  · rintro ⟨m, found', assigns⟩
    cases found.symm.trans found'
    exact assigns
  · intro assigns
    exact ⟨n, found, assigns⟩

theorem gives_iff (unbegun : ¬d.Clears command) :
    d.Gives command name value ↔ d.Stores command name value := by
  constructor
  · rintro (stores | ⟨-, w, begins, -⟩)
    · exact stores
    · exact absurd (.inl (by rw [begins]; rfl)) unbegun
  · exact .inl

theorem touches_iff (unbegun : ¬d.Clears command) :
    d.Touches command name ↔ ∃ v, d.Stores command name v :=
  or_iff_right unbegun

/-- After a call a variable has what the call gives it, and else, if the call does not touch it,
what it had. -/
theorem get?_obey (fit : d.Coherent) (command : Command) (name : String) (value : Value) :
    (d.obey command).debugger.state.values.get? name = some value ↔
      d.Gives command name value ∨
        ¬d.Touches command name ∧ d.state.values.get? name = some value := by
  have effect := d.effect_obey fit command
  generalize (d.obey command).debugger.state.values = after at effect ⊢
  generalize (d.obey command).events.filterMap Event.visit? = visits at effect
  cases effect with
  | @begun w begins unvisited =>
    have clears : d.Clears command := .inl (by rw [begins]; rfl)
    rw [get?_const]
    constructor
    · rintro ⟨known, rfl⟩
      exact .inl (.inr ⟨rfl, w, begins, known⟩)
    · rintro ((stores | ⟨rfl, v, begins', known⟩) | ⟨untouched, -⟩)
      · exact absurd stores (not_stores unvisited)
      · cases begins.symm.trans begins'
        exact ⟨known, rfl⟩
      · exact absurd (.inl clears) untouched
  | stopped stop unvisited =>
    have unbegun : d.begun? command = none := by
      rw [stop, begun?]
      split <;> rfl
    rw [KeyMap.get?_empty]
    constructor
    · exact nofun
    · rintro ((stores | ⟨-, v, begins, -⟩) | ⟨untouched, -⟩)
      · exact absurd stores (not_stores unvisited)
      · rw [unbegun] at begins
        cases begins
      · exact absurd (.inl (.inr stop)) untouched
  | @visited n unbegun found =>
    rw [gives_iff unbegun, touches_iff unbegun, RunState.values_assign]
    cases update : (n.outcome d.state.values).update with
    | none =>
      have unstored (v : Value) : ¬d.Stores command name v := by
        rw [stores_iff found, update]
        exact nofun
      simp [unstored]
    | some written =>
      obtain ⟨target, v⟩ := written
      have stored (u : Value) : d.Stores command name u ↔ name = target ∧ u = v := by
        rw [stores_iff found, update, Option.some.injEq, Prod.mk.injEq]
        exact and_congr eq_comm eq_comm
      dsimp only
      rw [KeyMap.get?_insert]
      simp only [stored]
      by_cases own : name = target <;> simp [own, eq_comm]
  | kept unbegun unvisited =>
    have unstored (v : Value) : ¬d.Stores command name v := not_stores unvisited
    rw [gives_iff unbegun, touches_iff unbegun]
    simp [unstored]

/-- A call that neither clears the variables nor stores a value changes none of them. -/
theorem values_obey (fit : d.Coherent) (unbegun : ¬d.Clears command)
    (unstored : ∀ name value, ¬d.Stores command name value) :
    (d.obey command).debugger.state.values = d.state.values := by
  have effect := d.effect_obey fit command
  generalize (d.obey command).debugger.state.values = after at effect ⊢
  generalize (d.obey command).events.filterMap Event.visit? = visits at effect
  cases effect with
  | begun begins => exact absurd (.inl (by rw [begins]; rfl)) unbegun
  | stopped stop => exact absurd (.inr stop) unbegun
  | visited _ found =>
    rw [RunState.values_assign]
    cases update : (Node.outcome _ d.state.values).update with
    | none => rfl
    | some written => exact absurd ((stores_iff found).2 update) (unstored _ _)
  | kept => rfl

/-! Runs -/

/-- `p` holds of the `k`-th call and of the debugger that it is made to. -/
def Occurs (d : Debugger) (commands : List Command) (k : Nat)
    (p : Debugger → Command → Prop) : Prop :=
  ∃ command, commands[k]? = some command ∧ p (d.follow (commands.take k)).debugger command

theorem occurs_concat (d : Debugger) (commands : List Command) (last : Command) (k : Nat)
    (p : Debugger → Command → Prop) :
    d.Occurs (commands ++ [last]) k p ↔
      d.Occurs commands k p ∨ k = commands.length ∧ p (d.follow commands).debugger last := by
  unfold Occurs
  by_cases earlier : k < commands.length
  · rw [List.getElem?_append_left earlier, List.take_append_of_le_length (Nat.le_of_lt earlier)]
    simp [Nat.ne_of_lt earlier]
  · have none : commands[k]? = none := List.getElem?_eq_none (Nat.le_of_not_lt earlier)
    by_cases now : k = commands.length
    · subst now
      simp
    · have beyond : (commands ++ [last])[k]? = .none := by
        rw [List.getElem?_eq_none]
        rw [List.length_append, List.length_singleton]
        omega
      simp [none, beyond, now]

theorem length_of_occurs {commands : List Command} {k : Nat} {p : Debugger → Command → Prop}
    (occurs : d.Occurs commands k p) : k < commands.length := by
  obtain ⟨command, here, -⟩ := occurs
  exact (List.getElem?_eq_some_iff.1 here).1

/-- A call that `p` holds of was made, and none after it touched the variable. -/
def Last (d : Debugger) (commands : List Command) (name : String)
    (p : Debugger → Command → Prop) : Prop :=
  ∃ k, d.Occurs commands k p ∧ ∀ later > k, ¬d.Occurs commands later (·.Touches · name)

theorem last_concat (d : Debugger) (commands : List Command) (last : Command) (name : String)
    (p : Debugger → Command → Prop) :
    d.Last (commands ++ [last]) name p ↔
      p (d.follow commands).debugger last ∨
        ¬(d.follow commands).debugger.Touches last name ∧ d.Last commands name p := by
  simp only [Last, occurs_concat]
  constructor
  · rintro ⟨k, before | ⟨rfl, now⟩, untouched⟩
    · have earlier := length_of_occurs before
      refine .inr ⟨fun touches => ?_, k, before, fun later after touched => ?_⟩
      · exact untouched commands.length earlier (.inr ⟨rfl, touches⟩)
      · exact untouched later after (.inl touched)
    · exact .inl now
  · rintro (now | ⟨clear, k, before, untouched⟩)
    · refine ⟨commands.length, .inr ⟨rfl, now⟩, ?_⟩
      rintro later after (touched | ⟨rfl, -⟩)
      · exact absurd (length_of_occurs touched) (Nat.lt_asymm after)
      · exact absurd after (Nat.lt_irrefl _)
    · refine ⟨k, .inl before, ?_⟩
      rintro later after (touched | ⟨-, touches⟩)
      · exact untouched later after touched
      · exact clear touches

theorem last_gives (d : Debugger) (commands : List Command) (name : String) (value : Value) :
    d.Last commands name (·.Gives · name value) ↔
      d.Last commands name (·.Stores · name value) ∨
        value = .null ∧ d.Last commands name fun d command =>
          ∃ w, d.begun? command = some w ∧ name ∈ w.declared := by
  constructor
  · rintro ⟨k, ⟨command, here, stores | ⟨null, begins⟩⟩, untouched⟩
    · exact .inl ⟨k, ⟨command, here, stores⟩, untouched⟩
    · exact .inr ⟨null, k, ⟨command, here, begins⟩, untouched⟩
  · rintro (⟨k, ⟨command, here, stores⟩, untouched⟩ |
      ⟨null, k, ⟨command, here, begins⟩, untouched⟩)
    · exact ⟨k, ⟨command, here, .inl stores⟩, untouched⟩
    · exact ⟨k, ⟨command, here, .inr ⟨null, begins⟩⟩, untouched⟩

theorem follow_concat (d : Debugger) (commands : List Command) (last : Command) :
    (d.follow (commands ++ [last])).debugger
      = ((d.follow commands).debugger.obey last).debugger := by
  rw [follow_append]
  rfl

section

variable (pace : Pace) (clock : String)

theorem get?_follow (commands : List Command) (name : String) (value : Value) :
    ((initial pace clock).follow commands).debugger.state.values.get? name = some value ↔
      (initial pace clock).Last commands name (·.Gives · name value) := by
  induction commands using List.reverseRecOn generalizing value with
  | nil =>
    have unset : ((initial pace clock).follow []).debugger.state.values = .empty := rfl
    rw [unset, KeyMap.get?_empty]
    constructor
    · exact nofun
    · rintro ⟨k, occurs, -⟩
      exact absurd (length_of_occurs occurs) (Nat.not_lt_zero k)
  | append_singleton commands last ih =>
    rw [follow_concat, get?_obey (coherent_follow (coherent_initial pace clock) commands),
      last_concat, ih]

theorem simple_follow (commands : List Command) (name : String) (value : Value)
    (holds : ((initial pace clock).follow commands).debugger.state.values.get? name = some value) :
    value.Simple := by
  induction commands using List.reverseRecOn generalizing name value with
  | nil => cases holds
  | append_singleton commands last ih =>
    rw [follow_concat, get?_obey (coherent_follow (coherent_initial pace clock) commands)] at holds
    rcases holds with (⟨n, -, assigns⟩ | ⟨rfl, -⟩) | ⟨-, before⟩
    · exact assigns.simple ih
    · trivial
    · exact ih name value before

end

/-- A variable is given its value by the last assignment to it that was evaluated, and is null
before any, if the workflow that the run began with declares it. Starts and stops apart, no call
but the evaluation of an assignment changes a variable. -/
theorem variables_are_last_writes (pace : Pace) (clock : String) (commands : List Command) :
    let first := initial pace clock
    let d := (first.follow commands).debugger
    (∀ name value, d.state.values.get? name = some value ↔
      first.Last commands name (·.Stores · name value) ∨
        value = .null ∧ first.Last commands name fun d command =>
          ∃ w, d.begun? command = some w ∧ name ∈ w.declared) ∧
    (∀ name value, d.state.values.get? name = some value →
      value.Simple ∧ value ≠ .number (.double (.zero true))) ∧
    (∀ command, ¬d.Clears command → (∀ name value, ¬d.Stores command name value) →
      (d.obey command).debugger.state.values = d.state.values) ∧
    (∀ command, (d.obey command).events.filterMap Event.visit?
      = (d.evaluated? command).toList.map d.visitOf) ∧
    (d.obey .stop).debugger.state.values = .empty := by
  intro first d
  have fit : d.Coherent := coherent_follow (coherent_initial pace clock) commands
  refine ⟨fun name value => ?_, fun name value holds => ?_, fun command => ?_, fun command => ?_,
    rfl⟩
  · exact (get?_follow pace clock commands name value).trans (last_gives ..)
  · have simple := simple_follow pace clock commands name value holds
    exact ⟨simple, simple.ne_negative_zero⟩
  · exact values_obey fit
  · exact (effect_obey fit command).visits_eq

end Debugger

end Stepflow
