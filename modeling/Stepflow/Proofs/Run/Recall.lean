import Stepflow.Proofs.Run.Faults

/-!
# What was assigned is what is read

A condition and an assignment read the same variables, but they tell names from literals in their
own ways. A value that was assigned is what either of them finds, however long ago that was, unless
it takes the name for something else.

* `Value.Falsy`, `isTruthy_iff`: what a condition takes for false;
* `IsName`, `resolve_name`: what an assignment takes for a variable;
* `recall_obey`, `recall_follow`: a variable stays as it is until a call touches it;
* `assigned_is_read`: so a branch goes by the value that was assigned, and a copy stores it.
-/

namespace Stepflow

open Json

/-! Conditions -/

theorem integerRange_zero : IntegerRange 0 := by decide

namespace Json.Value

/-- What a condition takes for false: null, false, zero of either kind, and empty text. -/
inductive Falsy : Value → Prop where
  | null : Falsy .null
  | no : Falsy (.bool false)
  | zero : Falsy (.number (.integer 0 integerRange_zero))
  | zeroDouble (negative : Bool) : Falsy (.number (.double (.zero negative)))
  | blank : Falsy (.string "")

theorem falsy_number_iff (n : Number) : (number n).Falsy ↔ n.isZero = true := by
  constructor
  · intro falsy
    generalize same : number n = v at falsy
    cases falsy with
    | null | no | blank => cases same
    | zero | zeroDouble =>
      cases same
      rfl
  · intro zero
    cases n with
    | integer n range =>
      obtain rfl : n = 0 := of_decide_eq_true zero
      exact .zero
    | double x =>
      obtain ⟨negative, units, fits⟩ := x
      obtain rfl : units = 0 := of_decide_eq_true zero
      exact .zeroDouble negative

theorem isTruthy_iff (v : Value) : v.isTruthy = true ↔ ¬v.Falsy := by
  obtain ⟨tree, ascending⟩ := v
  cases tree with
  | null => exact iff_of_false Bool.false_ne_true (not_not_intro .null)
  | bool b =>
    cases b with
    | true => exact iff_of_true rfl (by rintro ⟨⟩)
    | false => exact iff_of_false Bool.false_ne_true (not_not_intro .no)
  | number n =>
    have whole : (⟨.number n, ascending⟩ : Value) = number n := rfl
    rw [whole, falsy_number_iff, isTruthy]
    simp [number]
  | string s =>
    by_cases empty : s = ""
    · subst empty
      exact iff_of_false Bool.false_ne_true (not_not_intro .blank)
    · refine iff_of_true (decide_eq_true empty) ?_
      rintro ⟨⟩
      exact empty rfl
  | array | object => exact iff_of_true rfl (by rintro ⟨⟩)

end Json.Value

theorem holds_iff {name : String} {values : KeyMap Value} {value : Value}
    (read : values.get? name = some value) :
    holds name values = true ↔ name = "true" ∨ ¬value.Falsy := by
  rw [holds, read, Option.any_some, Bool.or_eq_true, decide_eq_true_iff, Value.isTruthy_iff]

/-- A branch goes to its first connection if its condition holds, else to the second, and for want
of it to the first. -/
theorem Node.outcome_branch {n : Node} {condition : String} (kind : n.kind = .branch)
    (text : n.configText expressionKey = .ok (some condition)) (values : KeyMap Value) :
    (n.outcome values).next =
      if holds condition values then n.connections[0]?
      else n.connections[1]?.or n.connections[0]? := by
  simp only [outcome, evaluate, kind, evaluateBranch, text, bind, Except.bind, pure, Except.pure,
    primary?, List.head?_eq_getElem?, Option.any_some]

/-! Names -/

/-- What an assignment takes for the name of a variable: a text that is neither blank nor a finite
number nor a truth value, and that does not begin with a quote. -/
structure IsName (text : String) : Prop where
  filled : trim text.toList ≠ []
  unnumbered : ∀ d, Decimal.ofChars? (trim text.toList) = some d → ∀ x, d.toDouble ≠ .finite x
  untrue : text ≠ "true"
  unfalse : text ≠ "false"
  unquoted : text.toList.head? ≠ some '"'

theorem IsName.literal? {text : String} (name : IsName text) : literal? text = none := by
  unfold Stepflow.literal?
  split
  · rename_i blank
    exact absurd blank name.filled
  · split
    · rename_i x number
      obtain ⟨d, spelled, finite⟩ := Option.map_eq_some_iff.1 number
      exact absurd finite (name.unnumbered d spelled x)
    · rfl

theorem resolve_name {name : String} {values : KeyMap Value} {value : Value} (named : IsName name)
    (read : values.get? name = some value) (set : value ≠ .null) : resolve name values = value := by
  have known : value.isNull = false := by
    obtain ⟨tree, ascending⟩ := value
    cases tree with
    | null => exact absurd rfl set
    | bool | number | string | array | object => rfl
  have defined : defined? values name = some value := by
    rw [defined?, read]
    simp [Option.filter, known]
  rw [resolve, named.literal?]
  dsimp only
  rw [if_neg named.untrue, if_neg named.unfalse, if_neg named.unquoted, defined]
  rfl

namespace Debugger

variable {d : Debugger} {command : Command} {name : String}

/-! Between the assignment and the reading -/

/-- Who evaluates no assignment, and neither begins nor discards a run, touches no variable. -/
theorem not_touches (sameRun : ∀ event ∈ (d.obey command).events, event.isStart = false)
    (ongoing : command ≠ .stop)
    (unassigned : ∀ n, d.evaluated? command = some n → n.kind ≠ .assign) :
    ¬d.Touches command name := by
  rintro (clears | ⟨value, n, found, assigns⟩)
  · exact not_clears sameRun ongoing clears
  · exact unassigned n found assigns.kind

theorem recall_obey (fit : d.Coherent) (untouched : ¬d.Touches command name) :
    (d.obey command).debugger.state.values.get? name = d.state.values.get? name := by
  have ungiven (value : Value) : ¬d.Gives command name value := by
    rintro (stores | ⟨-, w, begins, -⟩)
    · exact untouched (.inr ⟨value, stores⟩)
    · exact untouched (.inl (.inl (by rw [begins]; rfl)))
  apply Option.ext
  intro value
  rw [get?_obey fit, or_iff_right (ungiven value), and_iff_right untouched]

theorem untouched_cons {rest : List Command} :
    (∀ k, ¬d.Occurs (command :: rest) k (·.Touches · name)) ↔
      ¬d.Touches command name ∧
        ∀ k, ¬(d.obey command).debugger.Occurs rest k (·.Touches · name) := by
  constructor
  · intro untouched
    refine ⟨fun touches => untouched 0 ⟨command, rfl, touches⟩, ?_⟩
    intro k later
    exact untouched (k + 1) later
  · rintro ⟨first, others⟩ k occurs
    cases k with
    | zero =>
      obtain ⟨_, same, touches⟩ := occurs
      cases same
      exact first touches
    | succ k => exact others k occurs

theorem recall_follow (fit : d.Coherent) {commands : List Command}
    (untouched : ∀ k, ¬d.Occurs commands k (·.Touches · name)) :
    (d.follow commands).debugger.state.values.get? name = d.state.values.get? name := by
  induction commands generalizing d with
  | nil => rfl
  | cons command rest ih =>
    obtain ⟨first, others⟩ := untouched_cons.1 untouched
    have later := ih (coherent_obey fit command) others
    exact later.trans (recall_obey fit first)

/-- A run goes where the evaluation leads. -/
theorem current_obey (fit : d.Coherent) {n : Node} (found : d.evaluated? command = some n) :
    (d.obey command).debugger.state.current = (n.outcome d.state.values).next := by
  cases command with
  | start | stop | resume | step => cases found
  | runPending c =>
    cases pending : d.pending with
    | none => simp [evaluated?, pending] at found
    | some step =>
      cases step with
      | completion => simp [evaluated?, pending] at found
      | tick mode =>
        have here : d.found? c = some n := by simpa only [evaluated?, pending] using found
        obtain ⟨w, live, here⟩ := Option.bind_eq_some_iff.1 here
        obtain ⟨id, position, known⟩ := Option.bind_eq_some_iff.1 here
        obtain ⟨-, -, -, same⟩ := RunState.tick_evaluates d.pace d.clock mode
          (fit.running pending) live position known
        rw [obey_runPending_tick pending]
        exact congrArg Position.current same

/-- **What was assigned is what is read.** A call evaluates an assignment that stores a value, and
no call after it begins or discards a run or evaluates an assignment to the same variable, whatever
else happens and whatever becomes of the canvas. Then a branch on the variable goes by the value,
and an assignment from the variable stores that value, unless it takes the name for a literal. -/
theorem assigned_is_read (pace : Pace) (clock : String) (before between : List Command)
    (store read : Command) (name : String) (value : Value) (n : Node) :
    let d := ((initial pace clock).follow before).debugger
    let after := (d.obey store).debugger
    let later := (after.follow between).debugger
    let state := (later.obey read).debugger.state
    d.Stores store name value →
    (∀ k, ¬after.Occurs between k (·.Touches · name)) →
    later.evaluated? read = some n → n.configText Node.expressionKey = .ok (some name) →
    (n.kind = .branch →
      (¬value.Falsy ∨ name = "true" → state.current = n.connections[0]?) ∧
      (value.Falsy ∧ name ≠ "true" →
        state.current = n.connections[1]?.or n.connections[0]?)) ∧
    (∀ target, n.kind = .assign → n.configText Node.targetKey = .ok (some target) → target ≠ "" →
      value ≠ .null → IsName name →
      later.Stores read target value ∧ state.values.get? target = some value) := by
  intro d after later state stored untouched found text
  have fit : d.Coherent := coherent_follow (coherent_initial pace clock) before
  have fitAfter : after.Coherent := coherent_obey fit store
  have fitLater : later.Coherent := coherent_follow fitAfter between
  have kept : later.state.values.get? name = some value := by
    have written : after.state.values.get? name = some value :=
      (get?_obey fit store name value).2 (.inl (.inl stored))
    exact (recall_follow fitAfter untouched).trans written
  have moved : state.current = (n.outcome later.state.values).next := current_obey fitLater found
  constructor
  · intro kind
    rw [moved, Node.outcome_branch kind text]
    constructor
    · intro truthy
      rw [if_pos ((holds_iff kept).2 truthy.symm)]
    · rintro ⟨falsy, other⟩
      have fails : ¬holds name later.state.values = true := by
        rw [holds_iff kept]
        rintro (same | truthy)
        · exact other same
        · exact truthy falsy
      rw [if_neg fails]
  · intro target kind goal filled set named
    have copied : later.Stores read target value := by
      refine ⟨n, found, kind, goal, filled, some name, text, ?_⟩
      exact (resolve_name named kept set).symm
    exact ⟨copied, (get?_obey fitLater read target value).2 (.inl (.inl copied))⟩

/-- Text goes into a variable whose name looks like a number, for no double is as large. A branch
and an assignment read it. -/
def relay : Workflow where
  id := "relay"
  name := "Relay"
  scope := .server
  inputs := []
  outputs := []
  locals := []
  nodes := [
    { Node.ofKind "s" .start (.ofInt 0) (.ofInt 0) with connections := ["a"] },
    { Node.ofKind "a" .assign (.ofInt 0) (.ofInt 0) with
      connections := ["b"]
      config := .ofList [("targetVar", .string "1e999"), ("expression", .string "\"on\"")] },
    { Node.ofKind "b" .branch (.ofInt 0) (.ofInt 0) with
      connections := ["y", "n"]
      config := .ofList [("expression", .string "1e999")]
      breakpoint := true },
    { Node.ofKind "y" .assign (.ofInt 0) (.ofInt 0) with
      config := .ofList [("targetVar", .string "copy"), ("expression", .string "1e999")] }]

theorem isName_infinite : IsName "1e999" where
  filled := by decide
  unnumbered := by
    intro decimal spelled x
    have read : Decimal.ofChars? (trim "1e999".toList) = some ⟨false, 1, 999⟩ := by decide +kernel
    cases read.symm.trans spelled
    have large : Decimal.toDouble ⟨false, 1, 999⟩ = .infinite false := by decide +kernel
    simp [large]
  untrue := by decide
  unfalse := by decide
  unquoted := by decide

/-- While the run is paused the node that assigned is removed. -/
theorem relayed_is_read :
    let c : Canvas := ⟨[⟨relay, none⟩], none, {}, {}⟩
    let edited : Canvas := ⟨[⟨relay.removeNode "a", none⟩], none, {}, {}⟩
    let d := ((initial {} "00:00:00").follow [.start c "relay", .runPending c]).debugger
    let after := (d.obey (.runPending c)).debugger
    let branching := (after.follow [.resume]).debugger
    let copying := (after.follow [.resume, .runPending edited]).debugger
    d.Stores (.runPending c) "1e999" (.string "on") ∧
      (branching.obey (.runPending edited)).debugger.state.current = some "y" ∧
      (copying.obey (.runPending edited)).debugger.state.values.get? "copy"
        = some (.string "on") := by
  intro c edited d after branching copying
  have stored : d.Stores (.runPending c) "1e999" (.string "on") :=
    ⟨_, rfl, rfl, rfl, by decide, _, rfl, rfl⟩
  have resumed : ¬after.Touches .resume "1e999" :=
    not_touches (by decide) (by simp) (by rintro _ ⟨⟩)
  obtain ⟨fork, forked, branch, text, yes⟩ : ∃ n,
      branching.evaluated? (.runPending edited) = some n ∧ n.kind = .branch ∧
      n.configText Node.expressionKey = .ok (some "1e999") ∧ n.connections[0]? = some "y" :=
    ⟨_, rfl, rfl, rfl, rfl⟩
  obtain ⟨copy, copied, assign, target, source⟩ : ∃ n,
      copying.evaluated? (.runPending edited) = some n ∧ n.kind = .assign ∧
      n.configText Node.targetKey = .ok (some "copy") ∧
      n.configText Node.expressionKey = .ok (some "1e999") :=
    ⟨_, rfl, rfl, rfl, rfl⟩
  have branched : ¬branching.Touches (.runPending edited) "1e999" := by
    refine not_touches (by decide +kernel) (by simp) ?_
    intro n evaluated
    cases forked.symm.trans evaluated
    simp [branch]
  -- the calls are spelled out before what they leave is compared, or it would all be computed
  refine ⟨stored, ?_, ?_⟩
  · have reads := assigned_is_read {} "00:00:00" [.start c "relay", .runPending c] [.resume]
      (.runPending c) (.runPending edited) "1e999" (.string "on") fork stored
      (untouched_cons.2 ⟨resumed, by rintro k ⟨_, ⟨⟩, -⟩⟩) forked text
    simp only [d, after, branching, ← yes]
    exact (reads.1 branch).1 (.inl ((Value.isTruthy_iff _).1 (by decide)))
  · have reads := assigned_is_read {} "00:00:00" [.start c "relay", .runPending c]
      [.resume, .runPending edited]
      (.runPending c) (.runPending edited) "1e999" (.string "on") copy stored
      (untouched_cons.2 ⟨resumed, untouched_cons.2 ⟨branched, by rintro k ⟨_, ⟨⟩, -⟩⟩⟩)
      copied source
    simp only [d, after, copying]
    exact (reads.2 "copy" assign target (by decide) (by rintro ⟨⟩) isName_infinite).2

end Debugger

end Stepflow
