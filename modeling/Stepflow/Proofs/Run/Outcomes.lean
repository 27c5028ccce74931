import Stepflow.Proofs.Run.Walk

/-!
# Outcomes of nodes

What becomes of a visit, whatever the kind of the node. Only the way on depends on connections, and
it depends on nothing of them but their order.

* `Node.outcome_rewire`: renaming the targets of a node renames the way on;
* `Node.mem_of_outcome`, `Node.outcome_ends_iff`: the way on is a connection of the node, and when
  there is none;
* `Node.outcome_unset`: an insertable node without config leads on and stores nothing.
-/

namespace Stepflow

open Json

/-- The evaluation with another way on. -/
def Evaluation.lead (f : String → String) (e : Evaluation) : Evaluation :=
  { e with next := e.next.map f }

namespace Node

/-- Lead to other targets, in the same order. -/
def rewire (f : String → String) (n : Node) : Node :=
  { n with connections := n.connections.map f }

variable {n : Node} {values : KeyMap Value}

theorem primary?_rewire (f : String → String) (n : Node) :
    (n.rewire f).primary? = n.primary?.map f := by
  simp [primary?, rewire]

theorem secondary_rewire (f : String → String) (n : Node) :
    (n.rewire f).connections[1]?.or (n.rewire f).primary?
      = (n.connections[1]?.or n.primary?).map f := by
  simp [primary?, rewire, Option.map_or]

theorem pass_rewire (f : String → String) (n : Node) (message : String) :
    (n.rewire f).pass message = (n.pass message).lead f := by
  rw [pass, primary?_rewire]
  rfl

theorem evaluateAssign_rewire (f : String → String) (n : Node) (values : KeyMap Value) :
    (n.rewire f).evaluateAssign values = (n.evaluateAssign values).map (·.lead f) := by
  have config (key : String) : (n.rewire f).configText key = n.configText key := rfl
  have text (key : String) : (n.rewire f).filledText key = n.filledText key := rfl
  unfold evaluateAssign
  rw [config, text]
  cases n.filledText targetKey with
  | error failure => rfl
  | ok target =>
    cases n.configText expressionKey with
    | error failure => rfl
    | ok expression =>
      cases target with
      | none => exact congrArg Except.ok (pass_rewire f n _)
      | some name =>
        refine congrArg Except.ok ?_
        rw [pass_rewire]
        rfl

theorem evaluateBranch_rewire (f : String → String) (n : Node) (values : KeyMap Value) :
    (n.rewire f).evaluateBranch values = (n.evaluateBranch values).map (·.lead f) := by
  have config (key : String) : (n.rewire f).configText key = n.configText key := rfl
  unfold evaluateBranch
  rw [config, secondary_rewire, primary?_rewire]
  cases n.configText expressionKey with
  | error failure => rfl
  | ok condition =>
    refine congrArg Except.ok ?_
    dsimp only [Except.bind]
    rw [pass_rewire]
    cases condition.any (holds · values) with
    | true => rfl
    | false => rfl

theorem evaluateAction_rewire (f : String → String) (n : Node) :
    (n.rewire f).evaluateAction = n.evaluateAction.map (·.lead f) := by
  have text (key : String) : (n.rewire f).filledText key = n.filledText key := rfl
  unfold evaluateAction
  rw [text]
  cases n.filledText queryKey with
  | error failure => rfl
  | ok query => exact congrArg Except.ok (pass_rewire f n _)

theorem evaluate_rewire (f : String → String) (n : Node) (values : KeyMap Value) :
    (n.rewire f).evaluate values = (n.evaluate values).map (·.lead f) := by
  have kind : (n.rewire f).kind = n.kind := rfl
  unfold evaluate
  rw [kind]
  cases n.kind with
  | start => exact congrArg Except.ok (pass_rewire f n _)
  | assign => exact evaluateAssign_rewire f n values
  | branch => exact evaluateBranch_rewire f n values
  | action => exact evaluateAction_rewire f n
  | finish => rfl
  | switch | foreach =>
    refine congrArg Except.ok ?_
    dsimp only
    rw [pass_rewire]
    rfl

theorem outcome_rewire (f : String → String) (n : Node) (values : KeyMap Value) :
    (n.rewire f).outcome values = (n.outcome values).lead f := by
  unfold outcome
  rw [evaluate_rewire]
  cases n.evaluate values with
  | ok evaluation => rfl
  | error failure => exact pass_rewire f n _

/-- Nowhere at the end of a path; else to the first connection, or to the second and for want of it
to the first. -/
theorem outcome_next (n : Node) (values : KeyMap Value) :
    n.kind = .finish ∧ (n.outcome values).next = none ∨ (n.outcome values).next = n.primary? ∨
      (n.outcome values).next = n.connections[1]?.or n.primary? := by
  unfold outcome evaluate
  cases n.kind with
  | start | switch | foreach => exact .inr (.inl rfl)
  | finish => exact .inl ⟨rfl, rfl⟩
  | action =>
    unfold evaluateAction
    cases n.filledText queryKey <;> exact .inr (.inl rfl)
  | assign =>
    unfold evaluateAssign
    cases n.filledText targetKey with
    | error failure => exact .inr (.inl rfl)
    | ok target =>
      cases n.configText expressionKey with
      | error failure => exact .inr (.inl rfl)
      | ok expression => cases target <;> exact .inr (.inl rfl)
  | branch =>
    unfold evaluateBranch
    cases n.configText expressionKey with
    | error failure => exact .inr (.inl rfl)
    | ok condition =>
      dsimp only [bind, Except.bind, pure, Except.pure]
      split
      · exact .inr (.inl rfl)
      · exact .inr (.inr rfl)

theorem mem_of_outcome {t : String} (leads : (n.outcome values).next = some t) :
    t ∈ n.connections := by
  have first {u : String} (primary : n.primary? = some u) : u ∈ n.connections :=
    List.mem_of_mem_head? primary
  rcases outcome_next n values with ⟨-, ends⟩ | primary | secondary
  · rw [ends] at leads
    cases leads
  · exact first (primary.symm.trans leads)
  · rcases Option.or_eq_some_iff.1 (secondary.symm.trans leads) with second | ⟨-, primary⟩
    · exact List.mem_of_getElem? second
    · exact first primary

/-- The way ends at the end of a path, and where there is no connection. -/
theorem outcome_ends_iff :
    (n.outcome values).next = none ↔ n.kind = .finish ∨ n.connections = [] := by
  have edgeless (primary : n.primary? = none) : n.connections = [] :=
    List.head?_eq_none_iff.1 primary
  constructor
  · intro ends
    rcases outcome_next n values with ⟨kind, -⟩ | primary | secondary
    · exact .inl kind
    · exact .inr (edgeless (primary.symm.trans ends))
    · exact .inr (edgeless (Option.or_eq_none_iff.1 (secondary.symm.trans ends)).2)
  · rintro (kind | none)
    · rw [outcome, evaluate, kind]
    · refine Option.eq_none_iff_forall_ne_some.2 fun t leads => ?_
      have member := mem_of_outcome leads
      rw [none] at member
      cases member

/-- Without config an assignment has no target and a condition does not hold. -/
theorem outcome_unset {t : String} (insertable : n.kind.insertable = true)
    (unset : n.config = .empty) (only : n.connections = [t]) :
    (n.outcome values).next = some t ∧ (n.outcome values).update = none := by
  have config (key : String) : n.configText key = .ok none := by simp [configText, unset]
  have text (key : String) : n.filledText key = .ok none := by
    rw [filledText, config]
    rfl
  have primary : n.primary? = some t := by simp [primary?, only]
  unfold outcome evaluate
  cases kind : n.kind with
  | start | finish =>
    rw [kind] at insertable
    exact absurd insertable (by decide)
  | assign =>
    rw [evaluateAssign, config, text]
    exact ⟨primary, rfl⟩
  | branch =>
    rw [evaluateBranch, config, primary, only]
    exact ⟨rfl, rfl⟩
  | action =>
    rw [evaluateAction, text]
    exact ⟨primary, rfl⟩
  | switch | foreach => exact ⟨primary, rfl⟩

end Node

end Stepflow
