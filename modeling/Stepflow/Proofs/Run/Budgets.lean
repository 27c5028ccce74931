import Stepflow.Proofs.Run.Commands

/-!
# Budgets

Running until a run settles makes pending steps one by one, until none is pending or a budget is
spent. On a cycle nothing but the budget ends it.

* `runUntilSettled_eq_follow`: it is calling for pending steps, as often as it counts;
* `runUntilSettled_add`: a budget may be spent in two parts;
* `pending_before`, `settled_or_spent`: every step that is counted was pending, and the count falls
  short of the budget only where nothing is pending any more;
* `budgets_add_up`: all of this together.
-/

namespace Stepflow.Debugger

variable {d : Debugger} {c : Canvas}

theorem runUntilSettled_none (pending : d.pending = none) (c : Canvas) (max : Nat) :
    runUntilSettled c max d = (0, ⟨d, []⟩) := by
  cases max with
  | zero => rfl
  | succ max => simp [runUntilSettled, runPending?, pending]

theorem runUntilSettled_succ {step : Pending} (pending : d.pending = some step) (c : Canvas)
    (max : Nat) : runUntilSettled c (max + 1) d =
      let ran := d.obey (.runPending c)
      let rest := runUntilSettled c max ran.debugger
      (rest.1 + 1, ⟨rest.2.debugger, ran.events ++ rest.2.events⟩) := by
  cases step <;> simp [runUntilSettled, obey, runPending?, pending]

/-- Running until a run settles is calling for its pending steps, one by one. -/
theorem runUntilSettled_eq_follow (c : Canvas) (max : Nat) (d : Debugger) :
    (runUntilSettled c max d).2
      = d.follow (List.replicate (runUntilSettled c max d).1 (.runPending c)) := by
  induction max generalizing d with
  | zero => rfl
  | succ max ih =>
    cases pending : d.pending with
    | none =>
      rw [runUntilSettled_none pending]
      rfl
    | some step =>
      rw [runUntilSettled_succ pending]
      simp only [List.replicate_succ, follow]
      rw [← ih]

/-- A step after which nothing is pending is the last. -/
theorem runUntilSettled_last {step : Pending} (pending : d.pending = some step)
    (nothing : (d.obey (.runPending c)).debugger.pending = none) (max : Nat) :
    runUntilSettled c (max + 1) d = (1, d.obey (.runPending c)) := by
  rw [runUntilSettled_succ pending]
  simp only [runUntilSettled_none nothing, List.append_nil]

theorem runUntilSettled_add (c : Canvas) (m n : Nat) (d : Debugger) :
    runUntilSettled c (m + n) d =
      let first := runUntilSettled c m d
      let second := runUntilSettled c n first.2.debugger
      (first.1 + second.1, ⟨second.2.debugger, first.2.events ++ second.2.events⟩) := by
  induction m generalizing d with
  | zero => simp [runUntilSettled]
  | succ m ih =>
    cases pending : d.pending with
    | none =>
      -- what has settled makes no step of either part
      simp only [runUntilSettled_none pending, Nat.zero_add, List.nil_append]
    | some step =>
      rw [Nat.succ_add, runUntilSettled_succ pending, runUntilSettled_succ pending]
      simp only [ih, List.append_assoc, Nat.add_right_comm]

theorem runUntilSettled_le (c : Canvas) (max : Nat) (d : Debugger) :
    (runUntilSettled c max d).1 ≤ max := by
  induction max generalizing d with
  | zero => exact Nat.le_refl 0
  | succ max ih =>
    cases pending : d.pending with
    | none =>
      rw [runUntilSettled_none pending]
      exact Nat.zero_le _
    | some step =>
      rw [runUntilSettled_succ pending]
      exact Nat.succ_le_succ (ih _)

/-- Every step that is counted was pending. -/
theorem pending_before {max k : Nat} (counted : k < (runUntilSettled c max d).1) :
    (d.follow (List.replicate k (.runPending c))).debugger.pending.isSome = true := by
  induction max generalizing d k with
  | zero => exact absurd counted (Nat.not_lt_zero k)
  | succ max ih =>
    cases pending : d.pending with
    | none =>
      rw [runUntilSettled_none pending] at counted
      exact absurd counted (Nat.not_lt_zero k)
    | some step =>
      rw [runUntilSettled_succ pending] at counted
      cases k with
      | zero => simp [follow, pending]
      | succ k =>
        have fewer : k < (runUntilSettled c max (d.obey (.runPending c)).debugger).1 :=
          Nat.lt_of_succ_lt_succ counted
        simp only [List.replicate_succ, follow]
        exact ih fewer

/-- A budget that is not spent has been enough. -/
theorem settled_or_spent (c : Canvas) (max : Nat) (d : Debugger) :
    (runUntilSettled c max d).2.debugger.pending = none ∨ (runUntilSettled c max d).1 = max := by
  induction max generalizing d with
  | zero => exact .inr rfl
  | succ max ih =>
    cases pending : d.pending with
    | none =>
      rw [runUntilSettled_none pending]
      exact .inl pending
    | some step =>
      rw [runUntilSettled_succ pending]
      exact (ih (d.obey (.runPending c)).debugger).imp_right (congrArg Nat.succ)

/-- **Budgets add up.** To run until settled with one budget and then with another is to run so with
their sum: the same debugger is left, the same events are emitted, and the counts add up. The count
is that of the pending steps made and never exceeds the budget. Where it falls short of it, nothing
is pending, and no canvas makes anything pending again. -/
theorem budgets_add_up (c : Canvas) (d : Debugger) (m n : Nat) :
    let first := runUntilSettled c m d
    let second := runUntilSettled c n first.2.debugger
    runUntilSettled c (m + n) d =
      (first.1 + second.1, ⟨second.2.debugger, first.2.events ++ second.2.events⟩) ∧
    first.2 = d.follow (List.replicate first.1 (.runPending c)) ∧
    (∀ k < first.1,
      (d.follow (List.replicate k (.runPending c))).debugger.pending.isSome = true) ∧
    first.1 ≤ m ∧
    (first.1 < m → first.2.debugger.pending = none ∧ ∀ later : Canvas,
      first.2.debugger.runPending? later = none ∧
      ∀ max, runUntilSettled later max first.2.debugger = (0, ⟨first.2.debugger, []⟩)) := by
  intro first second
  refine ⟨runUntilSettled_add c m n d, runUntilSettled_eq_follow c m d, ?_,
    runUntilSettled_le c m d, ?_⟩
  · intro k counted
    exact pending_before counted
  · intro short
    have settled : first.2.debugger.pending = none :=
      (settled_or_spent c m d).resolve_right (Nat.ne_of_lt short)
    refine ⟨settled, ?_⟩
    intro later
    constructor
    · rw [runPending?, settled]
      rfl
    · intro max
      exact runUntilSettled_none settled later max

end Stepflow.Debugger
