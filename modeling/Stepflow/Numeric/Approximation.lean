import Stepflow.Numeric.Decimal

/-!
# Approximate reading

A numeral can be read with one word of 64 bits and one or two operations on doubles, at the price
of the last digit: only the leading digits that fit the word count, the word becomes a double, and
that is scaled by a power of ten which is a double too. Each step rounds.

* `Numeral.truncate`: the leading digits of a numeral; `Numeral.toWord?`: an integer that is a word;
* `Decimal.approximate`: the double that scaling reaches, near to `Decimal.toDouble`;
* `Decimal.approximate_eq_toDouble`: with 53 bits of digits and a power of ten up to 10²² only the
  last step rounds, so that nothing is lost.
-/

namespace Stepflow

namespace Numeral

/-- `word` with as many digits behind it as leave it a word, and the digits that are left. -/
def extend (word : Nat) : List Char → Nat × List Char
  | [] => (word, [])
  | c :: rest =>
    let longer := 10 * word + (c.toNat - '0'.toNat)
    if longer < UInt64.size then extend longer rest else (word, c :: rest)

/-- The leading digits as a decimal. Digits before the point that are left out count as zeros, but
when the first digit behind the point still fits it takes the place of the first of them. -/
def truncate (n : Numeral) (negative : Bool) : Decimal :=
  let (word, whole) := extend 0 n.whole
  let digits := n.fraction.getD []
  let (word, fraction) := extend word digits
  ⟨negative, word, n.exponentValue + whole.length + fraction.length - digits.length⟩

/-- The value of a numeral without point and exponent, if it is a word. -/
def toWord? (n : Numeral) : Option Nat :=
  if n.fraction.isNone && n.exponent.isNone then
    match extend 0 n.whole with
    | (word, []) => some word
    | _ => none
  else none

theorem le_ofDigitChars (digits : List Char) (n : Nat) : n ≤ Nat.ofDigitChars 10 digits n := by
  induction digits generalizing n with
  | nil => exact Nat.le_refl n
  | cons c rest ih =>
    rw [Nat.ofDigitChars_cons]
    exact Nat.le_trans (by omega) (ih _)

theorem extend_of_lt {word : Nat} {digits : List Char}
    (short : Nat.ofDigitChars 10 digits word < UInt64.size) :
    extend word digits = (Nat.ofDigitChars 10 digits word, []) := by
  induction digits generalizing word with
  | nil => rfl
  | cons c rest ih =>
    rw [Nat.ofDigitChars_cons] at short ⊢
    rw [extend, if_pos (Nat.lt_of_le_of_lt (le_ofDigitChars rest _) short), ih short]

/-- Digits that all fit are all kept. -/
theorem truncate_eq_toDecimal {n : Numeral} (negative : Bool)
    (short : (n.toDecimal negative).coefficient < UInt64.size) :
    n.truncate negative = n.toDecimal negative := by
  simp only [toDecimal, Nat.ofDigitChars_append] at short
  have whole := extend_of_lt (Nat.lt_of_le_of_lt (le_ofDigitChars _ _) short)
  simp [truncate, toDecimal, Nat.ofDigitChars_append, whole, extend_of_lt short]

end Numeral

namespace Double

/-- The greatest power of ten that is below all infinities. -/
def topPower : Nat := 308

/-- The double nearest to `10ᵏ`, in units. -/
def tensUnits (k : Nat) : Nat := roundUnits (tens k * unitsPerOne) 1

/-- `u` units times the double nearest to `10ᵏ`. -/
def timesTens (u k : Nat) : Nat := roundUnits (u * tensUnits k) unitsPerOne

/-- `u` units over the double nearest to `10ᵏ`. -/
def overTens (u k : Nat) : Nat := roundUnits (u * unitsPerOne) (tensUnits k)

/-- `u` units over `10ᵏ`, in several divisions where one would be by infinity. -/
def scaleDown (u k : Nat) : Nat :=
  if k ≤ topPower then overTens u k
  else if u = 0 then 0
  else scaleDown (overTens u topPower) (k - topPower)
termination_by k
decreasing_by unfold topPower at *; omega

theorem fits_tens : ∀ k < 23, Fits (tens k * unitsPerOne) := by decide +kernel

theorem tensUnits_of_le {k : Nat} (small : k ≤ 22) : tensUnits k = tens k * unitsPerOne :=
  roundUnits_of_fits (fits_tens k (Nat.lt_succ_of_le small))

theorem timesTens_of_le (c : Nat) {k : Nat} (small : k ≤ 22) :
    timesTens (c * unitsPerOne) k = roundUnits (c * tens k * unitsPerOne) 1 := by
  have gathered (t u : Nat) : c * u * (t * u) = c * t * u * u := by ac_rfl
  have cancel := roundUnits_mul_right (c * tens k * unitsPerOne) 1 unitsPerOne_pos
  rw [Nat.one_mul] at cancel
  rw [timesTens, tensUnits_of_le small, gathered, cancel]

theorem overTens_of_le (u : Nat) {k : Nat} (small : k ≤ 22) :
    overTens u k = roundUnits u (tens k) := by
  rw [overTens, tensUnits_of_le small, roundUnits_mul_right _ _ unitsPerOne_pos]

end Double

namespace Decimal

open Double

/-- The double reached by rounding the coefficient and scaling it. -/
def approximate (d : Decimal) : Double :=
  let u := roundUnits (d.coefficient * unitsPerOne) 1
  match d.scale with
  | .ofNat k =>
    if u = 0 then .finite (.zero d.negative)
    else if k ≤ topPower then .ofUnits d.negative (timesTens u k)
    else .infinite d.negative
  | .negSucc k => .ofUnits d.negative (scaleDown u (k + 1))

theorem approximate_eq_toDouble {d : Decimal} (short : d.coefficient < step 53)
    (near : d.scale.natAbs ≤ 22) : d.approximate = d.toDouble := by
  have first := roundUnits_of_fits (fits_ofNat short)
  have digits : digitCount d.coefficient ≤ 16 :=
    (digitCount_le_iff (by decide)).2 (Nat.lt_of_lt_of_le short (by decide +kernel))
  have lower : ¬d.magnitude < -horizon := by unfold magnitude horizon; omega
  have upper : ¬horizon < d.magnitude := by unfold magnitude horizon; omega
  unfold approximate toDouble
  by_cases zero : d.coefficient = 0
  · have none : roundUnits (0 * unitsPerOne) 1 = 0 := by
      rw [Nat.zero_mul, roundUnits_zero Nat.one_pos]
    rw [if_pos (.inl zero), zero, none]
    cases scale : d.scale with
    | ofNat k => rfl
    | negSucc k =>
      have near : k + 1 ≤ 22 := by rw [scale] at near; exact near
      have reach : k + 1 ≤ topPower := Nat.le_trans near (by decide)
      dsimp only
      rw [scaleDown, if_pos reach, overTens_of_le 0 near, roundUnits_zero (tens_pos _)]
      exact dif_pos fits_zero
  · have nonzero : d.coefficient * unitsPerOne ≠ 0 :=
      Nat.mul_ne_zero zero (Nat.ne_of_gt unitsPerOne_pos)
    rw [if_neg (by simp [zero, lower]), if_neg upper, first]
    cases scale : d.scale with
    | ofNat k =>
      have near : k ≤ 22 := by rw [scale] at near; exact near
      have reach : k ≤ topPower := Nat.le_trans near (by decide)
      dsimp only
      rw [if_neg nonzero, if_pos reach, timesTens_of_le d.coefficient near, ofQuotient]
    | negSucc k =>
      have near : k + 1 ≤ 22 := by rw [scale] at near; exact near
      have reach : k + 1 ≤ topPower := Nat.le_trans near (by decide)
      dsimp only
      rw [scaleDown, if_pos reach, overTens_of_le _ near, ofQuotient]

end Decimal

end Stepflow
