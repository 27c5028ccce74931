import Mathlib.Algebra.Order.Field.Rat
import Mathlib.Data.Int.CharZero
import Mathlib.Tactic.FieldSimp
import Stepflow.Proofs.Json.Numerals

/-!
# What counts of a decimal

Zeros at the end of a coefficient and the scale say the same, so the double nearest to a decimal
depends on nothing but its sign and its value.

* `Decimal.toDouble_pad`, `Decimal.toDouble_congr`: decimals of one value have one nearest double;
* `Decimal.toDouble_whole`: that of a whole number below 2⁵³ is the number;
* `Numeral.value`, `Numeral.toDouble_of_whole`: the rational number that a numeral stands for, and
  the double for one that is whole;
* `DecimalStyle.toDouble_numeral`: a decimal is written as a numeral with its value, in whatever
  style.
-/

namespace Stepflow

theorem tens_add (s t : Nat) : tens (s + t) = tens s * tens t := Nat.pow_add 10 s t

theorem digitCount_mul_tens {n : Nat} (pos : 0 < n) (k : Nat) :
    digitCount (n * tens k) = digitCount n + k := by
  induction k with
  | zero => rw [show tens 0 = 1 from rfl, Nat.mul_one, Nat.add_zero]
  | succ k ih =>
    have more : 0 < n * tens k := Nat.mul_pos pos (tens_pos k)
    have shifted : n * tens (k + 1) = 10 * (n * tens k) + 0 := by
      rw [tens_add, show tens 1 = 10 from rfl, ← Nat.mul_assoc, Nat.mul_comm]
      rfl
    have digits := Nat.toDigits_append_toDigits (b := 10) (by decide) more (show 0 < 10 by decide)
    rw [shifted, digitCount, ← digits, List.length_append]
    exact congrArg (· + 1) ih

namespace Double

/-- Equal quotients are rounded alike. -/
theorem ofQuotient_congr (negative : Bool) {n d m e : Nat} (posD : 0 < d) (posE : 0 < e)
    (same : n * e = m * d) : ofQuotient negative n d = ofQuotient negative m e := by
  rw [← ofQuotient_mul_right negative n d posE, ← ofQuotient_mul_right negative m e posD, same,
    Nat.mul_comm d e]

end Double

namespace Decimal

open Double

theorem toDouble_eq (d : Decimal) :
    d.toDouble =
      if d.coefficient = 0 ∨ d.magnitude < -horizon then .finite (.zero d.negative)
      else if horizon < d.magnitude then .infinite d.negative
      else .ofQuotient d.negative (d.coefficient * tens d.scale.toNat * unitsPerOne)
        (tens (-d.scale).toNat) := by
  obtain ⟨negative, coefficient, scale⟩ := d
  unfold toDouble
  cases scale with
  | ofNat s =>
    have none : (-Int.ofNat s).toNat = 0 := by simp
    rw [none]
    rfl
  | negSucc s =>
    have none : coefficient * tens (Int.negSucc s).toNat = coefficient := Nat.mul_one _
    dsimp only
    rw [none]
    rfl

theorem toDouble_zero (negative : Bool) (s : Int) :
    toDouble ⟨negative, 0, s⟩ = .finite (.zero negative) := by
  rw [toDouble_eq, if_pos (.inl rfl)]

/-- Zeros at the end of the coefficient count as much as the scale says without them. -/
theorem toDouble_pad (negative : Bool) (c k : Nat) (s : Int) :
    toDouble ⟨negative, c * tens k, s⟩ = toDouble ⟨negative, c, s + k⟩ := by
  by_cases zero : c = 0
  · subst zero
    rw [Nat.zero_mul, toDouble_zero, toDouble_zero]
  · have nonzero : ¬c * tens k = 0 := Nat.mul_ne_zero zero (Nat.ne_of_gt (tens_pos k))
    have magnitude : magnitude ⟨negative, c * tens k, s⟩ = magnitude ⟨negative, c, s + k⟩ := by
      have digits := digitCount_mul_tens (Nat.pos_of_ne_zero zero) k
      unfold Decimal.magnitude
      dsimp only
      omega
    have quotient : ofQuotient negative (c * tens k * tens s.toNat * unitsPerOne) (tens (-s).toNat)
        = ofQuotient negative (c * tens (s + k).toNat * unitsPerOne) (tens (-(s + k)).toNat) := by
      refine ofQuotient_congr negative (tens_pos _) (tens_pos _) ?_
      have scales : k + s.toNat + (-(s + k)).toNat = (s + k).toNat + (-s).toNat := by omega
      have powers := congrArg tens scales
      simp only [tens_add] at powers
      generalize unitsPerOne = u
      calc c * tens k * tens s.toNat * u * tens (-(s + k)).toNat
          = c * u * (tens k * tens s.toNat * tens (-(s + k)).toNat) := by ac_rfl
        _ = c * u * (tens (s + k).toNat * tens (-s).toNat) := by rw [powers]
        _ = c * tens (s + k).toNat * u * tens (-s).toNat := by ac_rfl
    rw [toDouble_eq, toDouble_eq]
    simp only [nonzero, zero, magnitude, quotient]

/-- Decimals of one value have one nearest double. -/
theorem toDouble_congr (negative : Bool) {c m a b : Nat} {s t : Int}
    (same : c * tens a = m * tens b) (scales : s - a = t - b) :
    toDouble ⟨negative, c, s⟩ = toDouble ⟨negative, m, t⟩ := by
  have left := toDouble_pad negative c a (s - a)
  have right := toDouble_pad negative m b (t - b)
  rw [Int.sub_add_cancel] at left right
  rw [← left, ← right, same, scales]

theorem toDouble_whole (negative : Bool) {n : Nat} (small : n < step 53) :
    toDouble ⟨negative, n, 0⟩ = .finite ⟨negative, n * unitsPerOne, fits_ofNat small⟩ := by
  by_cases zero : n = 0
  · subst zero
    rw [toDouble_zero]
    simp [Finite.zero]
  · have digits : digitCount n ≤ 16 :=
      (digitCount_le_iff (by decide)).2 (Nat.lt_of_lt_of_le small (by decide +kernel))
    have magnitude : magnitude ⟨negative, n, 0⟩ = digitCount n := Int.add_zero _
    have lower : ¬(n = 0 ∨ Decimal.magnitude ⟨negative, n, 0⟩ < -horizon) := by
      rw [magnitude]
      unfold horizon
      omega
    have upper : ¬horizon < Decimal.magnitude ⟨negative, n, 0⟩ := by
      rw [magnitude]
      unfold horizon
      omega
    rw [toDouble_eq, if_neg lower, if_neg upper]
    have units : n * tens (0 : Int).toNat * unitsPerOne = n * unitsPerOne := by
      rw [show tens (0 : Int).toNat = 1 from rfl, Nat.mul_one]
    dsimp only
    rw [units]
    exact ofQuotient_units ⟨negative, n * unitsPerOne, fits_ofNat small⟩

end Decimal

/-! The value of a numeral -/

namespace Numeral

def powerOfTen : Option (Bool × List Char) → ℚ
  | none => 1
  | some (false, digits) => tens (Nat.ofDigitChars 10 digits 0)
  | some (true, digits) => 1 / tens (Nat.ofDigitChars 10 digits 0)

/-- The digits before the point, and those behind it as a fraction, times the power of ten. -/
def absolute (n : Numeral) : ℚ :=
  (Nat.ofDigitChars 10 n.whole 0
      + Nat.ofDigitChars 10 (n.fraction.getD []) 0 / tens (n.fraction.getD []).length)
    * powerOfTen n.exponent

def value (n : Numeral) (negative : Bool) : ℚ := if negative then -n.absolute else n.absolute

theorem cast_tens_pos (s : Nat) : (0 : ℚ) < tens s := Nat.cast_pos.2 (tens_pos s)

theorem cast_tens_ne_zero (s : Nat) : (tens s : ℚ) ≠ 0 := (cast_tens_pos s).ne'

theorem powerOfTen_eq (n : Numeral) :
    powerOfTen n.exponent = tens n.exponentValue.toNat / tens (-n.exponentValue).toNat := by
  have none : (tens 0 : ℚ) = 1 := Nat.cast_one
  unfold exponentValue
  rcases n.exponent with _ | ⟨negative, digits⟩
  · simp [powerOfTen, none]
  · cases negative <;> simp [powerOfTen, none]

theorem absolute_nonneg (n : Numeral) : 0 ≤ n.absolute := by
  have point := (cast_tens_pos (n.fraction.getD []).length).le
  have power : 0 ≤ powerOfTen n.exponent := by
    rw [powerOfTen_eq]
    exact div_nonneg (cast_tens_pos _).le (cast_tens_pos _).le
  exact mul_nonneg (add_nonneg (Nat.cast_nonneg _) (div_nonneg (Nat.cast_nonneg _) point)) power

/-- The point taken out of the digits. -/
theorem coefficient_eq (n : Numeral) (negative : Bool) :
    (n.toDecimal negative).coefficient
      = Nat.ofDigitChars 10 n.whole 0 * tens (n.fraction.getD []).length
        + Nat.ofDigitChars 10 (n.fraction.getD []) 0 := by
  rw [toDecimal, Nat.ofDigitChars_append, Nat.ofDigitChars_eq_ofDigitChars_zero, Nat.mul_comm]
  rfl

/-- The digits of a numeral for `m` are those of `m`, but for zeros at the end of either. -/
theorem coefficient_of_whole {n : Numeral} {m : Nat} (whole : n.absolute = m) (negative : Bool) :
    (n.toDecimal negative).coefficient * tens n.exponentValue.toNat
      = m * tens ((n.fraction.getD []).length + (-n.exponentValue).toNat) := by
  have point := cast_tens_ne_zero (n.fraction.getD []).length
  have power := cast_tens_ne_zero (-n.exponentValue).toNat
  have equal : ((n.toDecimal negative).coefficient : ℚ) * tens n.exponentValue.toNat
      = m * (tens (n.fraction.getD []).length * tens (-n.exponentValue).toNat) := by
    rw [← whole, absolute, powerOfTen_eq, coefficient_eq]
    push_cast
    field_simp
  rw [tens_add]
  exact_mod_cast equal

theorem toDouble_of_whole {n : Numeral} {m : Nat} (whole : n.absolute = m)
    (small : m < Double.step 53) (negative : Bool) :
    (n.toDecimal negative).toDouble
      = .finite ⟨negative, m * Double.unitsPerOne, Double.fits_ofNat small⟩ := by
  have scales : (n.toDecimal negative).scale - n.exponentValue.toNat
      = 0 - ((n.fraction.getD []).length + (-n.exponentValue).toNat : Nat) := by
    unfold toDecimal
    dsimp only
    omega
  rw [← Decimal.toDouble_whole negative small]
  exact Decimal.toDouble_congr negative (coefficient_of_whole whole negative) scales

theorem absolute_of_value {n : Numeral} {negative : Bool} {k : Int}
    (value : n.value negative = k) : n.absolute = k.natAbs := by
  have size : |n.value negative| = n.absolute := by
    cases negative with
    | false => exact abs_of_nonneg n.absolute_nonneg
    | true => exact (abs_neg _).trans (abs_of_nonneg n.absolute_nonneg)
  rw [← size, value, Nat.cast_natAbs, Int.cast_abs]

theorem sign_of_value {n : Numeral} {negative : Bool} {k : Int} (value : n.value negative = k) :
    (if negative then -(k.natAbs : Int) else k.natAbs) = k := by
  have absolute := absolute_of_value value
  cases negative with
  | false =>
    have positive : ((k.natAbs : Int) : ℚ) = k := by
      rw [Int.cast_natCast, ← absolute]
      exact value
    exact Int.cast_injective positive
  | true =>
    have opposite : ((-(k.natAbs : Int) : Int) : ℚ) = k := by
      rw [Int.cast_neg, Int.cast_natCast, ← absolute]
      exact value
    exact Int.cast_injective opposite

end Numeral

/-! Written decimals -/

namespace DecimalStyle

theorem append_zeros (digits : List Char) :
    ∃ k, digits = dropTrailingZeros digits ++ List.replicate k '0' := by
  have zeros : ∀ c ∈ (digits.reverse.takeWhile (· = '0')).reverse, c = '0' := by
    intro c member
    simpa using List.mem_takeWhile_imp (List.mem_reverse.1 member)
  refine ⟨(digits.reverse.takeWhile (· = '0')).reverse.length, ?_⟩
  rw [← List.eq_replicate_of_mem zeros, dropTrailingZeros, ← List.reverse_append,
    List.takeWhile_append_dropWhile, List.reverse_reverse]

/-- The significant digits are all but zeros at the end. -/
theorem toDigits_significant {n : Nat} (nonzero : n ≠ 0) :
    ∃ k, Nat.toDigits 10 n = significant n ++ List.replicate k '0' := by
  obtain ⟨k, digits⟩ := append_zeros (Nat.toDigits 10 n)
  unfold significant
  split
  · rename_i none
    have value : Nat.ofDigitChars 10 (Nat.toDigits 10 n) 0 = n := Nat.ofDigitChars_ten_toDigits
    rw [digits, none, List.nil_append, Nat.ofDigitChars_replicate_zero, Nat.mul_zero] at value
    exact absurd value.symm nonzero
  · exact ⟨k, digits⟩

theorem value_append_zeros (digits : List Char) (k : Nat) :
    Nat.ofDigitChars 10 (digits ++ List.replicate k '0') 0
      = Nat.ofDigitChars 10 digits 0 * tens k := by
  rw [Nat.ofDigitChars_append, Nat.ofDigitChars_replicate_zero, Nat.mul_comm]
  rfl

theorem value_zeros_append (k : Nat) (digits : List Char) :
    Nat.ofDigitChars 10 ('0' :: (List.replicate k '0' ++ digits)) 0
      = Nat.ofDigitChars 10 digits 0 := by
  have zeros : Nat.ofDigitChars 10 (List.replicate (k + 1) '0') 0 = 0 := by
    rw [Nat.ofDigitChars_replicate_zero, Nat.mul_zero]
  rw [← List.cons_append, ← List.replicate_succ, Nat.ofDigitChars_append, zeros]

theorem toDouble_plainNumeral (negative : Bool) {digits : List Char} (leading : Int) :
    ((plainNumeral digits leading).toDecimal negative).toDouble
      = Decimal.toDouble ⟨negative, Nat.ofDigitChars 10 digits 0, leading + 1 - digits.length⟩ := by
  cases leading with
  | ofNat e =>
    by_cases whole : digits.length ≤ e + 1
    · -- zeros up to the point, and one behind it
      have parts : (plainNumeral digits (.ofNat e)).toDecimal negative
          = ⟨negative, Nat.ofDigitChars 10 digits 0 * tens (e + 1 - digits.length + 1), -1⟩ := by
        have taken := List.take_of_length_le whole
        have none := List.drop_eq_nil_of_le whole
        rw [← value_append_zeros, List.replicate_succ', ← List.append_assoc]
        simp only [plainNumeral, Numeral.toDecimal, Numeral.exponentValue, taken, none, if_true]
        rfl
      rw [parts, Decimal.toDouble_pad, Int.ofNat_eq_natCast]
      congr 2
      omega
    · have parts : (plainNumeral digits (.ofNat e)).toDecimal negative
          = ⟨negative, Nat.ofDigitChars 10 digits 0, .ofNat e + 1 - digits.length⟩ := by
        have taken : (digits.take (e + 1)).length = e + 1 := List.length_take_of_le (by omega)
        have behind : digits.drop (e + 1) ≠ [] := mt List.drop_eq_nil_iff.1 whole
        simp only [plainNumeral, Numeral.toDecimal, Numeral.exponentValue, taken, if_neg behind,
          Nat.sub_self, List.replicate_zero, List.append_nil, Option.getD_some,
          List.take_append_drop, List.length_drop, Decimal.mk.injEq, true_and,
          Int.ofNat_eq_natCast]
        omega
      rw [parts]
  | negSucc e =>
    have parts : (plainNumeral digits (.negSucc e)).toDecimal negative
        = ⟨negative, Nat.ofDigitChars 10 digits 0, .negSucc e + 1 - digits.length⟩ := by
      have value := value_zeros_append e digits
      simp only [plainNumeral, Numeral.toDecimal, Numeral.exponentValue, Option.getD_some,
        List.singleton_append, value, List.length_append, List.length_replicate,
        Decimal.mk.injEq, true_and]
      omega
    rw [parts]

theorem toDouble_scientificNumeral (negative : Bool) {digits : List Char} (filled : digits ≠ [])
    (leading : Int) :
    ((scientificNumeral digits leading).toDecimal negative).toDouble
      = Decimal.toDouble ⟨negative, Nat.ofDigitChars 10 digits 0, leading + 1 - digits.length⟩ := by
  have parts : (scientificNumeral digits leading).toDecimal negative
      = ⟨negative, Nat.ofDigitChars 10 digits 0, leading + 1 - digits.length⟩ := by
    have first : 0 < digits.length := List.length_pos_iff.2 filled
    have fraction : (if digits.drop 1 = [] then none else some (digits.drop 1)).getD []
        = digits.drop 1 := by
      split <;> simp_all
    have exponent : (scientificNumeral digits leading).exponentValue = leading := by
      have value : Nat.ofDigitChars 10 (Nat.toDigits 10 leading.natAbs) 0 = leading.natAbs :=
        Nat.ofDigitChars_ten_toDigits
      simp only [scientificNumeral, Numeral.exponentValue, value, decide_eq_true_eq]
      split <;> omega
    unfold Numeral.toDecimal
    rw [exponent]
    simp only [scientificNumeral, fraction, List.take_append_drop, List.length_drop,
      Decimal.mk.injEq, true_and]
    omega
  rw [parts]

theorem toDouble_layOut (style : DecimalStyle) (negative : Bool) {digits : List Char}
    (filled : digits ≠ []) (leading : Int) :
    ((style.layOut digits leading).toDecimal negative).toDouble
      = Decimal.toDouble ⟨negative, Nat.ofDigitChars 10 digits 0, leading + 1 - digits.length⟩ := by
  unfold layOut
  split
  · exact toDouble_plainNumeral negative leading
  · exact toDouble_scientificNumeral negative filled leading

/-- A decimal is written as a numeral with its value. -/
theorem toDouble_numeral (style : DecimalStyle) (d : Decimal) :
    ((style.numeral d).toDecimal d.negative).toDouble = d.toDouble := by
  obtain ⟨negative, coefficient, scale⟩ := d
  rw [numeral, toDouble_layOut style negative (significant_ne_nil _)]
  by_cases zero : coefficient = 0
  · subst zero
    have none : Nat.ofDigitChars 10 (significant 0) 0 = 0 := rfl
    dsimp only
    rw [none, Decimal.toDouble_zero, Decimal.toDouble_zero]
  · obtain ⟨k, digits⟩ := toDigits_significant zero
    have value : coefficient = Nat.ofDigitChars 10 (significant coefficient) 0 * tens k := by
      rw [← value_append_zeros, ← digits]
      exact Nat.ofDigitChars_ten_toDigits.symm
    have length : digitCount coefficient = (significant coefficient).length + k := by
      rw [digitCount, digits, List.length_append, List.length_replicate]
    have scaled : (digitCount coefficient : Int) + scale - 1 + 1 - (significant coefficient).length
        = scale + k := by
      omega
    rw [if_neg zero, Decimal.magnitude, scaled, ← Decimal.toDouble_pad, ← value]

end DecimalStyle

end Stepflow
