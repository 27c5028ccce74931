import Stepflow.Numeric.Decimal

/-!
# Writing a double

A double is written with the fewest digits that it is the nearest double to.

* `Double.Finite.shortest`: on the decimal grids from one digit to seventeen, the first with a
  point that reads back; of two such points the nearer, of two equally near the even one;
* `Double.Finite.toDouble_shortest`: read exactly, the digits give the double they are written for;
* `DecimalStyle`: where plain notation ends. Both notations keep a point or an exponent, so a
  double never looks like an integer.
-/

namespace Stepflow

namespace Double.Finite

/-- `|x| / 10 ^ scale`, as a numerator and a denominator. -/
def ratio (x : Finite) : Int → Nat × Nat
  | .ofNat s => (x.units, unitsPerOne * tens s)
  | .negSucc s => (x.units * tens (s + 1), unitsPerOne)

/-- The exponent of the leading decimal digit. One unit is about 4.9 · 10⁻³²⁴. -/
def leading (x : Finite) : Int :=
  if unitsPerOne ≤ x.units then digitCount (x.units / unitsPerOne) - 1
  else digitCount (x.units * tens 324 / unitsPerOne) - 325

/-- The point nearest to `x`, of those on the grid of `10 ^ scale` that read back as `x`. Only the
two neighbours of `x` can do so. -/
def onGrid? (x : Finite) (scale : Int) : Option Decimal :=
  let (n, d) := x.ratio scale
  [nearest n d, n / d, n / d + 1].map (Decimal.mk x.negative · scale)
    |>.find? (·.toDouble = .finite x)

/-- All digits of `x`: a unit is `5¹⁰⁷⁴ · 10⁻¹⁰⁷⁴`. -/
def exact (x : Finite) : Decimal := ⟨x.negative, x.units * Nat.pow 5 depth, -depth⟩

/-- The shortest decimal that reads back as `x`. -/
def shortest (x : Finite) : Decimal :=
  if x.units = 0 then ⟨x.negative, 0, 0⟩
  else ((List.range 17).findSome? fun (k : Nat) => x.onGrid? (x.leading - k)).getD x.exact

theorem toDouble_of_onGrid? {x : Finite} {scale : Int} {d : Decimal}
    (h : x.onGrid? scale = some d) : d.toDouble = .finite x := by
  simpa using List.find?_some h

/-- All digits of a double are at most 1474, and more than 674. -/
theorem digitCount_exact (x : Finite) (nonzero : x.units ≠ 0) :
    674 < digitCount x.exact.coefficient ∧ digitCount x.exact.coefficient ≤ 1474 := by
  have bound : x.units < step 2098 := (log2_lt_iff nonzero).1 x.fits.1
  have low : tens 674 ≤ Nat.pow 5 depth := by decide +kernel
  have high : step 2098 * Nat.pow 5 depth ≤ tens 1474 := by decide +kernel
  have positive : 0 < Nat.pow 5 depth := Nat.lt_of_lt_of_le (tens_pos _) low
  have large : tens 674 ≤ x.exact.coefficient :=
    Nat.le_trans low (Nat.le_mul_of_pos_left _ (Nat.pos_of_ne_zero nonzero))
  have small : x.exact.coefficient < tens 1474 :=
    Nat.lt_of_lt_of_le (Nat.mul_lt_mul_of_pos_right bound positive) high
  constructor
  · exact Nat.lt_of_not_le (mt (digitCount_le_iff (by decide)).1 (Nat.not_lt.2 large))
  · exact (digitCount_le_iff (by decide)).2 small

theorem exact_coefficient_mul (x : Finite) :
    x.exact.coefficient * unitsPerOne = x.units * tens (depth - 1 + 1) := by
  have whole : Nat.pow 5 depth * unitsPerOne = tens (depth - 1 + 1) := by decide +kernel
  rw [← whole, ← Nat.mul_assoc]; rfl

theorem toDouble_exact (x : Finite) (nonzero : x.units ≠ 0) : x.exact.toDouble = .finite x := by
  obtain ⟨least, most⟩ := x.digitCount_exact nonzero
  have scale : x.exact.scale = .negSucc (depth - 1) := rfl
  have magnitude : x.exact.magnitude = digitCount x.exact.coefficient - 1074 := rfl
  have nonzero : x.exact.coefficient ≠ 0 := by
    intro zero
    rw [zero] at least
    exact absurd least (by decide)
  unfold Decimal.toDouble
  rw [if_neg, if_neg, scale]
  · have cancel := ofQuotient_mul_right x.negative x.units 1 (tens_pos (depth - 1 + 1))
    rw [Nat.one_mul, ofQuotient_units] at cancel
    dsimp only
    rw [exact_coefficient_mul]
    exact cancel
  · rw [magnitude]; unfold Decimal.horizon; omega
  · rw [magnitude]; unfold Decimal.horizon; omega

/-- What is written reads back, also where no grid has a point. -/
theorem toDouble_shortest (x : Finite) : x.shortest.toDouble = .finite x := by
  unfold shortest
  by_cases zero : x.units = 0
  · obtain ⟨negative, units, fits⟩ := x
    subst zero
    rfl
  · rw [if_neg zero]
    cases found : (List.range 17).findSome? fun (k : Nat) => x.onGrid? (x.leading - k) with
    | none => exact x.toDouble_exact zero
    | some d =>
      obtain ⟨k, -, hit⟩ := List.exists_of_findSome?_eq_some found
      exact toDouble_of_onGrid? hit

end Double.Finite

/-- How decimals are written: plainly while the exponent of the leading digit is from `low` to
`high`, else as a leading digit and a power of ten. -/
structure DecimalStyle where
  low : Int
  high : Int

namespace DecimalStyle

def dropTrailingZeros (digits : List Char) : List Char :=
  (digits.reverse.dropWhile (· = '0')).reverse

/-- The digits up to the last that is not zero, at least one. -/
def significant (coefficient : Nat) : List Char :=
  match dropTrailingZeros (Nat.toDigits 10 coefficient) with
  | [] => ['0']
  | digits => digits

def signed (negative : Bool) (s : List Char) : List Char := if negative then '-' :: s else s

/-- `digits` with the point after the digit of exponent 0. -/
def plain (digits : List Char) (leading : Int) : List Char :=
  match leading with
  | .ofNat e =>
    let whole := digits.take (e + 1)
    let rest := digits.drop (e + 1)
    whole ++ List.replicate (e + 1 - whole.length) '0' ++ '.' :: if rest = [] then ['0'] else rest
  | .negSucc e => '0' :: '.' :: List.replicate e '0' ++ digits

def scientific (digits : List Char) (leading : Int) : List Char :=
  let fraction := digits.drop 1
  digits.take 1 ++ (if fraction = [] then [] else '.' :: fraction)
    ++ 'e' :: (if leading < 0 then '-' else '+') :: Nat.toDigits 10 leading.natAbs

def write (style : DecimalStyle) (d : Decimal) : List Char :=
  let digits := significant d.coefficient
  let leading := if d.coefficient = 0 then 0 else d.magnitude - 1
  signed d.negative <|
    if style.low ≤ leading ∧ leading ≤ style.high then plain digits leading
    else scientific digits leading

end DecimalStyle

end Stepflow
