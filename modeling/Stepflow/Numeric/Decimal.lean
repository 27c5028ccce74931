import Stepflow.Numeric.Double

/-!
# Decimals and written numbers

* `Decimal.toDouble`: the double nearest to a decimal, or an infinity;
* `Numeral`: a number as it is written, digit by digit, before any value is given to it;
* `Numeral.scan`: the longest run of digits, point and exponent at the front of a text. Which of
  the parts may be empty is for the reader to say: see `Numeral.strict` and `Numeral.lenient`.
-/

namespace Stepflow

/-- `10ˢ`. -/
def tens (s : Nat) : Nat := Nat.pow 10 s

theorem tens_pos (s : Nat) : 0 < tens s := Nat.pow_pos (by decide)

/-- The number `± coefficient · 10 ^ scale`. -/
structure Decimal where
  negative : Bool
  coefficient : Nat
  scale : Int
deriving DecidableEq

def digitCount (n : Nat) : Nat := (Nat.toDigits 10 n).length

theorem digitCount_le_iff {n k : Nat} (pos : 0 < k) : digitCount n ≤ k ↔ n < tens k :=
  Nat.length_toDigits_le_iff (by decide) pos

namespace Decimal

/-- A positive decimal is below `10 ^ magnitude` and no smaller than a tenth of it. -/
def magnitude (d : Decimal) : Int := digitCount d.coefficient + d.scale

/-- Magnitudes further out than this are beyond every double: 2¹⁰²⁴ < 10⁴⁰⁰ and
10⁻⁴⁰⁰ < 2⁻¹⁰⁷⁵. -/
def horizon : Int := 400

/-- The double nearest to a decimal. -/
def toDouble (d : Decimal) : Double :=
  if d.coefficient = 0 ∨ d.magnitude < -horizon then .finite (.zero d.negative)
  else if horizon < d.magnitude then .infinite d.negative
  else match d.scale with
    | .ofNat s => .ofQuotient d.negative (d.coefficient * tens s * Double.unitsPerOne) 1
    | .negSucc s => .ofQuotient d.negative (d.coefficient * Double.unitsPerOne) (tens (s + 1))

end Decimal

/-- A number as it is written: `whole.fraction e exponent`, unsigned. -/
structure Numeral where
  whole : List Char
  fraction : Option (List Char)
  exponent : Option (Bool × List Char)
deriving DecidableEq

namespace Numeral

def scanDigits (s : List Char) : List Char × List Char :=
  (s.takeWhile Char.isDigit, s.dropWhile Char.isDigit)

def scanFraction : List Char → Option (List Char) × List Char
  | '.' :: s => let (digits, rest) := scanDigits s; (some digits, rest)
  | s => (none, s)

def scanSign : List Char → Bool × List Char
  | '-' :: s => (true, s)
  | '+' :: s => (false, s)
  | s => (false, s)

def scanExponent : List Char → Option (Bool × List Char) × List Char
  | [] => (none, [])
  | c :: s =>
    if c = 'e' ∨ c = 'E' then
      let (negative, s) := scanSign s
      let (digits, rest) := scanDigits s
      (some (negative, digits), rest)
    else (none, c :: s)

/-- The parts of a number at the front of a text, and what follows them. -/
def scan (s : List Char) : Numeral × List Char :=
  let (whole, s) := scanDigits s
  let (fraction, s) := scanFraction s
  let (exponent, s) := scanExponent s
  (⟨whole, fraction, exponent⟩, s)

/-- An exponent that is written has digits. -/
def exponentWritten (n : Numeral) : Bool := n.exponent.all (fun e => e.2 ≠ [])

/-- Digits before the point without leading zeros, and digits after every point. -/
def strict (n : Numeral) : Bool :=
  (n.whole = ['0'] || !(n.whole = [] || n.whole.head? = some '0'))
    && n.fraction ≠ some [] && n.exponentWritten

/-- A digit somewhere, before or after the point. -/
def lenient (n : Numeral) : Bool :=
  !(n.whole = [] && n.fraction.getD [] = []) && n.exponentWritten

def exponentValue (n : Numeral) : Int :=
  match n.exponent with
  | none => 0
  | some (negative, digits) =>
    let e := Nat.ofDigitChars 10 digits 0
    if negative then -e else e

def toDecimal (n : Numeral) (negative : Bool) : Decimal where
  negative := negative
  coefficient := Nat.ofDigitChars 10 (n.whole ++ n.fraction.getD []) 0
  scale := n.exponentValue - (n.fraction.getD []).length

end Numeral

/-- A text that is a number as a whole: an optional sign, then digits around an optional point. -/
def Decimal.ofChars? (s : List Char) : Option Decimal :=
  let (negative, s) := Numeral.scanSign s
  let (numeral, rest) := Numeral.scan s
  if numeral.lenient && rest.isEmpty then some (numeral.toDecimal negative) else none

end Stepflow
