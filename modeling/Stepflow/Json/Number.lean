import Stepflow.Numeric.Approximation
import Stepflow.Numeric.Shortest

/-!
# JSON numbers

A number is an integer of 64 bits, signed or unsigned, or a finite double. Integers are kept as
integers, so they are printed as they were read; a double is read approximately, so one printed
with all its digits may be read back as a neighbour.
-/

namespace Stepflow.Json

/-- From -2⁶³, the least signed integer of 64 bits, to below 2⁶⁴, past the greatest unsigned
one. -/
def IntegerRange (n : Int) : Prop := -9223372036854775808 ≤ n ∧ n < 18446744073709551616

instance (n : Int) : Decidable (IntegerRange n) := inferInstanceAs (Decidable (_ ∧ _))

inductive Number where
  | integer (n : Int) (range : IntegerRange n)
  | double (x : Double.Finite)
deriving DecidableEq

namespace Number

/-- The double that a numeral is read as. One too large for a double denotes nothing. -/
def ofDecimal? (d : Decimal) : Option Number :=
  match d.approximate with
  | .finite x => some (.double x)
  | .infinite _ | .nan => none

/-- The number that a numeral denotes: an integer when it has neither point nor exponent and is in
range, else a double. There is no integer `-0`. -/
def ofNumeral? (negative : Bool) (numeral : Numeral) : Option Number :=
  match numeral.toWord? with
  | some k =>
    let n : Int := if negative then -k else k
    if range : IntegerRange n then
      if negative ∧ k = 0 then some (.double (.zero true)) else some (.integer n range)
    else ofDecimal? (numeral.truncate negative)
  | none => ofDecimal? (numeral.truncate negative)

theorem integerRange_toNat (n : UInt64) : IntegerRange n.toNat := by
  have := n.toNat_lt
  unfold IntegerRange; omega

def ofUInt64 (n : UInt64) : Number := .integer n.toNat (integerRange_toNat n)

def toDouble : Number → Double
  | .integer n _ => .ofInt n
  | .double x => .finite x

def toFinite? (n : Number) : Option Double.Finite :=
  match n.toDouble with
  | .finite x => some x
  | .infinite _ | .nan => none

/-- The number as an unsigned integer. No double is one, even a whole one. -/
def toUInt64? : Number → Option UInt64
  | .integer (.ofNat n) _ => some (.ofNat n)
  | _ => none

def isZero : Number → Bool
  | .integer n _ => n = 0
  | .double x => x.units = 0

/-- Doubles are written plainly from 10⁻⁵ up to 10¹⁶. -/
def style : DecimalStyle := ⟨-5, 15⟩

def write : Number → List Char
  | .integer n _ => DecimalStyle.signed (n < 0) (Nat.toDigits 10 n.natAbs)
  | .double x => style.write x.shortest

end Number

end Stepflow.Json
