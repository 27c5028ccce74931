import Stepflow.Text.Blank
import Stepflow.Json.Value
import Stepflow.Json.Printer

/-!
# Expressions

An expression is a single token: a number, a truth value, a quoted string or the name of a
variable; anything else is text that stands for itself.

* `resolve`: the value an assignment stores;
* `holds`: whether a branch is taken;
* `Value.display`: a value as it appears in a log line.
-/

namespace Stepflow

open Json

/-- 2⁵³ - 1. Integers up to this are doubles one by one, and are kept as integers. -/
def maxSafeInteger : Nat := 9007199254740991

theorem integerRange_safe {n : Int} (h : n.natAbs ≤ maxSafeInteger) : IntegerRange n := by
  unfold IntegerRange; unfold maxSafeInteger at h; omega

/-- A literal as a number: `5` and `5.0` are both the integer 5. -/
def Json.Number.ofLiteral (x : Double.Finite) : Number :=
  match x.toInt? with
  | some n =>
    if h : n.natAbs ≤ maxSafeInteger then .integer n (integerRange_safe h) else .double x
  | none => .double x

/-- The number that an expression spells, apart from white space around it. Blank text is zero. -/
def literal? (expression : String) : Option Number :=
  match trim expression.toList with
  | [] => some (.ofLiteral (.zero false))
  | token =>
    match (Decimal.ofChars? token).map Decimal.toDouble with
    | some (.finite x) => some (.ofLiteral x)
    | _ => none

/-- The value of a variable. One that holds null counts as undefined. -/
def defined? (values : KeyMap Value) (name : String) : Option Value :=
  (values.get? name).filter (!·.isNull)

/-- The value of an expression: a number, then a truth value, then a quoted string with all quotes
taken out, then a variable that is defined, then the text itself. -/
def resolve (expression : String) (values : KeyMap Value) : Value :=
  match literal? expression with
  | some n => .number n
  | none =>
    if expression = "true" then .bool true
    else if expression = "false" then .bool false
    else if expression.toList.head? = some '"' then
      .string (.ofList (expression.toList.filter (· ≠ '"')))
    else (defined? values expression).getD (.string expression)

namespace Json.Value

/-- Neither null, false, zero nor empty text. -/
def isTruthy (v : Value) : Bool :=
  match v.tree with
  | .null => false
  | .bool b => b
  | .number n => !n.isZero
  | .string s => s ≠ ""
  | .array _ | .object _ => true

def display (v : Value) : String :=
  match v.tree with
  | .null => "undefined"
  | .string s => s
  | t => t.render

end Json.Value

/-- A condition holds when it is the word `true` or names a truthy variable. -/
def holds (condition : String) (values : KeyMap Value) : Bool :=
  condition = "true" || (values.get? condition).any (·.isTruthy)

end Stepflow
