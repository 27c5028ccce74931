import Mathlib.Tactic.NormNum
import Stepflow.Proofs.Numeric.Decimals
import Stepflow.Proofs.Run.Recall

/-!
# Literals

A literal may be written in many ways, with white space around it, a sign, zeros that say nothing,
a point and a power of ten. What counts is the number that it denotes.

* `Denotes`: the number that a text stands for;
* `literal?_eq_integer`: a text that denotes an integer up to 2⁵³ - 1 is read as that integer;
* `literal?_write`: a literal that is printed is read as the literal it was;
* `literals_exact`: so an assignment stores the integer, as a number or as text, and what a log line
  shows of a literal says what it is.
-/

namespace Stepflow

open Json

/-! Whole doubles -/

theorem toInt?_whole {m : Nat} (negative : Bool) (fits : Double.Fits (m * Double.unitsPerOne)) :
    Double.Finite.toInt? ⟨negative, m * Double.unitsPerOne, fits⟩
      = some (if negative then -(m : Int) else m) := by
  have units : (Double.unitsPerOne : Int) ≠ 0 :=
    Int.natCast_ne_zero.2 (Nat.ne_of_gt Double.unitsPerOne_pos)
  rw [Double.Finite.toInt?, if_pos (Nat.dvd_mul_left _ _), Double.Finite.total]
  cases negative with
  | false =>
    rw [if_neg Bool.false_ne_true, if_neg Bool.false_ne_true, Int.natCast_mul,
      Int.mul_ediv_cancel _ units]
  | true =>
    rw [if_pos rfl, if_pos rfl, Int.natCast_mul, ← Int.neg_mul, Int.mul_ediv_cancel _ units]

theorem ofLiteral_whole {x : Double.Finite} {n : Int} (whole : x.toInt? = some n)
    (safe : n.natAbs ≤ maxSafeInteger) :
    Number.ofLiteral x = .integer n (integerRange_safe safe) := by
  unfold Number.ofLiteral
  split
  · rename_i m found
    cases whole.symm.trans found
    exact dif_pos safe
  · rename_i none
    cases whole.symm.trans none

theorem ofLiteral_eq_double {x y : Double.Finite} (kept : Number.ofLiteral x = .double y) :
    x = y := by
  unfold Number.ofLiteral at kept
  split at kept
  · split at kept
    · cases kept
    · exact Number.double.inj kept
  · exact Number.double.inj kept

/-! Texts -/

theorem isBlank_of_isDigit {c : Char} (digit : c.isDigit = true) : isBlank c = false := by
  have range : 48 ≤ c.toNat ∧ c.toNat ≤ 57 := by
    simpa [Char.isDigit, UInt32.le_iff_toNat_le] using digit
  simp only [isBlank, blankRanges, List.any_cons, List.any_nil, Bool.or_eq_false_iff,
    Bool.and_eq_false_iff, decide_eq_false_iff_not, and_true]
  omega

theorem dropWhile_unblank {s : List Char} (unblank : ∀ c ∈ s, isBlank c = false)
    (filled : s ≠ []) (rest : List Char) : (s ++ rest).dropWhile isBlank = s ++ rest := by
  obtain ⟨c, s, rfl⟩ := List.exists_cons_of_ne_nil filled
  exact List.dropWhile_cons_of_neg (Bool.eq_false_iff.1 (unblank c (.head _)))

/-- White space around a text is all that is taken off it. -/
theorem trim_around {before token after : List Char} (first : ∀ c ∈ before, isBlank c = true)
    (unblank : ∀ c ∈ token, isBlank c = false) (filled : token ≠ [])
    (last : ∀ c ∈ after, isBlank c = true) : trim (before ++ (token ++ after)) = token := by
  have back := dropWhile_unblank (s := token.reverse) (by simpa using unblank)
    (by simpa using filled) []
  rw [List.append_nil] at back
  rw [trim, List.dropWhile_append_of_pos first, dropWhile_unblank unblank filled,
    List.reverse_append, List.dropWhile_append_of_pos (by simpa using last), back,
    List.reverse_reverse]

namespace Numeral

theorem unblank_sign {negative : Bool} {sign : List Char} (signed : WrittenSign negative sign) :
    ∀ c ∈ sign, isBlank c = false := by
  cases signed with
  | unsigned => exact fun c member => absurd member List.not_mem_nil
  | plus | minus => exact List.forall_mem_singleton.2 (by decide)

theorem unblank_exponent {e : Option (Bool × List Char)} {s : List Char}
    (written : WrittenExponent e s) (numeric : ∀ v ∈ e, ∀ c ∈ v.2, c.isDigit = true) :
    ∀ c ∈ s, isBlank c = false := by
  cases written with
  | unwritten => exact fun c member => absurd member List.not_mem_nil
  | written known signed digits =>
    intro c member
    rcases List.mem_cons.1 member with rfl | behind
    · rcases known with rfl | rfl <;> decide
    · rcases List.mem_append.1 behind with sign | digit
      · exact unblank_sign signed c sign
      · exact isBlank_of_isDigit (numeric _ rfl c digit)

theorem unblank_written {n : Numeral} (numeric : n.Numeric) {s : List Char}
    (written : n.Written s) : ∀ c ∈ s, isBlank c = false := by
  obtain ⟨power, exponent, rfl⟩ := written
  intro c member
  rcases List.mem_append.1 member with whole | behind
  · exact isBlank_of_isDigit (numeric.whole c whole)
  · rcases List.mem_append.1 behind with point | power
    · cases fraction : n.fraction with
      | none =>
        rw [fraction] at point
        exact absurd point List.not_mem_nil
      | some digits =>
        rw [fraction] at point
        rcases List.mem_cons.1 point with rfl | digit
        · decide
        · exact isBlank_of_isDigit (numeric.fraction digits fraction c digit)
    · exact unblank_exponent exponent numeric.exponent c power

/-- A numeral begins with a digit or with the point. -/
theorem Grammatical.begins {n : Numeral} (grammatical : n.Grammatical) {s : List Char}
    (written : n.Written s) : ∃ c rest, s = c :: rest ∧ c ≠ '-' ∧ c ≠ '+' := by
  obtain ⟨power, -, rfl⟩ := written
  obtain ⟨whole, fraction, exponent⟩ := n
  cases whole with
  | cons c whole =>
    have digit := grammatical.whole c (.head _)
    exact ⟨c, _, rfl, ne_of_isDigit digit rfl, ne_of_isDigit digit rfl⟩
  | nil =>
    cases fraction with
    | none => exact absurd rfl grammatical.filled
    | some digits => exact ⟨'.', _, rfl, by decide, by decide⟩

/-- A numeral after its sign, with white space around it. -/
inductive Spells (negative : Bool) (n : Numeral) : String → Prop where
  | mk {before sign digits after : List Char} (first : ∀ c ∈ before, isBlank c = true)
      (signed : WrittenSign negative sign) (grammatical : n.Grammatical)
      (written : n.Written digits) (last : ∀ c ∈ after, isBlank c = true) :
      Spells negative n (.ofList (before ++ (sign ++ digits ++ after)))

theorem ofChars?_written {negative : Bool} {n : Numeral} {sign digits : List Char}
    (signed : WrittenSign negative sign) (grammatical : n.Grammatical)
    (written : n.Written digits) :
    Decimal.ofChars? (sign ++ digits) = some (n.toDecimal negative) := by
  have unsigned : ∀ c ∈ digits.head?, c ≠ '-' ∧ c ≠ '+' := by
    obtain ⟨c, rest, rfl, unsigned⟩ := grammatical.begins written
    rintro _ ⟨⟩
    exact unsigned
  have scanned : scan (digits ++ []) = (n, []) := scan_written grammatical written (by rintro _ ⟨⟩)
  rw [List.append_nil] at scanned
  simp only [Decimal.ofChars?, scanSign_written signed unsigned, scanned, grammatical.lenient,
    List.isEmpty_nil, Bool.and_self, if_true]

theorem Spells.read {negative : Bool} {n : Numeral} {text : String}
    (spells : n.Spells negative text) :
    Decimal.ofChars? (trim text.toList) = some (n.toDecimal negative) := by
  obtain ⟨first, signed, grammatical, written, last⟩ := spells
  have unblank : ∀ c ∈ _ ++ _, isBlank c = false := fun c member =>
    (List.mem_append.1 member).elim (unblank_sign signed c)
      (unblank_written grammatical.toNumeric written c)
  obtain ⟨c, rest, digits, -⟩ := grammatical.begins written
  rw [String.toList_ofList, trim_around first unblank (by simp [digits]) last]
  exact ofChars?_written signed grammatical written

end Numeral

theorem literal?_of_read {text : String} {d : Decimal} {x : Double.Finite}
    (read : Decimal.ofChars? (trim text.toList) = some d) (finite : d.toDouble = .finite x) :
    literal? text = some (.ofLiteral x) := by
  unfold literal?
  split
  · rename_i blank
    rw [blank] at read
    cases read
  · rw [read, Option.map_some, finite]

/-- The text stands for the number `q`. -/
def Denotes (text : String) (q : ℚ) : Prop :=
  ∃ (negative : Bool) (n : Numeral), n.Spells negative text ∧ n.value negative = q

/-- An integer that doubles tell apart from its neighbours is read as that integer, whatever text
denotes it. -/
theorem literal?_eq_integer {text : String} {n : Int} (denotes : Denotes text n)
    (safe : n.natAbs ≤ maxSafeInteger) :
    literal? text = some (.integer n (integerRange_safe safe)) := by
  obtain ⟨negative, numeral, spells, value⟩ := denotes
  have small : n.natAbs < Double.step 53 := Nat.lt_of_le_of_lt safe (by decide +kernel)
  have finite := numeral.toDouble_of_whole (Numeral.absolute_of_value value) small negative
  rw [literal?_of_read spells.read finite]
  have whole := toInt?_whole negative (Double.fits_ofNat small)
  rw [Numeral.sign_of_value value] at whole
  rw [ofLiteral_whole whole safe]

/-! Numbers that are printed -/

theorem spells_write (k : Number) : k.numeral.2.Spells k.numeral.1 (.ofList k.write) := by
  have grammatical := k.numeric_numeral.grammatical k.strict_numeral
  have signed : Numeral.WrittenSign k.numeral.1 (DecimalStyle.signed k.numeral.1 []) := by
    cases k.numeral.1 with
    | false => exact .unsigned
    | true => exact .minus
  have text : k.write
      = [] ++ (DecimalStyle.signed k.numeral.1 [] ++ k.numeral.2.spell ++ []) := by
    rw [k.write_eq_spell, List.append_nil]
    cases k.numeral.1 <;> rfl
  rw [text]
  exact .mk (by simp) signed grammatical (Numeral.written_spell _) (by simp)

theorem denotes_write (n : Int) (range : IntegerRange n) :
    Denotes (.ofList (Number.integer n range).write) n := by
  refine ⟨_, _, spells_write _, ?_⟩
  have digits : Nat.ofDigitChars 10 (Nat.toDigits 10 n.natAbs) 0 = n.natAbs :=
    Nat.ofDigitChars_ten_toDigits
  have absolute : Numeral.absolute ⟨Nat.toDigits 10 n.natAbs, none, none⟩ = n.natAbs := by
    simp [Numeral.absolute, Numeral.powerOfTen, digits]
  rw [Number.numeral, Numeral.value, absolute, Nat.cast_natAbs]
  by_cases negative : n < 0
  · rw [if_pos (decide_eq_true negative), abs_of_neg negative, Int.cast_neg, neg_neg]
  · rw [if_neg fun yes => negative (of_decide_eq_true yes), abs_of_nonneg (Int.not_lt.1 negative)]

theorem ofList_write_integer (n : Int) (range : IntegerRange n) :
    String.ofList (Number.integer n range).write = toString n := by
  rw [Int.toString_eq_repr, Number.write, DecimalStyle.signed]
  cases n with
  | ofNat m =>
    rw [if_neg (by simp), Int.repr, Nat.repr_eq_ofList_toDigits]
    rfl
  | negSucc m =>
    rw [if_pos (by simp), Int.repr, Nat.repr_eq_ofList_toDigits, ← List.singleton_append,
      String.ofList_append]
    rfl

theorem literal?_double (x : Double.Finite) :
    literal? (.ofList (Number.double x).write) = some (.ofLiteral x) := by
  -- its shortest digits give it back, and so does the numeral they are laid out as
  have finite := Number.style.toDouble_numeral x.shortest
  rw [x.toDouble_shortest] at finite
  exact literal?_of_read (spells_write (.double x)).read finite

/-- The text of a literal is the literal. -/
theorem literal?_write (x : Double.Finite) :
    literal? (.ofList (Number.ofLiteral x).write) = some (.ofLiteral x) := by
  cases kept : Number.ofLiteral x with
  | integer n range =>
    -- only what is safe is kept as an integer
    have simple := simple_ofLiteral x
    rw [kept] at simple
    exact literal?_eq_integer (denotes_write n range) simple
  | double y =>
    obtain rfl := ofLiteral_eq_double kept
    rw [literal?_double, kept]

theorem resolve_of_literal? {expression : String} {k : Number}
    (literal : literal? expression = some k) (values : KeyMap Value) :
    resolve expression values = .number k := by
  rw [resolve, literal]

/-! Assignments -/

/-- A config value for an integer: the integer, a double equal to it, or a text that denotes it. -/
inductive Json.Value.Means (n : Int) : Value → Prop where
  | integer (range : IntegerRange n) : Means n (.number (.integer n range))
  | double {x : Double.Finite} (whole : x.toInt? = some n) : Means n (.number (.double x))
  | text {s : String} (denotes : Denotes s n) : Means n (.string s)

theorem Json.Value.Means.configText {a : Node} {key : String} {v : Value} {n : Int}
    (means : v.Means n) (safe : n.natAbs ≤ maxSafeInteger) (found : a.config.get? key = some v) :
    ∃ text, a.configText key = .ok (some text) ∧
      literal? text = some (.integer n (integerRange_safe safe)) := by
  unfold Node.configText
  rw [found]
  cases means with
  | integer range => exact ⟨_, rfl, literal?_eq_integer (denotes_write n range) safe⟩
  | double whole =>
    refine ⟨_, rfl, ?_⟩
    rw [literal?_double, ofLiteral_whole whole safe]
  | text denotes => exact ⟨_, rfl, literal?_eq_integer denotes safe⟩

theorem means_digits {n : Int} (safe : n.natAbs ≤ maxSafeInteger) :
    (Value.string (toString n)).Means n := by
  rw [← ofList_write_integer n (integerRange_safe safe)]
  exact .text (denotes_write n _)

/-- **Literals are exact.** An integer up to 2⁵³ - 1 is read as that integer, never as a double,
however it is written and whatever variables there are; so an assignment stores it, be it given as a
number or as a text. And a number that is read as a literal is read again from the text that shows
it. -/
theorem literals_exact :
    (∀ (n : Int) (safe : n.natAbs ≤ maxSafeInteger),
      (∀ text, Denotes text n →
        ∀ values, resolve text values = .number (.integer n (integerRange_safe safe))) ∧
      (Value.string (toString n)).Means n ∧
      ∀ (a : Node) (target : String) (v : Value), a.kind = .assign →
        a.configText Node.targetKey = .ok (some target) → target ≠ "" →
        a.config.get? Node.expressionKey = some v → v.Means n →
        ∀ values, (a.outcome values).update
          = some (target, .number (.integer n (integerRange_safe safe)))) ∧
    ∀ (expression : String) (k : Number), literal? expression = some k →
      (∀ values, resolve expression values = .number k) ∧
      ∀ values, resolve (Value.number k).display values = .number k := by
  constructor
  · intro n safe
    refine ⟨?_, means_digits safe, ?_⟩
    · intro text denotes values
      exact resolve_of_literal? (literal?_eq_integer denotes safe) values
    · intro a target v kind named filled found means values
      obtain ⟨text, configured, literal⟩ := means.configText safe found
      have value := resolve_of_literal? literal values
      exact Node.update_iff.2 ⟨kind, named, filled, some text, configured, value.symm⟩
  · intro expression k literal
    refine ⟨resolve_of_literal? literal, ?_⟩
    obtain ⟨x, rfl⟩ := of_literal? literal
    exact resolve_of_literal? (literal?_write x)

/-! A spelling with all that a numeral may have -/

def padded : String := " +0012.50e1\t"

theorem denotes_padded : Denotes padded (125 : Int) := by
  refine ⟨false, ⟨['0', '0', '1', '2'], some ['5', '0'], some (false, ['1'])⟩, ?_, ?_⟩
  · have text : padded
        = .ofList ([' '] ++ (['+'] ++ "0012.50e1".toList ++ ['\t'])) := by decide
    rw [text]
    have first : ∀ c ∈ [' '], isBlank c = true := List.forall_mem_singleton.2 (by decide)
    have last : ∀ c ∈ ['\t'], isBlank c = true := List.forall_mem_singleton.2 (by decide)
    refine .mk first .plus ?_ ⟨_, .written (.inl rfl) .unsigned _, rfl⟩ last
    exact ⟨⟨by simp, by simp, by simp⟩, by simp, by simp⟩
  · have whole : Nat.ofDigitChars 10 ['0', '0', '1', '2'] 0 = 12 := rfl
    have fraction : Nat.ofDigitChars 10 ['5', '0'] 0 = 50 := rfl
    have exponent : Nat.ofDigitChars 10 ['1'] 0 = 1 := rfl
    have tenth : tens 1 = 10 := rfl
    have hundredth : tens 2 = 100 := rfl
    simp only [Numeral.value, Numeral.absolute, Numeral.powerOfTen, Option.getD_some, whole,
      fraction, exponent, List.length_cons, List.length_nil, tenth, hundredth]
    norm_num

/-- With variables of such names about. -/
theorem padded_literal_exact :
    let values : KeyMap Value := .ofList [(padded, .bool true), ("2.50", .null)]
    let a : Node :=
      { Node.ofKind "a" .assign (.ofInt 0) (.ofInt 0) with
        config := .ofList [("targetVar", .string "limit"), ("expression", .string padded)] }
    (resolve padded values).display = "125" ∧
      (a.outcome values).update = some ("limit", resolve padded values) ∧
      resolve (resolve "2.50" values).display values = resolve "2.50" values := by
  intro values a
  have safe : (125 : Int).natAbs ≤ maxSafeInteger := by decide
  obtain ⟨integers, doubles⟩ := literals_exact
  obtain ⟨read, -, assigned⟩ := integers 125 safe
  refine ⟨?_, ?_, ?_⟩
  · rw [read padded denotes_padded]
    rfl
  · rw [read padded denotes_padded]
    exact assigned a "limit" _ rfl rfl (by decide) rfl (.text denotes_padded) values
  · obtain ⟨k, literal⟩ := Option.isSome_iff_exists.1
      (show (literal? "2.50").isSome = true by decide +kernel)
    obtain ⟨known, again⟩ := doubles "2.50" k literal
    rw [known, again]

end Stepflow
