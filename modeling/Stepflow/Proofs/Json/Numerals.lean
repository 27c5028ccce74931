import Mathlib.Data.List.TakeWhile
import Stepflow.Json.Reader

/-!
# Written numbers

Every number is written as a numeral of the JSON grammar, and a reader that meets one takes all
of it and nothing of what follows.

* `Numeral.Written`, `Numeral.scan_written`: the texts of a numeral, and their scan;
* `Numeral.spell`, `Number.write_eq_spell`: the text that a number is written as;
* `Number.reread?`, `readNumber_write`: what its text is read as. An integer is read as itself; a
  double may be read as a neighbour, and then it is not `Exact`.
-/

namespace Stepflow

theorem ne_of_isDigit {c other : Char} (digit : c.isDigit = true)
    (none : other.isDigit = false) : c ≠ other := by
  rintro rfl
  exact Bool.noConfusion (digit.symm.trans none)

/-- A text that does not go on with a number. -/
def Halts (s : List Char) : Prop :=
  ∀ c ∈ s.head?, c.isDigit = false ∧ c ≠ '.' ∧ c ≠ 'e' ∧ c ≠ 'E'

namespace Numeral

/-- The digits of a numeral are digits. -/
structure Numeric (n : Numeral) : Prop where
  whole : ∀ c ∈ n.whole, c.isDigit = true
  fraction : ∀ digits ∈ n.fraction, ∀ c ∈ digits, c.isDigit = true
  exponent : ∀ e ∈ n.exponent, ∀ c ∈ e.2, c.isDigit = true

/-- There is a digit before the point or behind it, and one in the exponent if it is written. -/
structure Grammatical (n : Numeral) : Prop extends n.Numeric where
  filled : n.whole ++ n.fraction.getD [] ≠ []
  power : ∀ e ∈ n.exponent, e.2 ≠ []

theorem Grammatical.lenient {n : Numeral} (grammatical : n.Grammatical) : n.lenient = true := by
  obtain ⟨-, filled, power⟩ := grammatical
  have digit : ¬(n.whole = [] ∧ n.fraction.getD [] = []) := fun none =>
    filled (List.append_eq_nil_iff.2 none)
  have written : n.exponentWritten = true := by
    unfold exponentWritten
    cases exponent : n.exponent with
    | none => rfl
    | some e => exact decide_eq_true (power e exponent)
  simp only [Numeral.lenient, written, Bool.and_true, Bool.not_eq_true', Bool.and_eq_false_iff,
    decide_eq_false_iff_not]
  exact Decidable.not_and_iff_not_or_not.1 digit

theorem Numeric.grammatical {n : Numeral} (numeric : n.Numeric) (strict : n.strict = true) :
    n.Grammatical := by
  simp only [Numeral.strict, Bool.and_eq_true, Bool.or_eq_true, decide_eq_true_eq] at strict
  obtain ⟨⟨whole, -⟩, written⟩ := strict
  refine ⟨numeric, fun none => ?_, fun e found => ?_⟩
  · rcases whole with zero | first
    · simp [zero] at none
    · simp [(List.append_eq_nil_iff.1 none).1] at first
  · rw [exponentWritten, found, Option.all_some] at written
    exact of_decide_eq_true written

/-! How the parts of a numeral may be written -/

inductive WrittenSign : Bool → List Char → Prop where
  | unsigned : WrittenSign false []
  | plus : WrittenSign false ['+']
  | minus : WrittenSign true ['-']

def spellFraction : Option (List Char) → List Char
  | some digits => '.' :: digits
  | none => []

inductive WrittenExponent : Option (Bool × List Char) → List Char → Prop where
  | unwritten : WrittenExponent none []
  | written {mark : Char} (known : mark = 'e' ∨ mark = 'E') {negative : Bool} {sign : List Char}
      (signed : WrittenSign negative sign) (digits : List Char) :
      WrittenExponent (some (negative, digits)) (mark :: (sign ++ digits))

/-- A numeral, its exponent written in some way. -/
def Written (n : Numeral) (s : List Char) : Prop :=
  ∃ exponent, WrittenExponent n.exponent exponent ∧
    s = n.whole ++ (spellFraction n.fraction ++ exponent)

def spellExponent : Option (Bool × List Char) → List Char
  | some (negative, digits) => 'e' :: (if negative then '-' else '+') :: digits
  | none => []

def spell (n : Numeral) : List Char :=
  n.whole ++ spellFraction n.fraction ++ spellExponent n.exponent

theorem written_spell (n : Numeral) : n.Written n.spell := by
  refine ⟨spellExponent n.exponent, ?_, List.append_assoc _ _ _⟩
  cases n.exponent with
  | none => exact .unwritten
  | some e =>
    obtain ⟨negative, digits⟩ := e
    cases negative with
    | true => exact .written (.inl rfl) .minus digits
    | false => exact .written (.inl rfl) .plus digits

theorem scanSign_written {negative : Bool} {sign rest : List Char}
    (signed : WrittenSign negative sign) (ends : ∀ c ∈ rest.head?, c ≠ '-' ∧ c ≠ '+') :
    scanSign (sign ++ rest) = (negative, rest) := by
  cases signed with
  | unsigned =>
    cases rest with
    | nil => rfl
    | cons c rest =>
      have := ends c rfl
      simp [scanSign, this]
  | plus | minus => rfl

theorem scanDigits_append {digits rest : List Char} (numeric : ∀ c ∈ digits, c.isDigit = true)
    (ends : ∀ c ∈ rest.head?, c.isDigit = false) :
    scanDigits (digits ++ rest) = (digits, rest) := by
  have stop : rest.takeWhile Char.isDigit = [] ∧ rest.dropWhile Char.isDigit = rest := by
    cases rest with
    | nil => exact ⟨rfl, rfl⟩
    | cons c rest =>
      have := ends c rfl
      simp [this]
  unfold scanDigits
  rw [List.takeWhile_append_of_pos numeric, List.dropWhile_append_of_pos numeric, stop.1, stop.2,
    List.append_nil]

theorem scanExponent_written {e : Option (Bool × List Char)} {exponent rest : List Char}
    (written : WrittenExponent e exponent) (numeric : ∀ v ∈ e, ∀ c ∈ v.2, c.isDigit = true)
    (power : ∀ v ∈ e, v.2 ≠ []) (ends : Halts rest) :
    scanExponent (exponent ++ rest) = (e, rest) := by
  cases written with
  | unwritten =>
    cases rest with
    | nil => rfl
    | cons c rest =>
      obtain ⟨-, -, lower, upper⟩ := ends c rfl
      simp [scanExponent, lower, upper]
  | written known signed digits =>
    have numeric := numeric _ rfl
    have unsigned : ∀ c ∈ (digits ++ rest).head?, c ≠ '-' ∧ c ≠ '+' := by
      obtain ⟨c, digits, rfl⟩ := List.exists_cons_of_ne_nil (power _ rfl)
      rintro _ ⟨⟩
      have digit := numeric c (.head _)
      exact ⟨ne_of_isDigit digit rfl, ne_of_isDigit digit rfl⟩
    have scanned := scanDigits_append numeric fun c member => (ends c member).1
    simp only [List.cons_append, List.append_assoc, scanExponent, if_pos known,
      scanSign_written signed unsigned, scanned]

theorem halts_written {e : Option (Bool × List Char)} {exponent rest : List Char}
    (written : WrittenExponent e exponent) (ends : Halts rest) :
    ∀ c ∈ (exponent ++ rest).head?, c.isDigit = false ∧ c ≠ '.' := by
  intro c member
  cases written with
  | unwritten => exact ⟨(ends c member).1, (ends c member).2.1⟩
  | written known =>
    cases member
    rcases known with rfl | rfl <;> decide

theorem scanFraction_append {f : Option (List Char)} {rest : List Char}
    (numeric : ∀ digits ∈ f, ∀ c ∈ digits, c.isDigit = true)
    (stop : ∀ c ∈ rest.head?, c.isDigit = false ∧ c ≠ '.') :
    scanFraction (spellFraction f ++ rest) = (f, rest) := by
  cases f with
  | none =>
    cases rest with
    | nil => rfl
    | cons c rest =>
      have := (stop c rfl).2
      simp [spellFraction, scanFraction, this]
  | some digits =>
    have scanned := scanDigits_append (numeric _ rfl) fun c member => (stop c member).1
    simp [spellFraction, scanFraction, scanned]

/-- A numeral is found whole, however it is written. -/
theorem scan_written {n : Numeral} (grammatical : n.Grammatical) {s rest : List Char}
    (written : n.Written s) (ends : Halts rest) : scan (s ++ rest) = (n, rest) := by
  obtain ⟨exponent, written, rfl⟩ := written
  have behind := halts_written written ends
  have stop : ∀ c ∈ (spellFraction n.fraction ++ (exponent ++ rest)).head?,
      c.isDigit = false := by
    intro c member
    cases fraction : n.fraction with
    | none =>
      rw [fraction] at member
      exact (behind c member).1
    | some digits =>
      rw [fraction] at member
      cases member
      rfl
  unfold scan
  rw [List.append_assoc, List.append_assoc, scanDigits_append grammatical.whole stop]
  simp only [scanFraction_append grammatical.fraction behind,
    scanExponent_written written grammatical.exponent grammatical.power ends]

end Numeral

/-! Digits -/

theorem isDigit_toDigits {n : Nat} : ∀ c ∈ Nat.toDigits 10 n, c.isDigit = true :=
  fun _ member => Nat.isDigit_of_mem_toDigits (by decide) (by decide) member

/-- No leading zeros. -/
theorem head?_toDigits {n : Nat} (pos : 0 < n) : (Nat.toDigits 10 n).head? ≠ some '0' := by
  induction n using Nat.strongRecOn with
  | ind n ih =>
    by_cases small : n < 10
    · rw [Nat.toDigits_of_lt_base small]
      have digits : ∀ d < 10, 0 < d → [Nat.digitChar d].head? ≠ some '0' := by decide
      exact digits n small pos
    · rw [Nat.toDigits_of_base_le (by decide) (by omega), List.head?_append]
      have first := ih (n / 10) (by omega) (by omega)
      cases digits : Nat.toDigits 10 (n / 10) with
      | nil => exact absurd digits Nat.toDigits_ne_nil
      | cons c rest => simpa [digits] using first

namespace DecimalStyle

theorem prefix_dropTrailingZeros (digits : List Char) : dropTrailingZeros digits <+: digits := by
  unfold dropTrailingZeros
  rw [← List.reverse_suffix, List.reverse_reverse]
  exact List.dropWhile_suffix _

theorem significant_ne_nil (coefficient : Nat) : significant coefficient ≠ [] := by
  unfold significant
  split
  · simp
  · assumption

theorem isDigit_significant {coefficient : Nat} :
    ∀ c ∈ significant coefficient, c.isDigit = true := by
  unfold significant
  split
  · simp
  · intro c member
    exact isDigit_toDigits c ((prefix_dropTrailingZeros _).subset member)

theorem head?_significant {coefficient : Nat} (pos : 0 < coefficient) :
    (significant coefficient).head? ≠ some '0' := by
  have first := head?_toDigits pos
  have start := prefix_dropTrailingZeros (Nat.toDigits 10 coefficient)
  unfold significant
  split
  · rename_i zeros
    have all : ∀ c ∈ Nat.toDigits 10 coefficient, c = '0' := by
      simpa [dropTrailingZeros, List.dropWhile_eq_nil_iff] using zeros
    cases digits : Nat.toDigits 10 coefficient with
    | nil => exact absurd digits Nat.toDigits_ne_nil
    | cons c rest =>
      rw [digits] at all first
      exact absurd (congrArg some (all c (.head _))) first
  · rename_i filled
    cases digits : dropTrailingZeros (Nat.toDigits 10 coefficient) with
    | nil => exact absurd digits filled
    | cons c rest =>
      obtain ⟨tail, whole⟩ := digits ▸ start
      rw [← whole] at first
      exact first

def plainNumeral (digits : List Char) (leading : Int) : Numeral :=
  match leading with
  | .ofNat e =>
    let whole := digits.take (e + 1)
    let rest := digits.drop (e + 1)
    ⟨whole ++ List.replicate (e + 1 - whole.length) '0',
      some (if rest = [] then ['0'] else rest), none⟩
  | .negSucc e => ⟨['0'], some (List.replicate e '0' ++ digits), none⟩

def scientificNumeral (digits : List Char) (leading : Int) : Numeral where
  whole := digits.take 1
  fraction := if digits.drop 1 = [] then none else some (digits.drop 1)
  exponent := some (decide (leading < 0), Nat.toDigits 10 leading.natAbs)

def layOut (style : DecimalStyle) (digits : List Char) (leading : Int) : Numeral :=
  if style.low ≤ leading ∧ leading ≤ style.high then plainNumeral digits leading
  else scientificNumeral digits leading

/-- The numeral of a decimal. -/
def numeral (style : DecimalStyle) (d : Decimal) : Numeral :=
  style.layOut (significant d.coefficient) (if d.coefficient = 0 then 0 else d.magnitude - 1)

theorem plain_eq_spell (digits : List Char) (leading : Int) :
    plain digits leading = (plainNumeral digits leading).spell := by
  cases leading with
  | ofNat e => simp [plain, plainNumeral, Numeral.spell, Numeral.spellFraction,
      Numeral.spellExponent]
  | negSucc e => simp [plain, plainNumeral, Numeral.spell, Numeral.spellFraction,
      Numeral.spellExponent]

theorem scientific_eq_spell (digits : List Char) (leading : Int) :
    scientific digits leading = (scientificNumeral digits leading).spell := by
  unfold scientific scientificNumeral Numeral.spell
  dsimp only
  generalize digits.drop 1 = fraction
  by_cases single : fraction = [] <;> by_cases low : leading < 0 <;>
    simp [single, low, Numeral.spellFraction, Numeral.spellExponent]

theorem spell_layOut (style : DecimalStyle) (digits : List Char) (leading : Int) :
    (style.layOut digits leading).spell =
      if style.low ≤ leading ∧ leading ≤ style.high then plain digits leading
      else scientific digits leading := by
  unfold layOut
  split
  · rw [plain_eq_spell]
  · rw [scientific_eq_spell]

theorem write_eq_spell (style : DecimalStyle) (d : Decimal) :
    style.write d = signed d.negative (style.numeral d).spell := by
  rw [numeral, spell_layOut]
  rfl

theorem numeric_plainNumeral {digits : List Char} (numeric : ∀ c ∈ digits, c.isDigit = true)
    (leading : Int) : (plainNumeral digits leading).Numeric := by
  cases leading with
  | ofNat e =>
    refine ⟨fun c member => ?_, fun f found c member => ?_, by simp [plainNumeral]⟩
    · rcases List.mem_append.1 member with member | zero
      · exact numeric c (List.mem_of_mem_take member)
      · rw [List.eq_of_mem_replicate zero]
        rfl
    · cases found
      split at member
      · rw [List.mem_singleton.1 member]
        rfl
      · exact numeric c (List.mem_of_mem_drop member)
  | negSucc e =>
    refine ⟨by simp [plainNumeral], fun f found c member => ?_, by simp [plainNumeral]⟩
    cases found
    rcases List.mem_append.1 member with zero | member
    · rw [List.eq_of_mem_replicate zero]
      rfl
    · exact numeric c member

theorem numeric_scientificNumeral {digits : List Char} (numeric : ∀ c ∈ digits, c.isDigit = true)
    (leading : Int) : (scientificNumeral digits leading).Numeric := by
  refine ⟨fun c member => numeric c (List.mem_of_mem_take member), fun f found c member => ?_,
    fun e found c member => ?_⟩
  · simp only [scientificNumeral] at found
    split at found
    · cases found
    · cases found
      exact numeric c (List.mem_of_mem_drop member)
  · cases found
    exact isDigit_toDigits c member

theorem numeric_layOut {digits : List Char} (numeric : ∀ c ∈ digits, c.isDigit = true)
    (style : DecimalStyle) (leading : Int) : (style.layOut digits leading).Numeric := by
  unfold layOut
  split
  · exact numeric_plainNumeral numeric _
  · exact numeric_scientificNumeral numeric _

/-- Without a leading zero, or with the point right behind it, plain notation is grammatical. -/
theorem strict_plainNumeral {digits : List Char} {leading : Int} (filled : digits ≠ [])
    (first : digits.head? ≠ some '0' ∨ digits = ['0'] ∧ leading = 0) :
    (plainNumeral digits leading).strict = true := by
  obtain ⟨c, rest, rfl⟩ := List.exists_cons_of_ne_nil filled
  cases leading with
  | ofNat e =>
    rcases first with first | ⟨zero, unit⟩
    · have first : c ≠ '0' := by simpa using first
      have fraction : (if rest.length ≤ e then ['0'] else rest.drop e) ≠ [] := by
        split
        · simp
        · simpa [List.drop_eq_nil_iff] using Nat.lt_of_not_le ‹_›
      simp [plainNumeral, Numeral.strict, Numeral.exponentWritten, first, fraction]
    · cases zero
      cases unit
      rfl
  | negSucc e =>
    simp [plainNumeral, Numeral.strict, Numeral.exponentWritten]

theorem strict_scientificNumeral {digits : List Char} (filled : digits ≠ []) (leading : Int) :
    (scientificNumeral digits leading).strict = true := by
  obtain ⟨c, rest, rfl⟩ := List.exists_cons_of_ne_nil filled
  by_cases zero : c = '0' <;> cases rest <;>
    simp [scientificNumeral, Numeral.strict, Numeral.exponentWritten, Nat.toDigits_ne_nil, zero]

theorem strict_layOut {digits : List Char} {leading : Int} (filled : digits ≠ [])
    (first : digits.head? ≠ some '0' ∨ digits = ['0'] ∧ leading = 0) (style : DecimalStyle) :
    (style.layOut digits leading).strict = true := by
  unfold layOut
  split
  · exact strict_plainNumeral filled first
  · exact strict_scientificNumeral filled _

theorem strict_numeral (style : DecimalStyle) (d : Decimal) : (style.numeral d).strict = true := by
  refine strict_layOut (significant_ne_nil _) ?_ style
  by_cases zero : d.coefficient = 0
  · exact .inr ⟨by rw [zero]; rfl, if_pos zero⟩
  · exact .inl (head?_significant (Nat.pos_of_ne_zero zero))

end DecimalStyle

namespace Json

namespace Number

/-- The sign and the numeral that a number is written with. -/
def numeral : Number → Bool × Numeral
  | .integer n _ => (decide (n < 0), ⟨Nat.toDigits 10 n.natAbs, none, none⟩)
  | .double x => (x.shortest.negative, style.numeral x.shortest)

/-- What the text of a number is read as. -/
def reread? (n : Number) : Option Number := ofNumeral? n.numeral.1 n.numeral.2

/-- The text of a number is read as that number. -/
def Exact (n : Number) : Prop := n.reread? = some n

instance (n : Number) : Decidable n.Exact := inferInstanceAs (Decidable (_ = _))

theorem write_eq_spell (n : Number) :
    n.write = DecimalStyle.signed n.numeral.1 n.numeral.2.spell := by
  cases n with
  | integer n range =>
    simp [write, numeral, Numeral.spell, Numeral.spellFraction, Numeral.spellExponent]
  | double x => exact DecimalStyle.write_eq_spell _ _

theorem numeric_numeral (n : Number) : n.numeral.2.Numeric := by
  cases n with
  | integer n range => exact ⟨isDigit_toDigits, by simp [numeral], by simp [numeral]⟩
  | double x => exact DecimalStyle.numeric_layOut DecimalStyle.isDigit_significant _ _

theorem strict_numeral (n : Number) : n.numeral.2.strict = true := by
  cases n with
  | integer n range =>
    by_cases zero : n = 0
    · subst zero
      rfl
    · have first := head?_toDigits (n := n.natAbs) (by omega)
      simp [numeral, Numeral.strict, Numeral.exponentWritten, Nat.toDigits_ne_nil, first]
  | double x => exact DecimalStyle.strict_numeral _ _

/-- An integer in range is read as it was written. -/
theorem exact_integer (n : Int) (range : IntegerRange n) : (integer n range).Exact := by
  have small : n.natAbs < UInt64.size := by
    unfold IntegerRange at range
    unfold UInt64.size
    omega
  have word : Numeral.toWord? ⟨Nat.toDigits 10 n.natAbs, none, none⟩ = some n.natAbs := by
    have whole : Nat.ofDigitChars 10 (Nat.toDigits 10 n.natAbs) 0 = n.natAbs :=
      Nat.ofDigitChars_ten_toDigits
    have kept := Numeral.extend_of_lt (whole.symm ▸ small)
    simp [Numeral.toWord?, kept]
  have signed : (if decide (n < 0) = true then -(n.natAbs : Int) else (n.natAbs : Int)) = n := by
    by_cases negative : n < 0
    · rw [if_pos (decide_eq_true negative)]
      omega
    · rw [if_neg fun yes => negative (of_decide_eq_true yes)]
      omega
  have nonzero : ¬(decide (n < 0) = true ∧ n.natAbs = 0) := by
    simp only [decide_eq_true_eq]
    omega
  unfold Exact reread? numeral ofNumeral?
  simp only [word, signed]
  rw [dif_pos range, if_neg nonzero]

end Number

/-- A strict numeral begins with a digit, so its sign is told from its digits. -/
theorem begins_spell {numeral : Numeral} (numeric : numeral.Numeric)
    (strict : numeral.strict = true) :
    ∃ c rest, numeral.spell = c :: rest ∧ c.isDigit = true := by
  have filled : numeral.whole ≠ [] := by
    intro empty
    simp [Numeral.strict, empty] at strict
  obtain ⟨c, rest, whole⟩ := List.exists_cons_of_ne_nil filled
  refine ⟨c, _, by rw [Numeral.spell, whole]; rfl, numeric.whole c ?_⟩
  rw [whole]
  exact .head _

theorem readNumber_unsigned {c : Char} {s rest : List Char} {numeral : Numeral}
    (unsigned : c ≠ '-') (scanned : Numeral.scan (c :: s) = (numeral, rest))
    (strict : numeral.strict = true) :
    readNumber (c :: s) = some (Number.ofNumeral? false numeral, rest) := by
  unfold readNumber
  split
  rename_i negative digits parts
  split at parts
  · simp_all
  · cases parts
    simp only [scanned, strict, if_true]

/-- The reader takes all of a written number and nothing else. -/
theorem readNumber_write (n : Number) {rest : List Char} (ends : Halts rest) :
    readNumber (n.write ++ rest) = some (n.reread?, rest) := by
  have strict := n.strict_numeral
  have scanned := Numeral.scan_written (n.numeric_numeral.grammatical strict)
    (Numeral.written_spell _) ends
  obtain ⟨c, tail, begins, digit⟩ := begins_spell n.numeric_numeral strict
  have unsigned : c ≠ '-' := ne_of_isDigit digit rfl
  rw [n.write_eq_spell]
  unfold Number.reread?
  generalize n.numeral = written at scanned strict begins ⊢
  obtain ⟨negative, numeral⟩ := written
  cases negative with
  | true =>
    simp only [DecimalStyle.signed, if_true, List.cons_append, readNumber, scanned, strict]
  | false =>
    have spelled : DecimalStyle.signed false numeral.spell ++ rest = c :: (tail ++ rest) := by
      rw [begins]
      rfl
    rw [begins, List.cons_append] at scanned
    rw [spelled]
    exact readNumber_unsigned unsigned scanned strict

end Json

end Stepflow
