import Mathlib.Data.List.Forall2
import Stepflow.Workflow.Suggestion

/-!
# What a suggestion names

A suggestion is lowered in all of Unicode before it is compared with the names of kinds, which are
plain ASCII. Nothing but ASCII is ever lowered to a name, so the case of ASCII letters is all that
counts.

* `lowerChar_ascii`, `lowerChar_foreign`: lower case inside ASCII and outside;
* `IsLower`, `flatten_eq_iff`: a plain word is met by its own letters only, whatever sigmas become;
* `NodeKind.parse_lowered`: so the name of a kind is read from nothing else;
* `NodeKind.AskedBy`, `NodeKind.askedBy_iff`: the kind that an answer of the service asks for.
-/

namespace Stepflow

/-! Lower case -/

/-- An ASCII character, and not the only one that a character beyond ASCII is lowered to. -/
def IsPlain (c : Char) : Prop := c.toNat < 128 ∧ c ≠ 'k'

instance (c : Char) : Decidable (IsPlain c) := inferInstanceAs (Decidable (_ ∧ _))

/-- The capitals of ASCII. -/
def asciiRun : CapitalRun := ⟨0x41, 0x5A, 1, 0x61⟩

/-- All capitals but those of the first run are beyond ASCII. -/
theorem find?_capitalRuns {n : Nat} (ascii : n < 128) :
    capitalRuns.find? (·.has n) = if asciiRun.has n then some asciiRun else none := by
  have beyond : ∀ r ∈ capitalRuns.tail, 128 ≤ r.first := by decide +kernel
  have others : capitalRuns.tail.find? (·.has n) = none := by
    refine List.find?_eq_none.2 fun r member has => ?_
    simp only [CapitalRun.has, Bool.and_eq_true, decide_eq_true_eq] at has
    exact absurd (Nat.le_trans (beyond r member) has.1.1) (Nat.not_le_of_lt ascii)
  have first : capitalRuns = asciiRun :: capitalRuns.tail := rfl
  rw [first, List.find?_cons, others]
  cases asciiRun.has n <;> rfl

theorem lowerChar_ascii {c : Char} (ascii : c.toNat < 128) : lowerChar c = [c.toLower] := by
  have capital : ∀ n < 128, asciiRun.has n = true →
      .ofNat (n - asciiRun.first + asciiRun.small) = (Char.ofNat n).toLower := by decide +kernel
  have other : ∀ n < 128, asciiRun.has n = false → Char.ofNat n = (Char.ofNat n).toLower := by
    decide +kernel
  have undotted : c ≠ '\u0130' := by
    rintro rfl
    exact absurd ascii (by decide)
  rw [lowerChar, if_neg undotted, find?_capitalRuns ascii]
  cases has : asciiRun.has c.toNat with
  | true =>
    have small := capital c.toNat ascii has
    rw [Char.ofNat_toNat] at small
    exact congrArg ([·]) small
  | false =>
    have small := other c.toNat ascii has
    rw [Char.ofNat_toNat] at small
    exact congrArg ([·]) small

theorem toLower_foreign {c : Char} (foreign : 128 ≤ c.toNat) : c.toLower = c := by
  have large : ¬c.val ≤ 'Z'.val := fun small => by
    have bound : c.val.toNat ≤ 90 := small
    exact absurd (Nat.le_trans foreign bound) (by decide)
  exact dif_neg fun capital => large capital.2

theorem toNat_ofNat {n : Nat} (valid : n.isValidChar) : (Char.ofNat n).toNat = n := by
  rw [Char.ofNat, dif_pos valid]
  rfl

/-- The small letters of the capitals beyond ASCII are beyond ASCII, but for one. -/
theorem capitalRuns_foreign : ∀ r ∈ capitalRuns, 128 ≤ r.last →
    r.first = r.last ∧ r.small = 'k'.toNat ∨
      128 ≤ r.small ∧ (r.small + (r.last - r.first) < 0xD800 ∨
        0xDFFF < r.small ∧ r.small + (r.last - r.first) < 0x110000) := by
  decide +kernel

/-- A character beyond ASCII leaves something in lower case that is in no plain word. -/
theorem lowerChar_foreign {c : Char} (foreign : 128 ≤ c.toNat) : ∃ d ∈ lowerChar c, ¬IsPlain d := by
  unfold lowerChar
  split
  · exact ⟨'\u0307', .tail _ (.head _), by decide⟩
  · split
    · rename_i r found
      have has := List.find?_some found
      simp only [CapitalRun.has, Bool.and_eq_true, decide_eq_true_eq] at has
      obtain ⟨⟨first, last⟩, -⟩ := has
      refine ⟨_, .head _, ?_⟩
      rcases capitalRuns_foreign r (List.mem_of_find?_eq_some found) (Nat.le_trans foreign last)
        with ⟨only, small⟩ | ⟨beyond, valid⟩
      · have kelvin : c.toNat - r.first + r.small = 'k'.toNat := by omega
        rw [kelvin]
        decide
      · have code : (Char.ofNat (c.toNat - r.first + r.small)).toNat
            = c.toNat - r.first + r.small := by
          refine toNat_ofNat ?_
          rcases valid with low | ⟨above, high⟩
          · exact .inl (by omega)
          · exact .inr ⟨by omega, by omega⟩
        rintro ⟨ascii, -⟩
        omega
    · exact ⟨c, .head _, fun plain => absurd foreign (Nat.not_le_of_lt plain.1)⟩

/-- What `c` may be in lower case, according to where in a word it stands. -/
def IsLower (c : Char) (letters : List Char) : Prop :=
  letters = lowerChar c ∨ c = 'Σ' ∧ letters = ['ς']

/-- A text is lowered to a plain word if and only if it is that word, apart from ASCII case. -/
theorem flatten_eq_iff {text word : List Char} {parts : List (List Char)}
    (lowered : List.Forall₂ IsLower text parts) (plain : ∀ c ∈ word, IsPlain c) :
    parts.flatten = word ↔ text.map Char.toLower = word := by
  induction lowered generalizing word with
  | nil => exact Iff.rfl
  | @cons c letters rest parts lower _ ih =>
    rw [List.flatten_cons, List.map_cons]
    by_cases ascii : c.toNat < 128
    · have own : letters = [c.toLower] := by
        rcases lower with same | ⟨rfl, -⟩
        · rw [same, lowerChar_ascii ascii]
        · exact absurd ascii (by decide)
      rw [own]
      cases word with
      | nil => simp
      | cons first word =>
        have later : ∀ c ∈ word, IsPlain c := fun c member => plain c (.tail _ member)
        rw [List.cons_append, List.nil_append, List.cons.injEq, List.cons.injEq, ih later]
    · have foreign := Nat.le_of_not_lt ascii
      obtain ⟨d, member, odd⟩ : ∃ d ∈ letters, ¬IsPlain d := by
        rcases lower with rfl | ⟨-, rfl⟩
        · exact lowerChar_foreign foreign
        · exact ⟨'ς', .head _, by decide⟩
      constructor
      · rintro rfl
        exact absurd (plain d (List.mem_append_left _ member)) odd
      · rintro rfl
        rw [toLower_foreign foreign] at plain
        exact absurd (plain c (.head _)).1 ascii

theorem forall₂_lowerChar (text : List Char) :
    List.Forall₂ IsLower text (text.map lowerChar) := by
  induction text with
  | nil => exact .nil
  | cons c rest ih => exact .cons (.inl rfl) ih

theorem flatten_lowerChar (text : List Char) : (text.map lowerChar).flatten = lower text :=
  List.flatMap_def.symm

/-! Kinds -/

namespace NodeKind

variable {text : String} {kind : NodeKind}

theorem plain_word (kind : NodeKind) : ∀ c ∈ kind.word.toList, IsPlain c := by
  have all : kind.word.toList.all (IsPlain ·) = true := by cases kind <;> decide +kernel
  simpa using all

theorem parse_eq_ok : parse text = .ok kind ↔ kind.word = text := by
  unfold parse
  constructor
  · intro parsed
    split at parsed
    · rename_i k found
      cases parsed
      exact Lexicon.word_of_find? found
    · cases parsed
  · rintro rfl
    rw [word, Lexicon.find?_word]

/-- The text is the name of the kind, apart from white space around it and from ASCII case. -/
def NamedBy (kind : NodeKind) (text : String) : Prop :=
  (trim text.toList).map Char.toLower = kind.word.toList

/-- No foreign text is a name in lower case. -/
theorem parse_lowered {parts : List (List Char)}
    (lowered : List.Forall₂ IsLower (trim text.toList) parts) :
    parse (.ofList parts.flatten) = .ok kind ↔ kind.NamedBy text := by
  rw [parse_eq_ok, NamedBy, ← flatten_eq_iff lowered kind.plain_word, eq_comm,
    ← String.toList_inj, String.toList_ofList]

/-- The kind that an answer asks for. One that names no kind to insert asks for an action, and so
does none. -/
inductive AskedBy (answer : Option String) : NodeKind → Prop where
  | named {text : String} {kind : NodeKind} (given : answer = some text)
      (insertable : kind.insertable = true) (named : kind.NamedBy text) : AskedBy answer kind
  | unnamed (none : ∀ (text : String) (kind : NodeKind), answer = some text →
      kind.insertable = true → ¬kind.NamedBy text) : AskedBy answer .action

theorem ofSuggestion_named (insertable : kind.insertable = true) (named : kind.NamedBy text) :
    ofSuggestion text = kind := by
  have parsed := (parse_lowered (forall₂_lowerChar (trim text.toList))).2 named
  rw [flatten_lowerChar] at parsed
  simp only [ofSuggestion, parsed, if_pos insertable]

theorem ofSuggestion_unnamed (none : ∀ kind, insertable kind = true → ¬kind.NamedBy text) :
    ofSuggestion text = .action := by
  unfold ofSuggestion
  split
  · rename_i kind parsed
    rw [← flatten_lowerChar, parse_lowered (forall₂_lowerChar _)] at parsed
    exact if_neg fun insertable => none kind insertable parsed
  · rfl

theorem askedBy_iff {answer : Option String} :
    AskedBy answer kind ↔ (answer.map ofSuggestion).getD fallback = kind := by
  have asks : AskedBy answer ((answer.map ofSuggestion).getD fallback) := by
    cases answer with
    | none => exact .unnamed nofun
    | some text =>
      by_cases some : ∃ kind, insertable kind = true ∧ kind.NamedBy text
      · obtain ⟨kind, insertable, named⟩ := some
        rw [Option.map_some, Option.getD_some, ofSuggestion_named insertable named]
        exact .named rfl insertable named
      · have none : ∀ kind, insertable kind = true → ¬kind.NamedBy text :=
          fun kind insertable named => some ⟨kind, insertable, named⟩
        rw [Option.map_some, Option.getD_some, ofSuggestion_unnamed none]
        refine .unnamed fun text' kind given => ?_
        cases given
        exact none kind
  constructor
  · intro asked
    cases asked with
    | named given insertable named =>
      rw [given, Option.map_some, Option.getD_some]
      exact ofSuggestion_named insertable named
    | unnamed none =>
      cases answer with
      | none => rfl
      | some text =>
        rw [Option.map_some, Option.getD_some]
        exact ofSuggestion_unnamed fun kind => none text kind rfl
  · rintro rfl
    exact asks

theorem AskedBy.insertable {answer : Option String} (asked : AskedBy answer kind) :
    kind.insertable = true := by
  cases asked with
  | named _ insertable _ => exact insertable
  | unnamed _ => rfl

end NodeKind

end Stepflow
