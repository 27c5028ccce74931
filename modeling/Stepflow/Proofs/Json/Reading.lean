import Mathlib.Data.Option.Basic
import Stepflow.Json.Printer
import Stepflow.Proofs.Json.Numerals

/-!
# Reading back what is written

The text of a tree is read as that tree, with each number replaced by what its text is read as.

* `readParts_write`, `assemble?_parts`, `readString_write`: strings, with their escapes;
* `readValue_write`: trees in front of any text that does not continue them;
* `Raw.parse?_render`: a whole text.
-/

namespace Stepflow.Json

/-! Strings -/

/-- How a character comes back: an escape of four digits as a code unit, all else as itself. -/
def partOf (c : Char) : StringPart :=
  if c.toNat < 0x20 ∧ c ∉ ['\x08', '\t', '\n', '\x0c', '\r'] then .unit c.toNat else .char c

theorem hexValue?_hexDigit : ∀ n < 16, hexValue? (hexDigit n) = some n := by decide

theorem hexUnit?_control {n : Nat} (control : n < 0x20) :
    hexUnit? '0' '0' (hexDigit (n / 16)) (hexDigit (n % 16)) = some n := by
  have zero : hexValue? '0' = some 0 := by decide
  unfold hexUnit?
  rw [zero, hexValue?_hexDigit _ (by omega), hexValue?_hexDigit _ (by omega)]
  simp only [Option.bind_eq_bind, Option.bind_some]
  congr 1
  omega

/-- A part in front of what the rest of a string is read as. -/
def prepend (part : StringPart) (rest : Option (List StringPart × List Char)) :
    Option (List StringPart × List Char) :=
  rest.map fun r => (part :: r.1, r.2)

theorem readParts_letter {letter c : Char} (escape : escaped? letter = some c) (s : List Char) :
    readParts ('\\' :: letter :: s) = prepend (.char c) (readParts s) := by
  have letters : letter ≠ 'u' := by
    rintro rfl
    cases escape
  cases read : readParts s <;> simp [readParts, letters, escape, prepend, read]

theorem readParts_control {c : Char} (control : c.toNat < 0x20) (s : List Char) :
    readParts ('\\' :: 'u' :: '0' :: '0' :: hexDigit (c.toNat / 16) :: hexDigit (c.toNat % 16) :: s)
      = prepend (.unit c.toNat) (readParts s) := by
  cases read : readParts s <;> simp [readParts, hexUnit?_control control, prepend, read]

theorem readParts_plain {c : Char} (quote : c ≠ '"') (backslash : c ≠ '\\')
    (printable : 0x20 ≤ c.toNat) (s : List Char) :
    readParts (c :: s) = prepend (.char c) (readParts s) := by
  have passes : guard (c.toNat ≥ 0x20 ∧ c ≠ '\\') = some () := if_pos ⟨printable, backslash⟩
  rw [readParts, passes]
  · cases readParts s <;> rfl
  · exact quote
  · exact fun _ _ _ _ _ same => absurd same backslash
  · exact fun _ _ same => absurd same backslash

theorem readParts_writeChar (c : Char) (s : List Char) :
    readParts (writeChar c ++ s) = prepend (partOf c) (readParts s) := by
  by_cases quote : c = '"'
  · subst c; exact readParts_letter rfl s
  by_cases backslash : c = '\\'
  · subst c; exact readParts_letter rfl s
  by_cases backspace : c = '\x08'
  · subst c; exact readParts_letter rfl s
  by_cases tab : c = '\t'
  · subst c; exact readParts_letter rfl s
  by_cases newline : c = '\n'
  · subst c; exact readParts_letter rfl s
  by_cases formFeed : c = '\x0c'
  · subst c; exact readParts_letter rfl s
  by_cases carriage : c = '\r'
  · subst c; exact readParts_letter rfl s
  by_cases control : c.toNat < 0x20
  · have part : partOf c = .unit c.toNat := by simp [partOf, *]
    simpa [writeChar, part, *] using readParts_control control s
  · have part : partOf c = .char c := by simp [partOf, *]
    simpa [writeChar, part, *] using readParts_plain quote backslash (Nat.le_of_not_lt control) s

theorem readParts_write (s rest : List Char) :
    readParts (s.flatMap writeChar ++ '"' :: rest) = some (s.map partOf, rest) := by
  induction s with
  | nil => rfl
  | cons c s ih =>
    rw [List.flatMap_cons, List.append_assoc, readParts_writeChar, ih]
    rfl

theorem assemble?_partOf (c : Char) (parts : List StringPart) :
    assemble? (partOf c :: parts) = (assemble? parts).map (c :: ·) := by
  unfold partOf
  split
  · rename_i control
    have whole : (isHighSurrogate c.toNat || isLowSurrogate c.toNat) = false := by
      simp [isHighSurrogate, isLowSurrogate]
      omega
    cases parts with
    | nil => simp [assemble?, whole]
    | cons part parts => cases part <;> simp_all [assemble?]
  · rfl

theorem assemble?_parts (s : List Char) : assemble? (s.map partOf) = some s := by
  induction s with
  | nil => rfl
  | cons c s ih => rw [List.map_cons, assemble?_partOf, ih]; rfl

theorem readString_write (s : String) (rest : List Char) :
    readString (s.toList.flatMap writeChar ++ '"' :: rest) = some (some s, rest) := by
  simp [readString, readParts_write, assemble?_parts]

/-! Trees -/

namespace Tree

/-- What is read from the text of a tree. -/
def reread (t : Plain) : Raw := t.map Number.reread? some

theorem mapItems_eq_map {ν σ ν' σ' : Type} (f : ν → ν') (g : σ → σ') (items : List (Tree ν σ)) :
    mapItems f g items = items.map (map f g) := by
  induction items with
  | nil => rfl
  | cons item rest ih => rw [mapItems, ih, List.map_cons]

theorem mapFields_eq_map {ν σ ν' σ' : Type} (f : ν → ν') (g : σ → σ')
    (fields : List (σ × Tree ν σ)) :
    mapFields f g fields = fields.map fun e => (g e.1, e.2.map f g) := by
  induction fields with
  | nil => rfl
  | cons field rest ih =>
    obtain ⟨key, value⟩ := field
    rw [mapFields, ih, List.map_cons]

theorem reread_array (items : List Plain) : reread (.array items) = .array (items.map reread) := by
  rw [reread, map, mapItems_eq_map]
  rfl

theorem reread_object (fields : List (String × Plain)) :
    reread (.object fields) = .object (fields.map fun e => (some e.1, e.2.reread)) := by
  rw [reread, map, mapFields_eq_map]
  rfl

/-- A number begins with its sign or with a digit. -/
theorem begins_write_number (n : Number) :
    ∃ c s, n.write = c :: s ∧ (c = '-' ∨ c.isDigit = true) := by
  rw [n.write_eq_spell]
  cases n.numeral.1 with
  | true => exact ⟨'-', _, rfl, .inl rfl⟩
  | false =>
    obtain ⟨c, s, begins, digit⟩ := begins_spell n.numeric_numeral n.strict_numeral
    exact ⟨c, s, begins, .inr digit⟩

theorem isSpace_eq_false_of_isDigit {c : Char} (digit : c.isDigit = true) : isSpace c = false := by
  by_contra space
  simp only [isSpace, Bool.not_eq_false, Bool.or_eq_true, decide_eq_true_eq, or_assoc] at space
  rcases space with rfl | rfl | rfl | rfl <;> exact absurd digit (by decide)

/-- A value begins with a character that is neither white space nor the end of a list. -/
theorem begins_write (t : Plain) :
    ∃ c s, t.write = c :: s ∧ isSpace c = false ∧ c ≠ ']' ∧ c ≠ '\x7d' := by
  cases t with
  | null => exact ⟨'n', _, rfl, by decide⟩
  | bool b => cases b <;> exact ⟨_, _, rfl, by decide⟩
  | number n =>
    obtain ⟨c, s, begins, start⟩ := begins_write_number n
    refine ⟨c, s, begins, ?_⟩
    rcases start with rfl | digit
    · decide
    · exact ⟨isSpace_eq_false_of_isDigit digit, ne_of_isDigit digit rfl, ne_of_isDigit digit rfl⟩
  | string s => exact ⟨'"', _, rfl, by decide⟩
  | array items => exact ⟨'[', _, rfl, by decide⟩
  | object fields => exact ⟨'\x7b', _, rfl, by decide⟩

theorem writeItems_cons (item : Plain) (items : List Plain) :
    ∃ tail, writeItems (item :: items) = item.write ++ tail := by
  cases items with
  | nil => exact ⟨[], by simp [writeItems]⟩
  | cons next items => exact ⟨_, rfl⟩

theorem writeFields_cons (field : String × Plain) (fields : List (String × Plain)) :
    ∃ tail, writeFields (field :: fields) = '"' :: tail := by
  cases fields with
  | nil => exact ⟨_, rfl⟩
  | cons next fields => exact ⟨_, rfl⟩

end Tree

open Stepflow.Json.Tree

theorem halts_nil : Halts [] := by
  rintro c ⟨⟩

theorem halts_cons {c : Char} (delimiter : c ∈ [',', ']', '\x7d']) (rest : List Char) :
    Halts (c :: rest) := by
  rintro _ ⟨rfl⟩
  simp only [List.mem_cons, List.not_mem_nil, or_false] at delimiter
  rcases delimiter with rfl | rfl | rfl <;> decide

theorem readValue_number {c : Char} (start : c = '-' ∨ c.isDigit = true) (s : List Char)
    (fuel : Nat) :
    readValue (fuel + 1) (c :: s) = (readNumber (c :: s)).map fun r => (.number r.1, r.2) := by
  have ink : skipSpace (c :: s) = c :: s := by
    rcases start with rfl | digit
    · rfl
    · simp [skipSpace, isSpace_eq_false_of_isDigit digit]
  rw [readValue, ink]
  split
  all_goals
    try
      rename_i same
      cases same
      exact absurd start (by decide)
  rw [Option.map_eq_bind]
  rfl

theorem readValue_array (s : List Char) (fuel : Nat) {c : Char} {tail : List Char}
    (begins : s = c :: tail) (ink : isSpace c = false) (filled : c ≠ ']') :
    readValue (fuel + 1) ('[' :: s) = (readItems fuel s).map fun r => (.array r.1, r.2) := by
  have bracket : skipSpace ('[' :: s) = '[' :: s := rfl
  have start : skipSpace s = s := by simp [begins, skipSpace, ink]
  rw [readValue, bracket]
  simp only [start]
  split
  · cases begins
    exact absurd rfl filled
  · rw [Option.map_eq_bind]
    rfl

theorem readValue_object (s : List Char) (fuel : Nat) {tail : List Char}
    (begins : s = '"' :: tail) :
    readValue (fuel + 1) ('\x7b' :: s) = (readFields fuel s).map fun r => (.object r.1, r.2) := by
  have bracket : skipSpace ('\x7b' :: s) = '\x7b' :: s := rfl
  have start : skipSpace s = s := by rw [begins]; rfl
  rw [readValue, bracket]
  simp only [start]
  split
  · cases begins
  · rw [Option.map_eq_bind]
    rfl

mutual

/-- **The reader takes all of a written value, in front of whatever does not continue it.** -/
theorem readValue_write : ∀ (t : Plain) (rest : List Char) (fuel : Nat),
    2 * t.write.length ≤ fuel → Halts rest →
      readValue fuel (t.write ++ rest) = some (t.reread, rest)
  | t, rest, 0, room, _ => by
    obtain ⟨c, s, begins, -⟩ := t.begins_write
    simp [begins] at room
  | .null, rest, fuel + 1, _, _ => rfl
  | .bool true, rest, fuel + 1, _, _ => rfl
  | .bool false, rest, fuel + 1, _, _ => rfl
  | .number n, rest, fuel + 1, _, ends => by
    obtain ⟨c, s, begins, start⟩ := begins_write_number n
    have read := readNumber_write n ends
    rw [begins, List.cons_append] at read
    rw [write, begins, List.cons_append, readValue_number start, read]
    rfl
  | .string s, rest, fuel + 1, _, _ => by
    have read := readString_write s rest
    simp [write, writeString, readValue, skipSpace, isSpace, read]
    rfl
  | .array [], rest, fuel + 1, _, _ => rfl
  | .array (item :: items), rest, fuel + 1, room, _ => by
    have read := readItems_write item items rest fuel (by simp [write] at room; omega)
    obtain ⟨tail, spelled⟩ := writeItems_cons item items
    obtain ⟨c, s, begins, ink, filled, -⟩ := item.begins_write
    rw [write, List.append_assoc, List.cons_append, List.singleton_append,
      readValue_array _ fuel (by rw [spelled, begins]; rfl) ink filled, read, reread_array]
    rfl
  | .object [], rest, fuel + 1, _, _ => rfl
  | .object (field :: fields), rest, fuel + 1, room, _ => by
    have read := readFields_write field fields rest fuel (by simp [write] at room; omega)
    obtain ⟨tail, spelled⟩ := writeFields_cons field fields
    rw [write, List.append_assoc, List.cons_append, List.singleton_append,
      readValue_object _ fuel (by rw [spelled]; rfl), read, reread_object]
    rfl

theorem readItems_write : ∀ (item : Plain) (items : List Plain) (rest : List Char) (fuel : Nat),
    2 * (writeItems (item :: items)).length < fuel →
      readItems fuel (writeItems (item :: items) ++ ']' :: rest)
        = some ((item :: items).map reread, rest)
  | item, items, rest, 0, room => by omega
  | item, [], rest, fuel + 1, room => by
    have read := readValue_write item (']' :: rest) fuel (by simp [writeItems] at room; omega)
      (halts_cons (by decide) _)
    simp [writeItems, readItems, read, skipSpace, isSpace]
  | item, next :: items, rest, fuel + 1, room => by
    simp only [writeItems, List.length_append, List.length_cons] at room
    have read := readValue_write item (',' :: (writeItems (next :: items) ++ ']' :: rest)) fuel
      (by omega) (halts_cons (by decide) _)
    have others := readItems_write next items rest fuel (by omega)
    simp [writeItems, readItems, read, others, skipSpace, isSpace]

theorem readFields_write : ∀ (field : String × Plain) (fields : List (String × Plain))
    (rest : List Char) (fuel : Nat),
    2 * (writeFields (field :: fields)).length < fuel →
      readFields fuel (writeFields (field :: fields) ++ '\x7d' :: rest)
        = some ((field :: fields).map fun e => (some e.1, e.2.reread), rest)
  | field, fields, rest, 0, room => by omega
  | (key, value), [], rest, fuel + 1, room => by
    simp only [writeFields, List.length_append, List.length_cons] at room
    have name := readString_write key (':' :: (value.write ++ '\x7d' :: rest))
    have read := readValue_write value ('\x7d' :: rest) fuel (by omega) (halts_cons (by decide) _)
    simp [writeFields, writeString, readFields, name, read, skipSpace, isSpace]
  | (key, value), next :: fields, rest, fuel + 1, room => by
    simp only [writeFields, List.length_append, List.length_cons] at room
    have name := readString_write key
      (':' :: (value.write ++ ',' :: (writeFields (next :: fields) ++ '\x7d' :: rest)))
    have read := readValue_write value (',' :: (writeFields (next :: fields) ++ '\x7d' :: rest))
      fuel (by omega) (halts_cons (by decide) _)
    have others := readFields_write next fields rest fuel (by omega)
    simp [writeFields, writeString, readFields, name, read, others, skipSpace, isSpace]

end

/-- **The text of a tree is read as the tree with its numbers reread.** -/
theorem Raw.parse?_render (t : Plain) : Raw.parse? t.render = some t.reread := by
  have read := readValue_write t [] (2 * t.write.length + 1) (by omega) halts_nil
  have text : t.render.toList = t.write := String.toList_ofList
  rw [List.append_nil] at read
  rw [Raw.parse?]
  dsimp only
  rw [text, read]
  rfl

end Stepflow.Json
