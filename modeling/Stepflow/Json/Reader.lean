import Stepflow.Json.Tree

/-!
# Reading JSON

The reader accepts exactly the JSON grammar: no comments, no trailing commas, no leading zeros, no
raw control characters in strings and nothing after the value. What a number or a string denotes
is settled on the way, and may be nothing.
-/

namespace Stepflow.Json

def isSpace (c : Char) : Bool := c = ' ' || c = '\t' || c = '\n' || c = '\r'

def skipSpace (s : List Char) : List Char := s.dropWhile isSpace

/-- Part of a string: a character that stands for itself, or a code unit from an escape. -/
inductive StringPart where
  | char (c : Char)
  | unit (n : Nat)

def hexValue? (c : Char) : Option Nat :=
  if '0' ≤ c ∧ c ≤ '9' then some (c.toNat - '0'.toNat)
  else if 'a' ≤ c ∧ c ≤ 'f' then some (c.toNat - 'a'.toNat + 10)
  else if 'A' ≤ c ∧ c ≤ 'F' then some (c.toNat - 'A'.toNat + 10)
  else none

def hexUnit? (a b c d : Char) : Option Nat := do
  let a ← hexValue? a
  let b ← hexValue? b
  let c ← hexValue? c
  let d ← hexValue? d
  return ((a * 16 + b) * 16 + c) * 16 + d

/-- The character of a one-letter escape. -/
def escaped? : Char → Option Char
  | '"' => some '"'
  | '\\' => some '\\'
  | '/' => some '/'
  | 'b' => some '\x08'
  | 'f' => some '\x0c'
  | 'n' => some '\n'
  | 'r' => some '\r'
  | 't' => some '\t'
  | _ => none

/-- The parts of a string up to its closing quote, and what follows it. -/
def readParts : List Char → Option (List StringPart × List Char)
  | [] => none
  | '"' :: s => some ([], s)
  | '\\' :: 'u' :: a :: b :: c :: d :: s => do
    let unit ← hexUnit? a b c d
    let (parts, s) ← readParts s
    return (.unit unit :: parts, s)
  | '\\' :: c :: s => do
    let c ← escaped? c
    let (parts, s) ← readParts s
    return (.char c :: parts, s)
  | c :: s => do
    guard (c.toNat ≥ 0x20 ∧ c ≠ '\\')
    let (parts, s) ← readParts s
    return (.char c :: parts, s)

def isHighSurrogate (n : Nat) : Bool := 0xD800 ≤ n && n < 0xDC00

def isLowSurrogate (n : Nat) : Bool := 0xDC00 ≤ n && n < 0xE000

/-- The characters of a string. Two escapes in a row may be the halves of one character; half a
character alone denotes nothing. -/
def assemble? : List StringPart → Option (List Char)
  | [] => some []
  | .char c :: rest => (assemble? rest).map (c :: ·)
  | [.unit n] => if isHighSurrogate n || isLowSurrogate n then none else some [Char.ofNat n]
  | .unit n :: .unit m :: rest =>
    if isHighSurrogate n then
      if isLowSurrogate m then
        (assemble? rest).map (Char.ofNat (0x10000 + (n - 0xD800) * 0x400 + (m - 0xDC00)) :: ·)
      else none
    else if isLowSurrogate n then none
    else (assemble? (.unit m :: rest)).map (Char.ofNat n :: ·)
  | .unit n :: rest =>
    if isHighSurrogate n || isLowSurrogate n then none
    else (assemble? rest).map (Char.ofNat n :: ·)

/-- A string after its opening quote. -/
def readString (s : List Char) : Option (Option String × List Char) := do
  let (parts, s) ← readParts s
  return ((assemble? parts).map String.ofList, s)

def readNumber (s : List Char) : Option (Option Number × List Char) :=
  let (negative, digits) := match s with
    | '-' :: digits => (true, digits)
    | _ => (false, s)
  let (numeral, rest) := Numeral.scan digits
  if numeral.strict then some (Number.ofNumeral? negative numeral, rest) else none

mutual

def readValue : Nat → List Char → Option (Raw × List Char)
  | 0, _ => none
  | fuel + 1, s =>
    match skipSpace s with
    | 'n' :: 'u' :: 'l' :: 'l' :: s => some (.null, s)
    | 't' :: 'r' :: 'u' :: 'e' :: s => some (.bool true, s)
    | 'f' :: 'a' :: 'l' :: 's' :: 'e' :: s => some (.bool false, s)
    | '"' :: s => do
      let (text, s) ← readString s
      return (.string text, s)
    | '[' :: s =>
      match skipSpace s with
      | ']' :: s => some (.array [], s)
      | s => do
        let (items, s) ← readItems fuel s
        return (.array items, s)
    | '\x7b' :: s =>
      match skipSpace s with
      | '\x7d' :: s => some (.object [], s)
      | s => do
        let (fields, s) ← readFields fuel s
        return (.object fields, s)
    | s => do
      let (number, s) ← readNumber s
      return (.number number, s)

/-- The items of an array that is not empty, up to its end. -/
def readItems : Nat → List Char → Option (List Raw × List Char)
  | 0, _ => none
  | fuel + 1, s => do
    let (item, s) ← readValue fuel s
    match skipSpace s with
    | ',' :: s =>
      let (items, s) ← readItems fuel s
      return (item :: items, s)
    | ']' :: s => return ([item], s)
    | _ => none

/-- The fields of an object that is not empty, up to its end. -/
def readFields : Nat → List Char → Option (List (Option String × Raw) × List Char)
  | 0, _ => none
  | fuel + 1, s =>
    match skipSpace s with
    | '"' :: s => do
      let (key, s) ← readString s
      match skipSpace s with
      | ':' :: s =>
        let (value, s) ← readValue fuel s
        match skipSpace s with
        | ',' :: s =>
          let (fields, s) ← readFields fuel s
          return ((key, value) :: fields, s)
        | '\x7d' :: s => return ([(key, value)], s)
        | _ => none
      | _ => none
    | _ => none

end

/-- The tree of a text. Of any two nested calls of the reader one takes a character, which bounds
their depth. -/
def Raw.parse? (text : String) : Option Raw := do
  let s := text.toList
  let (raw, rest) ← readValue (2 * s.length + 1) s
  guard (skipSpace rest = [])
  return raw

end Stepflow.Json
