import Stepflow.Text.Lexicon
import Stepflow.Json.Value
import Stepflow.Json.Reader

/-!
# Decoding documents

A decoder reads one type of document from a raw tree, and refuses everything else.

* `Decoder.enumeration`, `Decoder.list`, `Decoder.table`, `Decoder.value`: the parts documents are
  made of;
* `Record`: a document with named fields, written as an object, or as an array of the fields in
  the order of their declaration;
* `Decoder.decode?`: a whole text as a document.

Nesting is bounded: a decoder is told how many more arrays and objects it may enter. Fields that
a record does not know are not looked into, so what they hold is free.
-/

namespace Stepflow.Json

/-- `decode room raw` may enter `room` nested arrays and objects. -/
abbrev Decoder (α : Type) := Nat → Raw → Option α

namespace Decoder

variable {α : Type}

def text : Decoder String
  | _, .string s => s
  | _, _ => none

def flag : Decoder Bool
  | _, .bool b => some b
  | _, _ => none

def unsigned : Decoder UInt64
  | _, .number (some n) => n.toUInt64?
  | _, _ => none

def finite : Decoder Double.Finite
  | _, .number (some n) => n.toFinite?
  | _, _ => none

def coordinate : Decoder Double := fun room raw => (finite room raw).map .finite

/-- Any value. -/
def value : Decoder Value := fun room raw => if raw.depth ≤ room then Value.ofRaw? raw else none

/-- A word, or an object with the word as its only key and nothing under it. -/
def enumeration [Lexicon α] : Decoder α
  | _, .string (some s) => Lexicon.find? s
  | _ + 1, .object [(some s, .null)] => Lexicon.find? s
  | _, _ => none

def nullable (decode : Decoder α) : Decoder (Option α)
  | _, .null => some none
  | room, raw => (decode room raw).map some

def list (decode : Decoder α) : Decoder (List α)
  | room + 1, .array items => items.mapM (decode room)
  | _, _ => none

/-- Entries under keys that are not fixed. Of entries with the same key the last counts. -/
def table (decode : Decoder α) : Decoder (KeyMap α)
  | room + 1, .object fields => do
    let entries ← fields.mapM fun (key, raw) => return (← key, ← decode room raw)
    return .ofList entries
  | _, _ => none

/-- Levels of nesting that a text may have. -/
def nesting : Nat := 127

def decode? (decode : Decoder α) (text : String) : Option α := do
  let raw ← Raw.parse? text
  decode nesting raw

end Decoder

/-- The known fields of a record, each at most once. -/
structure Record where
  /-- Written as an object, where a field without a value may be left out. -/
  named : Bool
  fields : List (String × Raw)
  room : Nat

namespace Record

variable {α : Type}

/-- A record with fields `names`, in the order of their declaration. -/
def decoder (names : List String) : Decoder Record
  | room + 1, .array items =>
    if items.length ≤ names.length then some ⟨false, names.zip items, room⟩ else none
  | room + 1, .object fields => do
    let fields ← fields.mapM fun (key, raw) => return (← key, raw)
    let known := fields.filter fun (key, _) => key ∈ names
    if (known.map (·.1)).Nodup then some ⟨true, known, room⟩ else none
  | _, _ => none

def find? (r : Record) (name : String) : Option Raw := r.fields.lookup name

def required (r : Record) (name : String) (decode : Decoder α) : Option α := do
  decode r.room (← r.find? name)

def withDefault (r : Record) (name : String) (default : α) (decode : Decoder α) : Option α :=
  match r.find? name with
  | some raw => decode r.room raw
  | none => some default

/-- A field that may be null, or left out of an object. -/
def optional (r : Record) (name : String) (decode : Decoder α) : Option (Option α) :=
  match r.find? name with
  | some raw => decode.nullable r.room raw
  | none => if r.named then some none else none

end Record

end Stepflow.Json
