import Stepflow.Text.Lexicon
import Stepflow.Json.Value
import Stepflow.Json.Printer

/-!
# Encoding documents

The parts that documents are written with. JSON has no number for a double that is not finite: it
is written as null, which the decoder of a coordinate refuses.

A map that keeps no order may be listed in any: `Encoder.listing` is given one, and
`Encoder.table` lists the entries in ascending order.
-/

namespace Stepflow.Json.Encoder

variable {α : Type}

def word [Lexicon α] (a : α) : Plain := .string (Lexicon.word a)

def unsigned (n : UInt64) : Plain := .number (.ofUInt64 n)

def coordinate : Double → Plain
  | .finite x => .number (.double x)
  | .infinite _ | .nan => .null

def nullable (encode : α → Plain) : Option α → Plain
  | some a => encode a
  | none => .null

def list (encode : α → Plain) (items : List α) : Plain := .array (items.map encode)

def listing (encode : α → Plain) (entries : List (String × α)) : Plain :=
  .object (entries.map fun e => (e.1, encode e.2))

def table (encode : α → Plain) (m : KeyMap α) : Plain := listing encode m.entries

end Stepflow.Json.Encoder
