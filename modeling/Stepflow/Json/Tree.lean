import Stepflow.Json.Number

/-!
# JSON trees

One shape serves for what is read and for what is written:

* `Raw`: a text that is grammatical. A number or string in it may denote nothing (a number beyond
  the doubles, half of a surrogate pair), which matters only to those who look at it;
* `Plain`: every number and every string is there.
-/

namespace Stepflow.Json

inductive Tree (ν σ : Type) where
  | null
  | bool (b : Bool)
  | number (n : ν)
  | string (s : σ)
  | array (items : List (Tree ν σ))
  | object (fields : List (σ × Tree ν σ))

abbrev Raw := Tree (Option Number) (Option String)

abbrev Plain := Tree Number String

namespace Tree

variable {ν σ ν' σ' : Type}

mutual

/-- The number of arrays and objects around the innermost part. -/
def depth : Tree ν σ → Nat
  | .array items => depthItems items + 1
  | .object fields => depthFields fields + 1
  | _ => 0

def depthItems : List (Tree ν σ) → Nat
  | [] => 0
  | item :: rest => max item.depth (depthItems rest)

def depthFields : List (σ × Tree ν σ) → Nat
  | [] => 0
  | (_, value) :: rest => max value.depth (depthFields rest)

end

mutual

def map (f : ν → ν') (g : σ → σ') : Tree ν σ → Tree ν' σ'
  | .null => .null
  | .bool b => .bool b
  | .number n => .number (f n)
  | .string s => .string (g s)
  | .array items => .array (mapItems f g items)
  | .object fields => .object (mapFields f g fields)

def mapItems (f : ν → ν') (g : σ → σ') : List (Tree ν σ) → List (Tree ν' σ')
  | [] => []
  | item :: rest => item.map f g :: mapItems f g rest

def mapFields (f : ν → ν') (g : σ → σ') : List (σ × Tree ν σ) → List (σ' × Tree ν' σ')
  | [] => []
  | (key, value) :: rest => (g key, value.map f g) :: mapFields f g rest

end

/-- What is read back from the text of a tree. -/
def toRaw (t : Plain) : Raw := t.map some some

mutual

/-- Every object lists its keys in strictly ascending order. -/
def Ascending : Plain → Prop
  | .array items => AscendingItems items
  | .object fields => fields.Pairwise (·.1 < ·.1) ∧ AscendingFields fields
  | _ => True

def AscendingItems : List Plain → Prop
  | [] => True
  | item :: rest => item.Ascending ∧ AscendingItems rest

def AscendingFields : List (String × Plain) → Prop
  | [] => True
  | (_, value) :: rest => value.Ascending ∧ AscendingFields rest

end

end Tree

end Stepflow.Json
