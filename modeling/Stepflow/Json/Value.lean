import Stepflow.KeyMap
import Stepflow.Json.Tree

/-!
# JSON values

A value is a tree whose objects list each key once, in ascending order: the meaning of a text,
apart from how it is spelled. A value is used wherever a workflow holds data of no fixed type.
-/

namespace Stepflow.Json

structure Value where
  tree : Plain
  ascending : tree.Ascending

namespace Value

theorem ascending_items {items : List Value} :
    Tree.AscendingItems (items.map tree) := by
  induction items with
  | nil => trivial
  | cons item rest ih => exact ⟨item.ascending, ih⟩

theorem ascending_fields {fields : List (String × Value)} :
    Tree.AscendingFields (fields.map fun f => (f.1, f.2.tree)) := by
  induction fields with
  | nil => trivial
  | cons field rest ih => exact ⟨field.2.ascending, ih⟩

def null : Value := ⟨.null, trivial⟩

def bool (b : Bool) : Value := ⟨.bool b, trivial⟩

def number (n : Number) : Value := ⟨.number n, trivial⟩

def string (s : String) : Value := ⟨.string s, trivial⟩

def array (items : List Value) : Value := ⟨.array (items.map tree), ascending_items⟩

def object (fields : KeyMap Value) : Value :=
  ⟨.object (fields.map tree).entries, (fields.map tree).ascending, ascending_fields⟩

instance : Inhabited Value := ⟨null⟩

def isNull (v : Value) : Bool :=
  match v.tree with
  | .null => true
  | _ => false

mutual

/-- The value that a tree denotes, if all its parts denote something. Of fields with the same key
the last counts. -/
def ofRaw? : Raw → Option Value
  | .null => some null
  | .bool b => some (bool b)
  | .number n => n.map number
  | .string s => s.map string
  | .array items => (ofItems? items).map array
  | .object fields => (ofFields? fields).map fun fields => object (.ofList fields)

def ofItems? : List Raw → Option (List Value)
  | [] => some []
  | item :: rest => do
    let value ← ofRaw? item
    let values ← ofItems? rest
    return value :: values

def ofFields? : List (Option String × Raw) → Option (List (String × Value))
  | [] => some []
  | (key, item) :: rest => do
    let key ← key
    let value ← ofRaw? item
    let values ← ofFields? rest
    return (key, value) :: values

end

end Value

end Stepflow.Json
