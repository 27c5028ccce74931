import Stepflow.Json.Decoder
import Stepflow.Json.Encoder
import Stepflow.Proofs.Json.Reading

/-!
# Decoding what is encoded

Each part of a document is decoded to what was encoded. Only numbers may come back changed, and
they are found in coordinates and in values of no fixed type.

* `Double.reread?`, `Value.reread?`: what comes back of these two;
* `Tree.Exact`, `Value.reread?_exact`: a value of exact numbers comes back as it is;
* `Record.decoder_object`: the fields of a record are found under their names.
-/

namespace Stepflow

namespace Json

/-! Numbers -/

/-- What is read from the text of a coordinate. One that is not finite has no text. -/
def rereadDouble? : Double → Option Double
  | .finite x => (Number.reread? (.double x)).bind fun n => n.toFinite?.map .finite
  | .infinite _ | .nan => none

/-- A coordinate that is read as it was written. -/
def ExactDouble : Double → Prop
  | .finite x => Number.Exact (.double x)
  | .infinite _ | .nan => False

instance : (x : Double) → Decidable (ExactDouble x)
  | .finite x => inferInstanceAs (Decidable (Number.Exact (.double x)))
  | .infinite _ | .nan => inferInstanceAs (Decidable False)

theorem rereadDouble?_exact {x : Double} (exact : ExactDouble x) : rereadDouble? x = some x := by
  cases x with
  | finite x =>
    have same : Number.reread? (.double x) = some (.double x) := exact
    rw [rereadDouble?, same]
    rfl
  | infinite negative => cases exact
  | nan => cases exact

theorem rereadDouble?_of_not_finite {x : Double} (beyond : ¬x.IsFinite) :
    rereadDouble? x = none := by
  cases x with
  | finite x => exact absurd ⟨x, rfl⟩ beyond
  | infinite negative => rfl
  | nan => rfl

theorem mapM_some {α : Type} {f : α → Option α} {items : List α}
    (same : ∀ a ∈ items, f a = some a) : items.mapM f = some items := by
  induction items with
  | nil => rfl
  | cons a rest ih =>
    simp [List.mapM_cons, same a (.head _), ih fun b member => same b (.tail _ member)]

theorem mapM_none {α β : Type} {f : α → Option β} {l : List α} {a : α} (member : a ∈ l)
    (fails : f a = none) : l.mapM f = none := by
  induction l with
  | nil => cases member
  | cons b rest ih =>
    rw [List.mapM_cons]
    rcases List.mem_cons.1 member with rfl | later
    · simp [fails]
    · cases f b <;> simp [ih later]

/-! Values -/

namespace Tree

variable {ν σ ν' σ' : Type}

mutual

theorem depth_map (f : ν → ν') (g : σ → σ') : ∀ t : Tree ν σ, (t.map f g).depth = t.depth
  | .null => rfl
  | .bool _ => rfl
  | .number _ => rfl
  | .string _ => rfl
  | .array items => by rw [map, depth, depth, depthItems_map f g items]
  | .object fields => by rw [map, depth, depth, depthFields_map f g fields]

theorem depthItems_map (f : ν → ν') (g : σ → σ') :
    ∀ items : List (Tree ν σ), depthItems (mapItems f g items) = depthItems items
  | [] => rfl
  | item :: rest => by rw [mapItems, depthItems, depthItems, depth_map f g item,
      depthItems_map f g rest]

theorem depthFields_map (f : ν → ν') (g : σ → σ') :
    ∀ fields : List (σ × Tree ν σ), depthFields (mapFields f g fields) = depthFields fields
  | [] => rfl
  | (_, value) :: rest => by rw [mapFields, depthFields, depthFields, depth_map f g value,
      depthFields_map f g rest]

end

mutual

/-- Every number of a tree is read as it was written. -/
def Exact : Plain → Prop
  | .number n => n.Exact
  | .array items => ExactItems items
  | .object fields => ExactFields fields
  | _ => True

def ExactItems : List Plain → Prop
  | [] => True
  | item :: rest => item.Exact ∧ ExactItems rest

def ExactFields : List (String × Plain) → Prop
  | [] => True
  | (_, value) :: rest => value.Exact ∧ ExactFields rest

end

end Tree

namespace Value

open Stepflow.Json.Tree

theorem object_ofList {values : List (String × Value)} {fields : List (String × Plain)}
    (same : values.map (fun e => (e.1, e.2.tree)) = fields)
    (ascending : Tree.Ascending (.object fields)) :
    object (.ofList values) = ⟨.object fields, ascending⟩ := by
  subst same
  have sorted : values.Pairwise (·.1 < ·.1) := by simpa [List.pairwise_map] using ascending.1
  have kept := KeyMap.ofList_entries ⟨values, sorted⟩
  rw [kept]
  rfl

mutual

theorem ofRaw?_reread : ∀ (t : Plain) (ascending : t.Ascending), t.Exact →
    ofRaw? t.reread = some ⟨t, ascending⟩
  | .null, _, _ => rfl
  | .bool _, _, _ => rfl
  | .string _, _, _ => rfl
  | .number n, ascending, exact => by
    have same : n.reread? = some n := exact
    simp only [reread, map, ofRaw?, same]
    rfl
  | .array items, ascending, exact => by
    obtain ⟨values, read, same⟩ := ofItems?_reread items ascending exact
    subst same
    rw [reread_array, ofRaw?, read]
    rfl
  | .object fields, ascending, exact => by
    obtain ⟨values, read, same⟩ := ofFields?_reread fields ascending.2 exact
    rw [reread_object, ofRaw?, read, Option.map_some, object_ofList same ascending]

theorem ofItems?_reread : ∀ items : List Plain, AscendingItems items → ExactItems items →
    ∃ values : List Value, ofItems? (items.map reread) = some values ∧ values.map tree = items
  | [], _, _ => ⟨[], rfl, rfl⟩
  | item :: rest, ascending, exact => by
    have first := ofRaw?_reread item ascending.1 exact.1
    obtain ⟨values, read, same⟩ := ofItems?_reread rest ascending.2 exact.2
    exact ⟨⟨item, ascending.1⟩ :: values, by simp [ofItems?, first, read], by simp [same]⟩

theorem ofFields?_reread : ∀ fields : List (String × Plain), AscendingFields fields →
    ExactFields fields → ∃ values : List (String × Value),
      ofFields? (fields.map fun e => (some e.1, e.2.reread)) = some values
        ∧ values.map (fun e => (e.1, e.2.tree)) = fields
  | [], _, _ => ⟨[], rfl, rfl⟩
  | (key, item) :: rest, ascending, exact => by
    have first := ofRaw?_reread item ascending.1 exact.1
    obtain ⟨values, read, same⟩ := ofFields?_reread rest ascending.2 exact.2
    exact ⟨(key, ⟨item, ascending.1⟩) :: values, by simp [ofFields?, first, read], by simp [same]⟩

end

/-- What is read from the text of a value, which may be nested `room` deep. -/
def reread? (room : Nat) (v : Value) : Option Value :=
  if v.tree.depth ≤ room then ofRaw? v.tree.reread else none

def rereadField? (room : Nat) (e : String × Value) : Option (String × Value) :=
  (e.2.reread? room).map (e.1, ·)

/-- What is read from the text of values under keys. -/
def rereadTable? (room : Nat) (m : KeyMap Value) : Option (KeyMap Value) :=
  (m.entries.mapM (rereadField? room)).map .ofList

theorem reread?_exact {room : Nat} {v : Value} (flat : v.tree.depth ≤ room)
    (exact : v.tree.Exact) : v.reread? room = some v := by
  rw [reread?, if_pos flat]
  exact ofRaw?_reread v.tree v.ascending exact

theorem rereadTable?_exact {room : Nat} {m : KeyMap Value}
    (exact : ∀ e ∈ m.entries, e.2.tree.depth ≤ room ∧ e.2.tree.Exact) :
    rereadTable? room m = some m := by
  rw [rereadTable?, mapM_some fun e member => ?_]
  · exact congrArg some (KeyMap.ofList_entries m)
  · rw [rereadField?, reread?_exact (exact e member).1 (exact e member).2]
    rfl

end Value

/-! Parts of documents -/

namespace Decoder

open Stepflow.Json.Tree

variable {α : Type}

theorem text_string (room : Nat) (s : String) : text room (reread (.string s)) = some s := rfl

theorem flag_bool (room : Nat) (b : Bool) : flag room (reread (.bool b)) = some b := rfl

theorem value_tree (room : Nat) (v : Value) : value room v.tree.reread = v.reread? room := by
  rw [value, Value.reread?, reread, depth_map]

theorem coordinate_reread (room : Nat) (x : Double) :
    coordinate room (reread (Encoder.coordinate x)) = rereadDouble? x := by
  cases x with
  | finite x => cases h : Number.reread? (.double x) <;>
      simp [Encoder.coordinate, reread, map, coordinate, finite, rereadDouble?, h]
  | infinite negative => rfl
  | nan => rfl

theorem enumeration_word [Lexicon α] (room : Nat) (a : α) :
    enumeration room (reread (Encoder.word a)) = some a := by
  simp [Encoder.word, reread, map, enumeration]

theorem list_reread (decode : Decoder α) (encode : α → Plain) (room : Nat) (items : List α) :
    list decode (room + 1) (reread (Encoder.list encode items))
      = items.mapM fun a => decode room (encode a).reread := by
  rw [Encoder.list, reread_array, list, List.map_map, List.mapM_map]
  rfl

theorem listing_reread (decode : Decoder α) (encode : α → Plain) (room : Nat)
    (entries : List (String × α)) :
    table decode (room + 1) (reread (Encoder.listing encode entries))
      = (entries.mapM fun e => (decode room (encode e.2).reread).map (e.1, ·)).map .ofList := by
  rw [Encoder.listing, reread_object, table, List.map_map, List.mapM_map, Option.map_eq_bind]
  simp only [Option.map_eq_bind]
  rfl

theorem list_text (room : Nat) (items : List String) :
    list text (room + 1) (reread (Encoder.list .string items)) = some items := by
  rw [list_reread]
  exact mapM_some fun s _ => rfl

theorem listing_word [Lexicon α] (room : Nat) {entries : List (String × α)} {m : KeyMap α}
    (listed : entries.Perm m.entries) :
    table enumeration (room + 1) (reread (Encoder.listing Encoder.word entries)) = some m := by
  rw [listing_reread, mapM_some fun e _ => by rw [enumeration_word]; rfl]
  exact congrArg some (KeyMap.ofList_of_perm listed)

theorem table_tree (room : Nat) (m : KeyMap Value) :
    table value (room + 1) (reread (Encoder.table Value.tree m)) = Value.rereadTable? room m := by
  rw [Encoder.table, listing_reread, Value.rereadTable?]
  simp only [value_tree]
  rfl

end Decoder

/-- A record written with known fields, each once, is decoded to these fields. -/
theorem Record.decoder_object {names : List String} {fields : List (String × Plain)}
    (unique : (fields.map (·.1)).Nodup) (known : ∀ f ∈ fields, f.1 ∈ names) (room : Nat) :
    Record.decoder names (room + 1) (Tree.reread (.object fields))
      = some ⟨true, fields.map fun f => (f.1, f.2.reread), room⟩ := by
  rw [Tree.reread_object, Record.decoder]
  refine Option.bind_eq_some_iff.2 ⟨fields.map fun f => (f.1, f.2.reread), ?_, ?_⟩
  · rw [List.mapM_map]
    exact List.mapM_pure
  · dsimp only
    rw [List.filter_eq_self.2]
    · rw [if_pos]
      rw [List.map_map]
      exact unique
    · intro f member
      obtain ⟨e, written, rfl⟩ := List.mem_map.1 member
      exact decide_eq_true (known e written)

end Json

end Stepflow
