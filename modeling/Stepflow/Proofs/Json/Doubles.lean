import Stepflow.Proofs.Json.Documents

/-!
# Doubles and depth of a text

Of all that is written, only doubles may be read as something else, and only nesting may keep a
text from being read. Both are properties of the tree that is written, whatever document it is of.

* `Double.Finite.ReadsBack`: the printed double is read as that double;
* `Tree.exact_iff`: a tree is read as it was written if its doubles are;
* `Tree.Readable`: that, and no deeper than a reader may go; so is every part of it.
-/

namespace Stepflow

open Json

/-- The text of a double is read as that double. -/
def Double.Finite.ReadsBack (x : Double.Finite) : Prop :=
  Raw.parse? (Tree.render (.number (.double x))) = some (.number (some (.double x)))

theorem Double.Finite.readsBack_iff (x : Double.Finite) :
    x.ReadsBack ↔ Number.Exact (.double x) := by
  have read : Tree.reread (.number (.double x)) = .number (Number.reread? (.double x)) := rfl
  rw [ReadsBack, Raw.parse?_render, read, Option.some.injEq, Tree.number.injEq, Number.Exact]

instance (x : Double.Finite) : Decidable x.ReadsBack := decidable_of_iff' _ x.readsBack_iff

namespace Json.Tree

mutual

/-- The doubles of a tree, in the order of its text. -/
def doubles : Plain → List Double.Finite
  | .number (.double x) => [x]
  | .array items => doublesItems items
  | .object fields => doublesFields fields
  | _ => []

def doublesItems : List Plain → List Double.Finite
  | [] => []
  | item :: rest => item.doubles ++ doublesItems rest

def doublesFields : List (String × Plain) → List Double.Finite
  | [] => []
  | (_, value) :: rest => value.doubles ++ doublesFields rest

end

mutual

/-- Integers are always read as they were written. -/
theorem exact_iff : ∀ t : Plain, t.Exact ↔ ∀ x ∈ t.doubles, x.ReadsBack
  | .null | .bool _ | .string _ => by simp [Exact, doubles]
  | .number (.integer n range) => by simp [Exact, doubles, Number.exact_integer]
  | .number (.double x) => by simp [Exact, doubles, x.readsBack_iff]
  | .array items => by rw [Exact, doubles, exactItems_iff items]
  | .object fields => by rw [Exact, doubles, exactFields_iff fields]

theorem exactItems_iff : ∀ items : List Plain,
    ExactItems items ↔ ∀ x ∈ doublesItems items, x.ReadsBack
  | [] => by simp [ExactItems, doublesItems]
  | item :: rest => by
    rw [ExactItems, doublesItems, List.forall_mem_append, exact_iff item, exactItems_iff rest]

theorem exactFields_iff : ∀ fields : List (String × Plain),
    ExactFields fields ↔ ∀ x ∈ doublesFields fields, x.ReadsBack
  | [] => by simp [ExactFields, doublesFields]
  | (_, value) :: rest => by
    rw [ExactFields, doublesFields, List.forall_mem_append, exact_iff value, exactFields_iff rest]

end

/-! Parts of a tree -/

variable {x : Double.Finite}

theorem mem_doubles_item {item : Plain} {items : List Plain} (member : item ∈ items)
    (found : x ∈ item.doubles) : x ∈ doubles (.array items) := by
  rw [doubles]
  induction items with
  | nil => cases member
  | cons first rest ih =>
    rw [doublesItems]
    rcases List.mem_cons.1 member with rfl | later
    · exact List.mem_append_left _ found
    · exact List.mem_append_right _ (ih later)

theorem mem_doubles_field {value : Plain} {fields : List (String × Plain)} (key : String)
    (member : (key, value) ∈ fields) (found : x ∈ value.doubles) :
    x ∈ doubles (.object fields) := by
  rw [doubles]
  induction fields with
  | nil => cases member
  | cons first rest ih =>
    rw [doublesFields]
    rcases List.mem_cons.1 member with rfl | later
    · exact List.mem_append_left _ found
    · exact List.mem_append_right _ (ih later)

theorem depth_item {ν σ : Type} {item : Tree ν σ} {items : List (Tree ν σ)}
    (member : item ∈ items) : item.depth < (array items).depth := by
  rw [depth, Nat.lt_succ_iff]
  induction items with
  | nil => cases member
  | cons first rest ih =>
    rw [depthItems]
    rcases List.mem_cons.1 member with rfl | later
    · exact Nat.le_max_left _ _
    · exact Nat.le_trans (ih later) (Nat.le_max_right _ _)

theorem depth_field {ν σ : Type} {key : σ} {value : Tree ν σ} {fields : List (σ × Tree ν σ)}
    (member : (key, value) ∈ fields) : value.depth < (object fields).depth := by
  rw [depth, Nat.lt_succ_iff]
  induction fields with
  | nil => cases member
  | cons first rest ih =>
    rw [depthFields]
    rcases List.mem_cons.1 member with rfl | later
    · exact Nat.le_max_left _ _
    · exact Nat.le_trans (ih later) (Nat.le_max_right _ _)

/-- A reader that may enter `room` nested arrays and objects reads the tree as it was written. -/
structure Readable (room : Nat) (t : Plain) : Prop where
  flat : t.depth ≤ room
  doubles : ∀ x ∈ t.doubles, x.ReadsBack

variable {room : Nat}

theorem Readable.exact {t : Plain} (readable : Readable room t) : t.Exact :=
  t.exact_iff.2 readable.doubles

theorem Readable.item {item : Plain} {items : List Plain}
    (readable : Readable (room + 1) (.array items)) (member : item ∈ items) :
    Readable room item where
  flat := Nat.lt_succ_iff.1 (Nat.lt_of_lt_of_le (depth_item member) readable.flat)
  doubles := fun _ found => readable.doubles _ (mem_doubles_item member found)

theorem Readable.field {value : Plain} {fields : List (String × Plain)}
    (readable : Readable (room + 1) (.object fields)) (key : String)
    (member : (key, value) ∈ fields) :
    Readable room value where
  flat := Nat.lt_succ_iff.1 (Nat.lt_of_lt_of_le (depth_field member) readable.flat)
  doubles := fun _ found => readable.doubles _ (mem_doubles_field key member found)

theorem depth_coordinate (x : Double) : depth (Encoder.coordinate x) = 0 := by
  cases x <;> rfl

theorem Readable.coordinate {x : Double} (readable : Readable room (Encoder.coordinate x))
    (finite : x.IsFinite) : rereadDouble? x = some x := by
  obtain ⟨y, rfl⟩ := finite
  exact rereadDouble?_exact readable.exact

/-- Values under keys are read as they were written, in whatever order they are listed. -/
theorem Readable.listing {entries : List (String × Value)} {m : KeyMap Value}
    (readable : Readable (room + 1) (Encoder.listing Value.tree entries))
    (listed : entries.Perm m.entries) :
    Decoder.table Decoder.value (room + 1) (Encoder.listing Value.tree entries).reread
      = some m := by
  have same : ∀ e ∈ entries, (Decoder.value room e.2.tree.reread).map (e.1, ·) = some e := by
    intro e member
    have part : Readable room e.2.tree :=
      readable.field e.1 (List.mem_map.2 ⟨e, member, rfl⟩)
    rw [Decoder.value_tree, Value.reread?_exact part.flat part.exact]
    rfl
  rw [Decoder.listing_reread, mapM_some same]
  exact congrArg some (KeyMap.ofList_of_perm listed)

end Json.Tree

end Stepflow
