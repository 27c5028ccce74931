/-!
# Maps with text keys

A map is its list of entries in strictly ascending order of keys, so two maps with the same
entries are equal and every listing of a map is sorted.

`KeyMap.get?_insert` and `KeyMap.get?_erase` say what an operation does to each key, and
`KeyMap.ofList_of_perm` that a map is made of its entries in any order.
-/

namespace Stepflow

structure KeyMap (α : Type) where
  entries : List (String × α)
  ascending : entries.Pairwise (·.1 < ·.1)

namespace KeyMap

variable {α : Type}

def empty : KeyMap α := ⟨[], .nil⟩

def get? (m : KeyMap α) (key : String) : Option α := (m.entries.find? (·.1 = key)).map (·.2)

def contains (m : KeyMap α) (key : String) : Bool := (m.get? key).isSome

def keys (m : KeyMap α) : List String := m.entries.map (·.1)

/-- `entries` with `value` under `key`, in place of what was there. -/
def put (key : String) (value : α) : List (String × α) → List (String × α)
  | [] => [(key, value)]
  | entry :: rest =>
    if key < entry.1 then (key, value) :: entry :: rest
    else if key = entry.1 then (key, value) :: rest
    else entry :: put key value rest

theorem mem_put {key : String} {value : α} {entries : List (String × α)} {e : String × α}
    (h : e ∈ put key value entries) : e = (key, value) ∨ e ∈ entries := by
  induction entries with
  | nil => simpa [put] using h
  | cons entry rest ih =>
    unfold put at h
    split at h
    · simpa using h
    · split at h <;> simp only [List.mem_cons] at h ⊢
      · exact h.imp_right .inr
      · rcases h with h | h
        · exact .inr (.inl h)
        · exact (ih h).imp_right .inr

theorem pairwise_put (key : String) (value : α) {entries : List (String × α)}
    (h : entries.Pairwise (·.1 < ·.1)) : (put key value entries).Pairwise (·.1 < ·.1) := by
  induction entries with
  | nil => simp [put]
  | cons entry rest ih =>
    obtain ⟨head, tail⟩ := List.pairwise_cons.1 h
    unfold put
    split
    · rename_i before
      refine List.pairwise_cons.2 ⟨fun e he => ?_, h⟩
      rcases List.mem_cons.1 he with rfl | he
      · exact before
      · exact String.lt_trans before (head e he)
    · split
      · rename_i same
        exact List.pairwise_cons.2 ⟨fun e he => same ▸ head e he, tail⟩
      · rename_i notBefore notSame
        refine List.pairwise_cons.2 ⟨fun e he => ?_, ih tail⟩
        rcases mem_put he with rfl | he
        · exact String.not_le.1 fun le =>
            notSame (String.le_antisymm le (String.not_lt.1 notBefore))
        · exact head e he

def insert (m : KeyMap α) (key : String) (value : α) : KeyMap α :=
  ⟨put key value m.entries, pairwise_put key value m.ascending⟩

def erase (m : KeyMap α) (key : String) : KeyMap α :=
  ⟨m.entries.filter (·.1 ≠ key), m.ascending.filter _⟩

/-- The map of a list of entries, of which a later one replaces an earlier one of the same key. -/
def ofList (entries : List (String × α)) : KeyMap α :=
  entries.foldl (fun m e => m.insert e.1 e.2) empty

def map {β : Type} (f : α → β) (m : KeyMap α) : KeyMap β :=
  ⟨m.entries.map fun e => (e.1, f e.2), m.ascending.map _ fun _ _ h => h⟩

@[simp] theorem get?_empty (key : String) : (empty : KeyMap α).get? key = none := rfl

@[simp] theorem get?_insert (m : KeyMap α) (key key' : String) (value : α) :
    (m.insert key value).get? key' = if key' = key then some value else m.get? key' := by
  simp only [get?, insert]
  induction m.entries with
  | nil => grind [put]
  | cons entry rest ih => grind [put]

@[simp] theorem get?_erase (m : KeyMap α) (key key' : String) :
    (m.erase key).get? key' = if key' = key then none else m.get? key' := by
  simp only [get?, erase, List.find?_filter]
  by_cases h : key' = key
  · subst h; simp
  · simp only [h, if_false]
    congr 2
    funext e
    by_cases he : e.1 = key' <;> simp [he, h]

theorem contains_insert (m : KeyMap α) (key key' : String) (value : α) :
    (m.insert key value).contains key' = true ↔ key' = key ∨ m.contains key' = true := by
  rw [contains, contains, get?_insert]
  by_cases same : key' = key <;> simp [same]

theorem contains_erase (m : KeyMap α) (key key' : String) :
    (m.erase key).contains key' = true ↔ key' ≠ key ∧ m.contains key' = true := by
  rw [contains, contains, get?_erase]
  by_cases same : key' = key <;> simp [same]

theorem mem_keys (m : KeyMap α) (key : String) : key ∈ m.keys ↔ m.contains key = true := by
  simp [keys, contains, get?, List.find?_isSome]

theorem filter_put {key : String} {entries : List (String × α)}
    (absent : ∀ e ∈ entries, e.1 ≠ key) (value : α) :
    (put key value entries).filter (·.1 ≠ key) = entries := by
  have kept : entries.filter (·.1 ≠ key) = entries :=
    List.filter_eq_self.2 fun e member => decide_eq_true (absent e member)
  induction entries with
  | nil => simp [put]
  | cons entry rest ih =>
    have other : entry.1 ≠ key := absent entry (.head _)
    unfold put
    split
    · rw [List.filter_cons_of_neg (by simp), kept]
    · rw [if_neg other.symm, List.filter_cons_of_pos (by simpa using other)]
      rw [List.filter_cons_of_pos (by simpa using other)] at kept
      rw [ih (fun e member => absent e (.tail _ member)) (List.cons.inj kept).2]

/-- A key that was not there leaves no trace when it goes again. -/
theorem erase_insert {m : KeyMap α} {key : String} (absent : m.get? key = none) (value : α) :
    (m.insert key value).erase key = m := by
  obtain ⟨entries, ascending⟩ := m
  have absent : ∀ e ∈ entries, e.1 ≠ key := by simpa [get?] using absent
  simp only [insert, erase, mk.injEq]
  exact filter_put absent value

theorem put_perm {key : String} {entries : List (String × α)}
    (absent : ∀ e ∈ entries, e.1 ≠ key) (value : α) :
    (put key value entries).Perm ((key, value) :: entries) := by
  induction entries with
  | nil => exact .refl _
  | cons entry rest ih =>
    have other : key ≠ entry.1 := (absent entry (.head _)).symm
    unfold put
    rw [if_neg other]
    split
    · exact .refl _
    · exact ((ih fun e member => absent e (.tail _ member)).cons entry).trans (.swap _ _ _)

theorem foldl_insert_perm (entries : List (String × α)) (m : KeyMap α)
    (apart : (m.entries ++ entries).Pairwise (·.1 ≠ ·.1)) :
    (entries.foldl (fun m e => m.insert e.1 e.2) m).entries.Perm (m.entries ++ entries) := by
  induction entries generalizing m with
  | nil => rw [List.append_nil]; exact .refl _
  | cons entry rest ih =>
    have absent : ∀ e ∈ m.entries, e.1 ≠ entry.1 := fun e member =>
      (List.pairwise_append.1 apart).2.2 e member entry (.head _)
    have inserted :
        ((m.insert entry.1 entry.2).entries ++ rest).Perm (m.entries ++ entry :: rest) :=
      ((put_perm absent entry.2).append_right rest).trans List.perm_middle.symm
    have apart' := (inserted.pairwise_iff fun ne => ne.symm).2 apart
    exact (ih _ apart').trans inserted

/-- Entries with different keys are the map of their list in any order. -/
theorem ofList_of_perm {entries : List (String × α)} {m : KeyMap α}
    (listed : entries.Perm m.entries) : ofList entries = m := by
  have distinct : m.entries.Pairwise (·.1 ≠ ·.1) := by
    apply m.ascending.imp
    intro a b below same
    exact String.lt_irrefl _ (same ▸ below)
  have apart : entries.Pairwise (·.1 ≠ ·.1) := (listed.pairwise_iff fun ne => ne.symm).2 distinct
  have same : (ofList entries).entries = m.entries := by
    refine List.Perm.eq_of_pairwise ?_ (ofList entries).ascending m.ascending
      ((foldl_insert_perm entries empty apart).trans listed)
    intro a b _ _ below above
    exact absurd above (String.lt_asymm below)
  generalize ofList entries = built at same
  cases built
  cases same
  rfl

theorem ofList_entries (m : KeyMap α) : ofList m.entries = m := ofList_of_perm (.refl _)

end KeyMap

end Stepflow
