/-!
# The first match in a list

Things on a canvas are looked up by id, and the first match counts. `modifyFirst` changes just
what `List.find?` finds.
-/

namespace Stepflow

variable {α β : Type}

def modifyFirst (p : α → Bool) (f : α → α) : List α → List α
  | [] => []
  | a :: rest => if p a then f a :: rest else a :: modifyFirst p f rest

variable {p : α → Bool} {f g : α → α}

theorem modifyFirst_of_find?_none {l : List α}
    (h : l.find? p = none) : modifyFirst p f l = l := by
  induction l with
  | nil => rfl
  | cons a rest ih => grind [modifyFirst]

theorem mem_modifyFirst {l : List α} {b : α}
    (member : b ∈ modifyFirst p f l) : b ∈ l ∨ ∃ a, l.find? p = some a ∧ b = f a := by
  induction l with
  | nil => cases member
  | cons a rest ih =>
    unfold modifyFirst at member
    split at member
    · rename_i found
      rcases List.mem_cons.1 member with rfl | later
      · exact .inr ⟨a, List.find?_cons_of_pos found, rfl⟩
      · exact .inl (.tail _ later)
    · rename_i other
      rcases List.mem_cons.1 member with rfl | later
      · exact .inl (.head _)
      · rcases ih later with kept | ⟨a', found, same⟩
        · exact .inl (.tail _ kept)
        · exact .inr ⟨a', by rw [List.find?_cons_of_neg other, found], same⟩

theorem modifyFirst_congr {l : List α} (same : ∀ a, l.find? p = some a → f a = g a) :
    modifyFirst p f l = modifyFirst p g l := by
  induction l with
  | nil => rfl
  | cons a rest ih =>
    unfold modifyFirst
    by_cases found : p a = true
    · rw [if_pos found, if_pos found, same a (List.find?_cons_of_pos found)]
    · rw [if_neg found, if_neg found, ih]
      intro b later
      exact same b (by rwa [List.find?_cons_of_neg found])

theorem modifyFirst_self (l : List α) : modifyFirst p (fun a => a) l = l := by
  induction l with
  | nil => rfl
  | cons a rest ih =>
    unfold modifyFirst
    split
    · rfl
    · rw [ih]

theorem modifyFirst_modifyFirst {l : List α} (kept : ∀ a, l.find? p = some a → p (f a) = true) :
    modifyFirst p g (modifyFirst p f l) = modifyFirst p (fun a => g (f a)) l := by
  induction l with
  | nil => rfl
  | cons a rest ih =>
    by_cases found : p a = true
    · have first := kept a (List.find?_cons_of_pos found)
      simp only [modifyFirst, if_pos found, if_pos first]
    · simp only [modifyFirst, if_neg found]
      rw [ih]
      intro b later
      exact kept b (by rwa [List.find?_cons_of_neg found])

/-- The element that is changed may depend on the others being what they are. -/
theorem map_modifyFirst_found {key : α → β} {l : List α}
    (same : ∀ a, l.find? p = some a → key (f a) = key a) :
    (modifyFirst p f l).map key = l.map key := by
  induction l with
  | nil => rfl
  | cons a rest ih =>
    unfold modifyFirst
    by_cases found : p a = true
    · rw [if_pos found, List.map_cons, List.map_cons, same a (List.find?_cons_of_pos found)]
    · rw [if_neg found, List.map_cons, List.map_cons, ih]
      intro b later
      exact same b (by rwa [List.find?_cons_of_neg found])

theorem map_modifyFirst {key : α → β} (same : ∀ a, key (f a) = key a)
    (l : List α) : (modifyFirst p f l).map key = l.map key :=
  map_modifyFirst_found fun a _ => same a

theorem find?_modifyFirst_found {l : List α} {a : α} (found : l.find? p = some a)
    (kept : p (f a) = true) : (modifyFirst p f l).find? p = some (f a) := by
  induction l with
  | nil => cases found
  | cons b rest ih =>
    unfold modifyFirst
    by_cases first : p b = true
    · rw [List.find?_cons_of_pos first] at found
      cases found
      rw [if_pos first, List.find?_cons_of_pos kept]
    · rw [List.find?_cons_of_neg first] at found
      rw [if_neg first, List.find?_cons_of_neg first, ih found]

theorem find?_modifyFirst_kept {l : List α} (kept : ∀ a, l.find? p = some a → p (f a) = true) :
    (modifyFirst p f l).find? p = (l.find? p).map f := by
  cases found : l.find? p with
  | none => rw [modifyFirst_of_find?_none found, found, Option.map_none]
  | some a => rw [find?_modifyFirst_found found (kept a found), Option.map_some]

/-- A search by another key finds what it found, changed or not. -/
theorem find?_modifyFirst_other {q : α → Bool} (key : ∀ a, q (f a) = q a) {l : List α} {a : α}
    (found : l.find? q = some a) :
    (modifyFirst p f l).find? q = some a ∨ (modifyFirst p f l).find? q = some (f a) := by
  induction l with
  | nil => cases found
  | cons b rest ih =>
    unfold modifyFirst
    by_cases here : q b = true
    · rw [List.find?_cons_of_pos here] at found
      cases found
      split
      · exact .inr (List.find?_cons_of_pos ((key _).trans here))
      · exact .inl (List.find?_cons_of_pos here)
    · rw [List.find?_cons_of_neg here] at found
      split
      · exact .inl ((List.find?_cons_of_neg fun also => here ((key b).symm.trans also)).trans found)
      · rw [List.find?_cons_of_neg here]
        exact ih found

/-- A search that neither the changed element meets nor what becomes of it. -/
theorem find?_modifyFirst_apart {q : α → Bool} {l : List α}
    (apart : ∀ a, l.find? p = some a → q a = false ∧ q (f a) = false) :
    (modifyFirst p f l).find? q = l.find? q := by
  induction l with
  | nil => rfl
  | cons b rest ih =>
    unfold modifyFirst
    by_cases first : p b = true
    · obtain ⟨before, after⟩ := apart b (List.find?_cons_of_pos first)
      rw [if_pos first, List.find?_cons_of_neg (by simp [after]),
        List.find?_cons_of_neg (by simp [before])]
    · rw [if_neg first, List.find?_cons, List.find?_cons, ih]
      intro a later
      exact apart a (by rwa [List.find?_cons_of_neg first])

theorem find?_eraseP_apart {q : α → Bool} (apart : ∀ a, p a = true → q a = false) (l : List α) :
    (l.eraseP p).find? q = l.find? q := by
  induction l with
  | nil => rfl
  | cons b rest ih =>
    by_cases first : p b = true
    · rw [List.eraseP_cons_of_pos first, List.find?_cons_of_neg (by simp [apart b first])]
    · rw [List.eraseP_cons_of_neg first, List.find?_cons, List.find?_cons, ih]

/-- Where keys are distinct there is no second match. -/
theorem find?_eraseP_own [DecidableEq β] {key : α → β} {k : β} {l : List α}
    (distinct : (l.map key).Nodup) : (l.eraseP (key · = k)).find? (key · = k) = none := by
  induction l with
  | nil => rfl
  | cons a rest ih =>
    obtain ⟨first, others⟩ := List.nodup_cons.1 distinct
    by_cases here : key a = k
    · rw [List.eraseP_cons_of_pos (by simpa using here)]
      refine List.find?_eq_none.2 fun b later same => first ?_
      exact List.mem_map.2 ⟨b, later, (of_decide_eq_true same).trans here.symm⟩
    · rw [List.eraseP_cons_of_neg (by simpa using here),
        List.find?_cons_of_neg (by simpa using here)]
      exact ih others

end Stepflow
