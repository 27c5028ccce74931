import Mathlib.Algebra.BigOperators.Group.Finset.Basic
import Mathlib.Data.Set.Finite.Lattice
import Stepflow.Workflow.Splice

/-!
# What is downstream of a node

The search downstream of a node finds what edges lead to without meeting the excluded node. It
looks at one id of its queue at a time, and an id may stand in the queue many times, so what it
finds depends on the number of steps it may take.

* `Reaches`: an id is reached on a path that avoids another;
* `Frontier`: what a step keeps true of the ids visited and the ids in the queue;
* `unpaid`: the steps that are left to take, at most;
* `downstream_reaches`: the search stays within what is reached, and has all of it after as many
  steps as there are edges to follow.
-/

namespace Stepflow

/-- Edges lead from `start` to an id, on a path that nowhere meets `exclude`. An id that names no
node may be the end of a path. -/
inductive Reaches (nodes : List Node) (exclude start : String) : String → Prop where
  | here : start ≠ exclude → Reaches nodes exclude start start
  | along {id next : String} : Reaches nodes exclude start id → next ∈ successors nodes id →
      next ≠ exclude → Reaches nodes exclude start next

variable {nodes : List Node} {exclude start id : String} {visited queue : List String}

theorem Reaches.avoids (reached : Reaches nodes exclude start id) : id ≠ exclude := by
  cases reached with
  | here apart => exact apart
  | along _ _ apart => exact apart

theorem mem_connections_of_successors {t : String} (led : t ∈ successors nodes id) :
    ∃ n ∈ nodes, n.id = id ∧ t ∈ n.connections := by
  unfold successors at led
  split at led
  · rename_i n found
    exact ⟨n, List.mem_of_find?_eq_some found, by simpa using List.find?_some found, led⟩
  · cases led

/-- A path ends where it started or at the target of an edge, so there are finitely many ends. -/
theorem finite_reaches (nodes : List Node) (exclude start : String) :
    {id | Reaches nodes exclude start id}.Finite := by
  refine (start :: nodes.flatMap (·.connections)).finite_toSet.subset ?_
  intro id reached
  cases reached with
  | here => exact .head _
  | along _ led =>
    obtain ⟨n, member, -, listed⟩ := mem_connections_of_successors led
    exact .tail _ (List.mem_flatMap.2 ⟨n, member, listed⟩)

/-- What has been visited is downstream and hangs together, and where it leads has been visited or
is in the queue. -/
structure Frontier (nodes : List Node) (exclude start : String) (visited queue : List String) :
    Prop where
  unrepeated : visited.Nodup
  led : ∀ id ∈ visited, Reaches nodes exclude start id
  awaited : ∀ id ∈ queue, id ≠ exclude → Reaches nodes exclude start id
  connected : ∀ id, id ∈ visited ∨ id ∈ queue → id ≠ start →
    ∃ before ∈ visited, id ∈ successors nodes before
  followed : ∀ id ∈ visited, ∀ next ∈ successors nodes id, next ≠ exclude →
    next ∈ visited ∨ next ∈ queue
  begun : start ≠ exclude → start ∈ visited ∨ start ∈ queue

namespace Frontier

theorem initial (nodes : List Node) (exclude start : String) :
    Frontier nodes exclude start [] [start] := by
  refine ⟨.nil, by simp, ?_, ?_, by simp, by simp⟩
  · intro id member apart
    cases List.mem_singleton.1 member
    exact .here apart
  · intro id member other
    rcases member with none | member
    · cases none
    · exact absurd (List.mem_singleton.1 member) other

theorem skip (h : Frontier nodes exclude start visited (id :: queue))
    (known : id = exclude ∨ id ∈ visited) : Frontier nodes exclude start visited queue := by
  have dropped {t : String} (apart : t ≠ exclude) (somewhere : t ∈ visited ∨ t ∈ id :: queue) :
      t ∈ visited ∨ t ∈ queue := by
    rcases somewhere with before | waits
    · exact .inl before
    · rcases List.mem_cons.1 waits with rfl | later
      · exact .inl (known.resolve_left apart)
      · exact .inr later
  constructor
  · exact h.unrepeated
  · exact h.led
  · exact fun t member => h.awaited t (.tail _ member)
  · exact fun t member => h.connected t (member.imp_right (.tail _))
  · exact fun t member next led apart => dropped apart (h.followed t member next led apart)
  · exact fun apart => dropped apart (h.begun apart)

theorem visit (h : Frontier nodes exclude start visited (id :: queue)) (apart : id ≠ exclude)
    (new : id ∉ visited) :
    Frontier nodes exclude start (visited ++ [id])
      (queue ++ (successors nodes id).filter (· ∉ visited ++ [id])) := by
  have here : Reaches nodes exclude start id := h.awaited id (.head _) apart
  have visited_or {t : String} : t ∈ visited ++ [id] ↔ t ∈ visited ∨ t = id := by simp
  have moved {t : String} (somewhere : t ∈ visited ∨ t ∈ id :: queue) :
      t ∈ visited ++ [id] ∨ t ∈ queue := by
    rcases somewhere with before | waits
    · exact .inl (visited_or.2 (.inl before))
    · exact (List.mem_cons.1 waits).imp_left fun same => visited_or.2 (.inr same)
  have linked {t : String} (other : t ≠ start) (somewhere : t ∈ visited ∨ t ∈ id :: queue) :
      ∃ before ∈ visited ++ [id], t ∈ successors nodes before := by
    obtain ⟨before, member, led⟩ := h.connected t somewhere other
    exact ⟨before, visited_or.2 (.inl member), led⟩
  constructor
  · exact List.nodup_append.2 ⟨h.unrepeated, List.nodup_singleton _, by
      intro t member t' single same
      exact new (List.mem_singleton.1 single ▸ same ▸ member)⟩
  · intro t member
    rcases visited_or.1 member with before | rfl
    · exact h.led t before
    · exact here
  · intro t member clear
    rcases List.mem_append.1 member with waited | added
    · exact h.awaited t (.tail _ waited) clear
    · exact here.along (List.mem_filter.1 added).1 clear
  · intro t member other
    rcases member with before | waits
    · rcases visited_or.1 before with before | rfl
      · exact linked other (.inl before)
      · exact linked other (.inr (.head _))
    · rcases List.mem_append.1 waits with waited | added
      · exact linked other (.inr (.tail _ waited))
      · exact ⟨id, visited_or.2 (.inr rfl), (List.mem_filter.1 added).1⟩
  · intro t member next led clear
    rcases visited_or.1 member with before | rfl
    · exact (moved (h.followed t before next led clear)).imp_right (List.mem_append_left _)
    · by_cases seen : next ∈ visited ++ [t]
      · exact .inl seen
      · exact .inr (List.mem_append_right _ (List.mem_filter.2 ⟨led, by simpa using seen⟩))
  · exact fun clear => (moved (h.begun clear)).imp_right (List.mem_append_left _)

/-- With nothing left in the queue, all that is downstream has been visited. -/
theorem complete (h : Frontier nodes exclude start visited [])
    (reached : Reaches nodes exclude start id) : id ∈ visited := by
  induction reached with
  | here apart => exact (h.begun apart).resolve_right List.not_mem_nil
  | along _ led apart before =>
    exact (h.followed _ before _ led apart).resolve_right List.not_mem_nil

end Frontier

/-! The steps of a search -/

theorem prefix_search (nodes : List Node) (exclude : String) (cap : Nat)
    (visited queue : List String) : visited <+: search nodes exclude cap visited queue := by
  fun_induction search nodes exclude cap visited queue with
  | case1 visited queue => exact List.prefix_rfl
  | case2 cap visited => exact List.prefix_rfl
  | case3 cap visited id queue known ih => exact ih
  | case4 cap visited id queue new extended ih => exact (List.prefix_append _ _).trans ih

/-- More steps find what fewer steps find, and then what comes next. -/
theorem search_prefix (nodes : List Node) (exclude : String) (cap more : Nat)
    (visited queue : List String) :
    search nodes exclude cap visited queue <+: search nodes exclude (cap + more) visited queue := by
  fun_induction search nodes exclude cap visited queue with
  | case1 visited queue => exact prefix_search nodes exclude (0 + more) visited queue
  | case2 cap visited => exact prefix_search nodes exclude (cap + 1 + more) visited []
  | case3 cap visited id queue known ih =>
    rw [Nat.succ_add, search, if_pos known]
    exact ih
  | case4 cap visited id queue new extended ih =>
    rw [Nat.succ_add, search, if_neg new]
    exact ih

theorem length_search_le (nodes : List Node) (exclude : String) (cap : Nat)
    (visited queue : List String) :
    (search nodes exclude cap visited queue).length ≤ visited.length + cap := by
  fun_induction search nodes exclude cap visited queue with
  | case1 visited queue => omega
  | case2 cap visited => omega
  | case3 cap visited id queue known ih => omega
  | case4 cap visited id queue new extended ih =>
    have longer : extended.length = visited.length + 1 := List.length_append
    omega

/-- One step for each id in the queue, and for each edge of an id that is not visited yet. -/
def unpaid (nodes : List Node) (reach : Finset String) (visited queue : List String) : Nat :=
  queue.length + ∑ id ∈ reach \ visited.toFinset, (successors nodes id).length

/-- The edges of an id are paid for when it is visited, and then stand in the queue. -/
theorem unpaid_visit {reach : Finset String} (member : id ∈ reach) (new : id ∉ visited) :
    unpaid nodes reach (visited ++ [id])
        (queue ++ (successors nodes id).filter (· ∉ visited ++ [id])) + 1
      ≤ unpaid nodes reach visited (id :: queue) := by
  have rest : reach \ (visited ++ [id]).toFinset = (reach \ visited.toFinset).erase id := by
    rw [List.toFinset_append, ← Finset.sdiff_singleton_eq_erase, sdiff_sdiff_left]
    rfl
  have paid : ∑ t ∈ (reach \ visited.toFinset).erase id, (successors nodes t).length
        + (successors nodes id).length
      = ∑ t ∈ reach \ visited.toFinset, (successors nodes t).length :=
    Finset.sum_erase_add _ _ (by simp [member, new])
  have enqueued := List.length_filter_le (· ∉ visited ++ [id]) (successors nodes id)
  simp only [unpaid, rest, List.length_append, List.length_cons] at enqueued ⊢
  omega

/-- A search that may take the steps that are left has emptied its queue. -/
theorem frontier_search {reach : Finset String}
    (all : ∀ id, Reaches nodes exclude start id → id ∈ reach) (cap : Nat)
    (h : Frontier nodes exclude start visited queue) :
    ∃ left, Frontier nodes exclude start (search nodes exclude cap visited queue) left ∧
      (unpaid nodes reach visited queue ≤ cap → left = []) := by
  fun_induction search nodes exclude cap visited queue with
  | case1 visited queue =>
    refine ⟨queue, h, fun enough => ?_⟩
    rw [unpaid] at enough
    exact List.eq_nil_of_length_eq_zero (by omega)
  | case2 cap visited => exact ⟨[], h, fun _ => rfl⟩
  | case3 cap visited id queue known ih =>
    obtain ⟨left, after, empties⟩ := ih (h.skip known)
    refine ⟨left, after, fun enough => empties ?_⟩
    simp only [unpaid, List.length_cons] at enough ⊢
    omega
  | case4 cap visited id queue new extended ih =>
    obtain ⟨apart, fresh⟩ := not_or.1 new
    obtain ⟨left, after, empties⟩ := ih (h.visit apart fresh)
    refine ⟨left, after, fun enough => empties ?_⟩
    have paid : unpaid nodes reach extended
          (queue ++ (successors nodes id).filter (· ∉ extended)) + 1
        ≤ unpaid nodes reach visited (id :: queue) :=
      unpaid_visit (all id (h.awaited id (.head _) apart)) fresh
    omega

/-- **The search downstream finds what can be reached**, on any list of nodes. Within its steps it
finds nothing else and nothing that hangs loose, and with more steps it finds more. As many steps as
there are edges to follow, and one for the start, find all. -/
theorem downstream_reaches (nodes : List Node) (start exclude : String) :
    ∃ reach : Finset String, (∀ id, id ∈ reach ↔ Reaches nodes exclude start id) ∧
      ∀ cap, let found := downstream nodes start exclude cap
        found.Nodup ∧ found.length ≤ cap ∧ (∀ id ∈ found, id ∈ reach) ∧
        (∀ id ∈ found, id ≠ start → ∃ before ∈ found, id ∈ successors nodes before) ∧
        (∀ cap', cap ≤ cap' → found <+: downstream nodes start exclude cap') ∧
        (1 + ∑ id ∈ reach, (successors nodes id).length ≤ cap → ∀ id, id ∈ found ↔ id ∈ reach) := by
  let reach := (finite_reaches nodes exclude start).toFinset
  have mem_reach (id : String) : id ∈ reach ↔ Reaches nodes exclude start id :=
    (finite_reaches nodes exclude start).mem_toFinset
  refine ⟨reach, mem_reach, fun cap => ?_⟩
  obtain ⟨left, frontier, empties⟩ := frontier_search (fun id => (mem_reach id).2) cap
    (.initial nodes exclude start)
  have within : ∀ id ∈ downstream nodes start exclude cap, id ∈ reach :=
    fun id member => (mem_reach id).2 (frontier.led id member)
  refine ⟨frontier.unrepeated, ?_, within, ?_, ?_, ?_⟩
  · exact (length_search_le nodes exclude cap [] [start]).trans (Nat.zero_add cap).le
  · exact fun id member => frontier.connected id (.inl member)
  · intro cap' more
    obtain ⟨extra, rfl⟩ := Nat.exists_eq_add_of_le more
    exact search_prefix nodes exclude cap extra [] [start]
  · intro enough id
    have empty : left = [] := empties (by simpa [unpaid] using enough)
    subst empty
    exact ⟨within id, fun reached => frontier.complete ((mem_reach id).1 reached)⟩

/-- No step can be spared where an edge is repeated: the second `b` of the queue takes one. -/
example :
    let a := { Node.ofKind "a" .start (.ofInt 0) (.ofInt 0) with connections := ["b", "b", "c"] }
    downstream [a] "a" "s" 3 = ["a", "b"] ∧ downstream [a] "a" "s" 4 = ["a", "b", "c"] := by
  decide

end Stepflow
