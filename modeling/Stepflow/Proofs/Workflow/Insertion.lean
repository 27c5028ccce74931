import Mathlib.Algebra.BigOperators.Group.Finset.Piecewise
import Mathlib.Algebra.GroupWithZero.Nat
import Mathlib.Algebra.Order.BigOperators.Group.Finset
import Stepflow.Proofs.Workflow.Downstream
import Stepflow.Proofs.Workflow.WellFormed

/-!
# A node put on an edge

What inserting a node does to all others. The graph may have cycles, so that the source is itself
downstream of its target, and edges may be repeated or lead nowhere; only ids have to be distinct.

* `Node.Adjusted`: a node before and after, with all that may differ;
* `Workflow.MakesWay`: the nodes that move to the right;
* `Workflow.roomy_of_nan`: none of them where a place or the margin is NaN;
* `Workflow.insertion_makes_way`: when a node is inserted, where it stands, and what else changes.
-/

namespace Stepflow

/-- There is no edge to follow but one of a node, however many ids are looked up. -/
theorem sum_successors_le (nodes : List Node) (ids : Finset String) :
    ∑ id ∈ ids, (successors nodes id).length ≤ (nodes.map (·.connections.length)).sum := by
  induction nodes with
  | nil => simp [successors]
  | cons n rest ih =>
    have first (id : String) : (successors (n :: rest) id).length
        ≤ (if n.id = id then n.connections.length else 0) + (successors rest id).length := by
      unfold successors
      by_cases here : n.id = id
      · rw [List.find?_cons_of_pos (by simpa using here), if_pos here]
        exact Nat.le_add_right _ _
      · rw [List.find?_cons_of_neg (by simpa using here)]
        exact Nat.le_add_left _ _
    have own : ∑ id ∈ ids, (if n.id = id then n.connections.length else 0)
        ≤ n.connections.length := by
      rw [Finset.sum_ite_eq]
      split <;> omega
    calc ∑ id ∈ ids, (successors (n :: rest) id).length
        ≤ ∑ id ∈ ids, ((if n.id = id then n.connections.length else 0)
            + (successors rest id).length) := Finset.sum_le_sum fun id _ => first id
      _ = ∑ id ∈ ids, (if n.id = id then n.connections.length else 0)
            + ∑ id ∈ ids, (successors rest id).length := Finset.sum_add_distrib
      _ ≤ n.connections.length + (rest.map (·.connections.length)).sum := Nat.add_le_add own ih
      _ = ((n :: rest).map (·.connections.length)).sum := rfl

namespace Node

/-- From `n` to `m` nothing differs but that a node among `shifted` has moved to the right, and that
the edges of the source to the target lead to the new node `id`, from the same port. -/
structure Adjusted (source target id : String) (shifted : List String) (gap : Double)
    (n m : Node) : Prop where
  kept : m = { n with x := m.x, connections := m.connections, ports := m.ports }
  place : m.x = if n.id ∈ shifted then n.x.add gap else n.x
  others : n.id ≠ source → m.connections = n.connections ∧ m.ports = n.ports
  edges : n.id = source →
    ∀ i : Nat, m.connections[i]? =
      if n.connections[i]? = some target then some id else n.connections[i]?
  ports : n.id = source →
    ∀ key, m.ports.get? key =
      if key = target then none
      else if key = id then some ((n.ports.get? target).getD .right)
      else n.ports.get? key

theorem adjusted {source target id : String} (apart : id ≠ target) (shifted : List String)
    (gap : Double) (n : Node) :
    n.Adjusted source target id shifted gap
      (if (Workflow.shift shifted gap n).id = source
        then (Workflow.shift shifted gap n).redirect target id
        else Workflow.shift shifted gap n) := by
  rw [Workflow.shift_eq]
  by_cases own : n.id = source
  · rw [if_pos own]
    refine ⟨rfl, rfl, fun other => absurd own other, fun _ i => ?_, fun _ key => ?_⟩
    · rw [redirect, List.getElem?_map]
      cases n.connections[i]? with
      | none => rfl
      | some c => by_cases led : c = target <;> simp [led]
    · rw [redirect, KeyMap.get?_insert, KeyMap.get?_erase]
      by_cases lost : key = target
      · rw [if_pos lost, if_pos lost, if_neg (lost ▸ apart.symm)]
      · rw [if_neg lost, if_neg lost]
  · rw [if_neg own]
    exact ⟨rfl, rfl, fun _ => ⟨rfl, rfl⟩, fun same => absurd same own, fun same => absurd same own⟩

end Node

namespace Workflow

variable {v w : Workflow} {id source target : String}

/-- The edges of all nodes, repeated ones as often as they are listed. -/
def edgeCount (w : Workflow) : Nat := (w.nodes.map (·.connections.length)).sum

/-- The nodes that move to the right when there is no room between `s` and `t`: of those downstream
of `t`, without passing `s`, all that the search finds in its steps. -/
structure MakesWay (w : Workflow) (layout : Layout) (s t : Node) (shifted : List String) :
    Prop where
  roomy : layout.cramped s t = false → shifted = []
  unrepeated : shifted.Nodup
  capped : shifted.length ≤ layout.searchCap.toNat
  downstream : ∀ id ∈ shifted, Reaches w.nodes s.id t.id id
  spared : s.id ∉ shifted
  all : layout.cramped s t = true → 1 + w.edgeCount ≤ layout.searchCap.toNat →
    ∀ id, id ∈ shifted ↔ Reaches w.nodes s.id t.id id

/-- Nothing makes way for want of a number. -/
theorem roomy_of_nan {layout : Layout} {s t : Node}
    (unknown : s.x = .nan ∨ t.x = .nan ∨ layout.crampedMargin = .nan) :
    layout.cramped s t = false := by
  unfold Layout.cramped Double.sub
  rcases unknown with source | target | margin
  · simp [source]
  · simp [target]
  · simp [margin, Double.neg]

theorem makesWay_shiftedBy (w : Workflow) (layout : Layout) (s t : Node) :
    w.MakesWay layout s t (w.shiftedBy layout s t) := by
  unfold shiftedBy
  by_cases cramped : layout.cramped s t = true
  · rw [if_pos cramped]
    obtain ⟨reach, mem_reach, bounds⟩ := downstream_reaches w.nodes t.id s.id
    obtain ⟨unrepeated, capped, within, -, -, all⟩ := bounds layout.searchCap.toNat
    have reached : ∀ id ∈ Stepflow.downstream w.nodes t.id s.id layout.searchCap.toNat,
        Reaches w.nodes s.id t.id id := fun id member => (mem_reach id).1 (within id member)
    refine ⟨fun roomy => ?_, unrepeated, capped, reached, ?_, fun _ enough id => ?_⟩
    · rw [cramped] at roomy
      cases roomy
    · exact fun member => (reached s.id member).avoids rfl
    · have edges := sum_successors_le w.nodes reach
      exact (all (by unfold edgeCount at enough; omega) id).trans (mem_reach id)
  · rw [if_neg cramped]
    exact ⟨fun _ => rfl, .nil, Nat.zero_le _, by simp, by simp, fun full => absurd full cramped⟩

theorem ids_inserted (w : Workflow) (layout : Layout) (s t : Node) (kind : NodeKind)
    (x y : Double) :
    (w.spliced source target id (shift (w.shiftedBy layout s t) layout.insertGap)
      (inserted layout id s t kind x y)).ids = w.ids ++ [id] := by
  have named : (inserted layout id s t kind x y).id = id := by
    unfold inserted
    split <;> rfl
  rw [ids_spliced w (id_shift _ _), named]

/-- **Inserting a node changes the edge it is put on, makes way and does nothing else.** It needs an
edge from the source to the target, and without one the workflow stays as it is. The new node comes
behind all others, which keep their order. Where there is no room it stands right behind the source,
and what is downstream of the target, but never the source, moves to the right by the same distance,
every node once. The search for these nodes finds all of them if it may take a step for each edge of
the graph and one more. Places and distances may be any doubles. -/
theorem insertion_makes_way (distinct : w.ids.Nodup) (fresh : id ∉ w.ids) (source target : String)
    (layout : Layout) (kind : NodeKind) (x y : Double) :
    let result := w.insertBetween? layout id source target kind x y
    let after := result.getD w
    (∀ s t, w.node? source = some s → w.node? target = some t → target ∈ s.connections →
      ∃ shifted old new, w.MakesWay layout s t shifted ∧
        result = some after ∧ after = { w with nodes := old ++ [new] } ∧ after.ids.Nodup ∧
        List.Forall₂ (Node.Adjusted source target id shifted layout.insertGap) w.nodes old ∧
        ((new.x, new.y) =
          if layout.cramped s t then (s.x.add layout.insertGap, s.y) else (x, y)) ∧
        new = ⟨id, kind, kind.word, new.x, new.y, [target], KeyMap.empty.insert target .right,
          .empty, false⟩) ∧
    ((¬∃ s t, w.node? source = some s ∧ w.node? target = some t ∧ target ∈ s.connections) →
      result = none ∧ after = w) := by
  intro result after
  constructor
  · intro s t foundSource foundTarget led
    obtain ⟨known, rfl⟩ := node?_eq_some foundTarget
    have apart : id ≠ t.id := by
      rintro rfl
      exact fresh (List.mem_map_of_mem known)
    have done : result = some (w.spliced source t.id id
        (shift (w.shiftedBy layout s t) layout.insertGap) (inserted layout id s t kind x y)) :=
      insertBetween?_eq_some.2 ⟨s, t, foundSource, foundTarget, led, rfl⟩
    have same : after = w.spliced source t.id id
        (shift (w.shiftedBy layout s t) layout.insertGap) (inserted layout id s t kind x y) := by
      rw [show after = result.getD w from rfl, done, Option.getD_some]
    refine ⟨_, _, _, w.makesWay_shiftedBy layout s t, by rw [done, same], same, ?_, ?_, ?_, ?_⟩
    · rw [same, ids_inserted]
      exact distinct.append (List.nodup_singleton _) (by simpa using fresh)
    · rw [List.forall₂_map_right_iff, List.forall₂_same]
      exact fun n _ => n.adjusted apart _ _
    · unfold inserted
      split <;> rfl
    · unfold inserted
      split <;> rfl
  · intro unlinked
    have refused : result = none := by
      rw [Option.eq_none_iff_forall_ne_some]
      intro v done
      obtain ⟨s, t, foundSource, foundTarget, led, -⟩ := insertBetween?_eq_some.1 done
      exact unlinked ⟨s, t, foundSource, foundTarget, led⟩
    exact ⟨refused, by rw [show after = result.getD w from rfl, refused, Option.getD_none]⟩

/-- A cycle through the start, which lists one edge twice and has one that leads nowhere. -/
def knot : Workflow where
  id := "knot"
  name := "Knot"
  scope := .server
  inputs := []
  outputs := []
  locals := []
  nodes := [
    { Node.ofKind "s" .start (.ofInt 0) (.ofInt 0) with connections := ["b", "ghost", "b"] },
    { Node.ofKind "b" .branch (.ofInt 9) (.ofInt 0) with connections := ["s", "c"] },
    { Node.ofKind "c" .action (.ofInt 9) (.ofInt 9) with connections := ["b"] }]

/-- A node on the edge that the start lists twice. -/
theorem knot_makes_way :
    knot.ids.Nodup ∧ "m" ∉ knot.ids ∧
      ∃ s t, knot.node? "s" = some s ∧ knot.node? "b" = some t ∧ "b" ∈ s.connections ∧
        Layout.cramped {} s t = true ∧ 1 + knot.edgeCount ≤ (Layout.searchCap {}).toNat ∧
        ∃ shifted old new, knot.MakesWay {} s t shifted ∧
          knot.insertBetween? {} "m" "s" "b" .branch (.ofInt 0) (.ofInt 0)
            = some { knot with nodes := old ++ [new] } ∧
          List.Forall₂ (Node.Adjusted "s" "b" "m" shifted (Layout.insertGap {})) knot.nodes old ∧
          new = ⟨"m", .branch, "if", new.x, new.y, ["b"], KeyMap.empty.insert "b" .right, .empty,
            false⟩ := by
  refine ⟨by decide, by decide, _, _, rfl, rfl, by decide, by decide +kernel, by decide, ?_⟩
  obtain ⟨shifted, old, new, way, done, same, -, adjusted, -, made⟩ :=
    (insertion_makes_way (show knot.ids.Nodup by decide) (show "m" ∉ knot.ids by decide) "s" "b" {}
      .branch (.ofInt 0) (.ofInt 0)).1 _ _ rfl rfl (by decide)
  exact ⟨shifted, old, new, way, done.trans (congrArg some same), adjusted, made⟩

end Workflow

end Stepflow
