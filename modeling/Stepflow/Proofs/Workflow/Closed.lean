import Stepflow.Proofs.Workflow.WellFormed

/-!
# Edges that lead somewhere

A workflow can be put together by hand, with repeated ids, repeated edges and missing ports. What a
run needs is less than that it is well formed: no edge may lead to an id without a node.

* `Workflow.Closed`: every edge leads to a node;
* `Workflow.Grows`: a change that loses no node and opens no edge;
* one lemma for each change that grows a workflow, which is every change but removing a node.
-/

namespace Stepflow.Workflow

/-- Every edge leads to a node. -/
def Closed (w : Workflow) : Prop := ∀ n ∈ w.nodes, ∀ t ∈ n.connections, t ∈ w.ids

instance (w : Workflow) : Decidable w.Closed :=
  inferInstanceAs (Decidable (∀ n ∈ w.nodes, ∀ t ∈ n.connections, t ∈ w.ids))

/-- From `w` to `v` no node is lost, and no edge begins to lead nowhere. -/
structure Grows (w v : Workflow) : Prop where
  keeps : w.ids ⊆ v.ids
  closed : w.Closed → v.Closed

variable {v w : Workflow}

theorem Grows.refl (w : Workflow) : w.Grows w := ⟨List.Subset.refl _, fun closed => closed⟩

theorem grows_of_wiring (same : v.nodes.map Node.wiring = w.nodes.map Node.wiring) :
    w.Grows v := by
  have ids : v.ids = w.ids := by rw [ids_eq_map_wiring, ids_eq_map_wiring, same]
  constructor
  · rw [ids]
    exact List.Subset.refl _
  · intro closed m member t led
    have wiring : m.wiring ∈ w.nodes.map Node.wiring := same ▸ List.mem_map_of_mem member
    obtain ⟨n, old, matching⟩ := List.mem_map.1 wiring
    have connections : n.connections = m.connections := congrArg (·.2.1) matching
    rw [ids]
    exact closed n old t (connections ▸ led)

/-- Changing a node but not its edges. -/
theorem grows_of_unrewired (id : String) {f : Node → Node} (kept : ∀ n, (f n).wiring = n.wiring) :
    w.Grows (w.modifyNode id f) :=
  grows_of_wiring (map_modifyFirst kept w.nodes)

theorem grows_addNode {n : Node} (edgeless : n.connections = []) : w.Grows (w.addNode n) := by
  have more : w.ids ⊆ (w.addNode n).ids := by
    rw [ids_addNode]
    exact List.subset_append_left _ _
  refine ⟨more, ?_⟩
  intro closed m member t led
  rcases List.mem_append.1 member with old | added
  · exact more (closed m old t led)
  · cases List.mem_singleton.1 added
    rw [edgeless] at led
    cases led

/-- The edges of one node may change, as long as they lead to nodes. -/
theorem grows_modifyNode (id : String) {f : Node → Node} (kept : ∀ n, (f n).id = n.id)
    (within : ∀ n, ∀ t ∈ (f n).connections, t ∈ n.connections ∨ t ∈ w.ids) :
    w.Grows (w.modifyNode id f) := by
  have ids : (w.modifyNode id f).ids = w.ids := map_modifyFirst kept w.nodes
  constructor
  · rw [ids]
    exact List.Subset.refl _
  · intro closed m member t led
    rw [ids]
    rcases mem_modifyFirst member with old | ⟨n, found, rfl⟩
    · exact closed m old t led
    · rcases within n t led with before | known
      · exact closed n (List.mem_of_find?_eq_some found) t before
      · exact known

theorem grows_connect? {source target : String} {port : Port}
    (done : w.connect? source target port = some v) : w.Grows v := by
  obtain ⟨-, known, n, -, -, rfl⟩ := connect?_eq_some.1 done
  refine grows_modifyNode source (fun _ => rfl) ?_
  intro m t led
  rcases List.mem_append.1 led with old | added
  · exact .inl old
  · exact .inr (List.mem_singleton.1 added ▸ (hasNode_iff target).1 known)

theorem grows_disconnect? {source target : String}
    (done : w.disconnect? source target = some v) : w.Grows v := by
  obtain ⟨n, -, -, rfl⟩ := disconnect?_eq_some.1 done
  refine grows_modifyNode source (fun _ => rfl) ?_
  intro m t led
  exact .inl (List.mem_filter.1 led).1

/-- The new node is known to the source, and leads to a node itself. -/
theorem grows_insertBetween? {layout : Layout} {id source target : String} {kind : NodeKind}
    {x y : Double} (done : w.insertBetween? layout id source target kind x y = some v) :
    w.Grows v := by
  obtain ⟨s, t, shifted, x', y', -, foundTarget, -, rfl⟩ := of_insertBetween? done
  have ids : (w.spliced source target id (shift shifted layout.insertGap)
      (.between id target kind x' y')).ids = w.ids ++ [id] := ids_spliced w (id_shift _ _) _
  have more : w.ids ⊆ w.ids ++ [id] := List.subset_append_left _ _
  constructor
  · rw [ids]
    exact more
  · intro closed m member c led
    rw [ids]
    rcases List.mem_append.1 member with old | added
    · obtain ⟨n, present, rfl⟩ := List.mem_map.1 old
      have leads := connections_shift shifted layout.insertGap n
      split at led
      · obtain ⟨before, listed, rfl⟩ := List.mem_map.1 led
        split
        · exact List.mem_append_right _ (.head _)
        · exact more (closed n present before (leads ▸ listed))
      · exact more (closed n present c (leads ▸ led))
    · cases List.mem_singleton.1 added
      cases List.mem_singleton.1 led
      exact more ((hasNode_iff target).1 (by rw [hasNode, foundTarget]; rfl))

end Stepflow.Workflow
