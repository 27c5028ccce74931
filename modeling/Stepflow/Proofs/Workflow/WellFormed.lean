import Mathlib.Data.List.Nodup
import Stepflow.Proofs.Workflow.Changes

/-!
# Well-formed workflows

Nodes have distinct ids, and the edges of a node lead to different other nodes of its workflow,
each from one port.

* `Node.Wired`: the edges of one node, among given ids;
* `Workflow.WellFormed`, `Workflow.WellFormed.congr`: it depends on the wiring of nodes only;
* one lemma for each change of a workflow that keeps it well formed.
-/

namespace Stepflow

namespace Node

/-- The edges of a node are sound in a workflow with the nodes `ids`. -/
structure Wired (ids : List String) (n : Node) : Prop where
  unrepeated : n.connections.Nodup
  irreflexive : n.id ∉ n.connections
  closed : ∀ t ∈ n.connections, t ∈ ids
  ported : ∀ t, n.ports.contains t = true ↔ t ∈ n.connections

/-- All of a node that concerns its edges. -/
def wiring (n : Node) : String × List String × KeyMap Port := (n.id, n.connections, n.ports)

variable {n m : Node} {ids : List String}

theorem Wired.congr (same : m.wiring = n.wiring) (h : n.Wired ids) : m.Wired ids := by
  obtain ⟨id, rest⟩ := Prod.mk.inj same
  obtain ⟨connections, ports⟩ := Prod.mk.inj rest
  constructor
  · exact connections ▸ h.unrepeated
  · exact connections ▸ id ▸ h.irreflexive
  · exact connections ▸ h.closed
  · exact connections ▸ ports ▸ h.ported

theorem Wired.mono {ids' : List String} (more : ids ⊆ ids') (h : n.Wired ids) : n.Wired ids' :=
  { h with closed := fun t member => more (h.closed t member) }

theorem wired_of_edgeless (connections : n.connections = []) (ports : n.ports = .empty) :
    n.Wired ids := by
  constructor <;> simp [connections, ports, KeyMap.contains]

theorem Wired.attach {target : String} (h : n.Wired ids) (known : target ∈ ids)
    (other : n.id ≠ target) (new : target ∉ n.connections) (port : Port) :
    (n.attach target port).Wired ids := by
  constructor
  · exact h.unrepeated.append (List.nodup_singleton _) (by simpa using new)
  · simp [Node.attach, h.irreflexive, other]
  · intro t member
    rcases List.mem_append.1 member with old | added
    · exact h.closed t old
    · exact List.mem_singleton.1 added ▸ known
  · intro t
    simp [Node.attach, KeyMap.contains_insert, h.ported, or_comm]

theorem Wired.detach (h : n.Wired ids) (target : String) :
    (n.detach target).Wired (ids.filter (· ≠ target)) := by
  constructor
  · exact h.unrepeated.filter _
  · intro member
    exact h.irreflexive (List.mem_filter.1 member).1
  · intro t member
    have := List.mem_filter.1 member
    exact List.mem_filter.2 ⟨h.closed t this.1, this.2⟩
  · intro t
    simp [Node.detach, KeyMap.contains_erase, h.ported, and_comm]

/-- The new node takes the place of one target, at its place in the order. -/
theorem Wired.redirect {target id : String} (h : n.Wired ids) (led : target ∈ n.connections)
    (fresh : id ∉ ids) (own : n.id ∈ ids) : (n.redirect target id).Wired (ids ++ [id]) := by
  have absent : id ∉ n.connections := fun member => fresh (h.closed id member)
  have mem : ∀ t, t ∈ (n.redirect target id).connections ↔
      t = id ∨ t ≠ target ∧ t ∈ n.connections := by
    intro t
    simp only [Node.redirect, List.mem_map]
    constructor
    · rintro ⟨c, member, rfl⟩
      split
      · exact .inl rfl
      · exact .inr ⟨by assumption, member⟩
    · rintro (rfl | ⟨other, member⟩)
      · exact ⟨target, led, if_pos rfl⟩
      · exact ⟨t, member, if_neg other⟩
  constructor
  · refine (List.nodup_map_iff_inj_on h.unrepeated).2 ?_
    intro a memberA b memberB same
    split at same <;> split at same
    · simp_all
    · exact absurd (same ▸ memberB) absent
    · exact absurd (same ▸ memberA) absent
    · exact same
  · rw [mem]
    rintro (same | ⟨-, member⟩)
    · exact fresh (same ▸ own)
    · exact h.irreflexive member
  · intro t member
    rcases (mem t).1 member with rfl | ⟨-, old⟩
    · simp
    · exact List.mem_append_left _ (h.closed t old)
  · intro t
    rw [mem, ← h.ported]
    simp [Node.redirect, KeyMap.contains_insert, KeyMap.contains_erase]

theorem wired_between {id target : String} (known : target ∈ ids) (fresh : id ∉ ids)
    (kind : NodeKind) (x y : Double) : (between id target kind x y).Wired (ids ++ [id]) := by
  have other : id ≠ target := fun same => fresh (same ▸ known)
  have edgeless : (ofKind id kind x y).Wired (ids ++ [id]) := wired_of_edgeless rfl rfl
  have attached := edgeless.attach (List.mem_append_left _ known) other (by simp [ofKind]) .right
  have same : (between id target kind x y).wiring
      = ((ofKind id kind x y).attach target .right).wiring := rfl
  exact attached.congr same

end Node

namespace Workflow

def ids (w : Workflow) : List String := w.nodes.map (·.id)

/-- The nodes have distinct ids and sound edges. -/
structure WellFormed (w : Workflow) : Prop where
  distinct : w.ids.Nodup
  wired : ∀ n ∈ w.nodes, n.Wired w.ids

variable {v w : Workflow}

theorem hasNode_iff (id : String) : w.hasNode id = true ↔ id ∈ w.ids := by
  simp [hasNode, node?, ids, List.find?_isSome]

theorem ids_eq_map_wiring (w : Workflow) : w.ids = (w.nodes.map Node.wiring).map (·.1) := by
  rw [List.map_map]
  rfl

theorem WellFormed.congr (same : v.nodes.map Node.wiring = w.nodes.map Node.wiring)
    (h : w.WellFormed) : v.WellFormed := by
  have ids : v.ids = w.ids := by rw [ids_eq_map_wiring, ids_eq_map_wiring, same]
  constructor
  · exact ids ▸ h.distinct
  · intro m member
    have wiring : m.wiring ∈ w.nodes.map Node.wiring := same ▸ List.mem_map_of_mem member
    obtain ⟨n, old, matching⟩ := List.mem_map.1 wiring
    exact ids ▸ (h.wired n old).congr matching.symm

/-- In a well-formed workflow an id finds the node that has it. -/
theorem WellFormed.node?_of_mem (h : w.WellFormed) {n : Node} (member : n ∈ w.nodes) :
    w.node? n.id = some n := by
  obtain ⟨m, found⟩ := Option.isSome_iff_exists.1
    ((hasNode_iff n.id).2 (List.mem_map_of_mem (f := (·.id)) member))
  have same := node?_eq_some found
  rw [found, List.inj_on_of_nodup_map h.distinct same.1 member same.2]

theorem wellFormed_blank (id start name : String) (scope : Scope) :
    (blank id start name scope).WellFormed := by
  constructor
  · exact List.nodup_singleton _
  · intro n member
    cases List.mem_singleton.1 member
    exact Node.wired_of_edgeless rfl rfl

/-- Changing a node but not its edges. -/
theorem WellFormed.modifyNode (h : w.WellFormed) (id : String) {f : Node → Node}
    (kept : ∀ n, (f n).wiring = n.wiring) : (w.modifyNode id f).WellFormed :=
  h.congr (map_modifyFirst kept w.nodes)

/-- Changing the edges of one node. -/
theorem WellFormed.rewire (h : w.WellFormed) {id : String} {n : Node} {f : Node → Node}
    (found : w.node? id = some n) (kept : ∀ n, (f n).id = n.id) (sound : (f n).Wired w.ids) :
    (w.modifyNode id f).WellFormed := by
  have ids : (w.modifyNode id f).ids = w.ids := map_modifyFirst kept w.nodes
  constructor
  · exact ids ▸ h.distinct
  · intro m member
    rw [ids]
    rcases mem_modifyFirst member with old | ⟨n', found', rfl⟩
    · exact h.wired m old
    · cases found.symm.trans found'
      exact sound

theorem ids_addNode (w : Workflow) (n : Node) : (w.addNode n).ids = w.ids ++ [n.id] :=
  List.map_append

theorem WellFormed.addNode (h : w.WellFormed) {n : Node} (fresh : n.id ∉ w.ids)
    (connections : n.connections = []) (ports : n.ports = .empty) :
    (w.addNode n).WellFormed := by
  constructor
  · rw [ids_addNode]
    exact h.distinct.append (List.nodup_singleton _) (by simpa using fresh)
  · intro m member
    rw [ids_addNode]
    rcases List.mem_append.1 member with old | added
    · exact (h.wired m old).mono (List.subset_append_left _ _)
    · cases List.mem_singleton.1 added
      exact Node.wired_of_edgeless connections ports

theorem ids_removeNode (w : Workflow) (id : String) :
    (w.removeNode id).ids = w.ids.filter (· ≠ id) := by
  simp [ids, removeNode, List.filter_map, Function.comp_def, Node.detach]

theorem WellFormed.removeNode (h : w.WellFormed) (id : String) : (w.removeNode id).WellFormed := by
  constructor
  · rw [ids_removeNode]
    exact h.distinct.filter _
  · intro m member
    rw [ids_removeNode]
    obtain ⟨n, kept, rfl⟩ := List.mem_map.1 member
    exact (h.wired n (List.mem_filter.1 kept).1).detach id

theorem WellFormed.connect? (h : w.WellFormed) {source target : String} {port : Port}
    (done : w.connect? source target port = some v) : v.WellFormed := by
  obtain ⟨other, known, n, found, new, rfl⟩ := connect?_eq_some.1 done
  obtain ⟨member, own⟩ := node?_eq_some found
  refine h.rewire found (fun _ => rfl) ?_
  exact (h.wired n member).attach ((hasNode_iff target).1 known) (own ▸ other) new port

theorem WellFormed.disconnect? (h : w.WellFormed) {source target : String}
    (done : w.disconnect? source target = some v) : v.WellFormed := by
  obtain ⟨n, found, -, rfl⟩ := disconnect?_eq_some.1 done
  have detached := (h.wired n (node?_eq_some found).1).detach target
  exact h.rewire found (fun _ => rfl) (detached.mono (List.filter_subset_self _))

theorem ids_spliced (w : Workflow) {source target id : String} {move : Node → Node}
    (stays : ∀ n, (move n).id = n.id) (node : Node) :
    (w.spliced source target id move node).ids = w.ids ++ [node.id] := by
  have kept : ∀ n, (if (move n).id = source then (move n).redirect target id else move n).id
      = n.id := by
    intro n
    split <;> exact stays n
  simp only [ids, spliced, List.map_append, List.map_map, Function.comp_def, kept, List.map_cons,
    List.map_nil]

theorem WellFormed.spliced (h : w.WellFormed) {source target id : String} {s : Node}
    (found : w.node? source = some s) (led : target ∈ s.connections) (fresh : id ∉ w.ids)
    {move : Node → Node} (moved : ∀ n, (move n).wiring = n.wiring)
    {node : Node} (wired : node.Wired (w.ids ++ [id])) (named : node.id = id) :
    (w.spliced source target id move node).WellFormed := by
  have stays : ∀ n, (move n).id = n.id := fun n => congrArg Prod.fst (moved n)
  constructor
  · rw [ids_spliced w stays, named]
    exact h.distinct.append (List.nodup_singleton _) (by simpa using fresh)
  · intro m member
    rw [ids_spliced w stays, named]
    rcases List.mem_append.1 member with old | added
    · obtain ⟨n, present, rfl⟩ := List.mem_map.1 old
      have sound := (h.wired n present).congr (moved n)
      split
      · rename_i own
        have same : n = s := by
          have := h.node?_of_mem present
          rw [← stays n, own, found] at this
          exact (Option.some.inj this).symm
        have listed : n.id ∈ w.ids := List.mem_map_of_mem (f := (·.id)) present
        have leads : target ∈ (move n).connections := by
          have connections : (move n).connections = n.connections := congrArg (·.2.1) (moved n)
          rw [connections, same]
          exact led
        exact sound.redirect leads fresh (stays n ▸ listed)
      · exact sound.mono (List.subset_append_left _ _)
    · cases List.mem_singleton.1 added
      exact wired

theorem WellFormed.insertBetween? (h : w.WellFormed) {layout : Layout} {id source target : String}
    {kind : NodeKind} {x y : Double} (fresh : id ∉ w.ids)
    (done : w.insertBetween? layout id source target kind x y = some v) : v.WellFormed := by
  obtain ⟨s, t, shifted, x', y', found, foundTarget, led, rfl⟩ := of_insertBetween? done
  have known : target ∈ w.ids := (hasNode_iff target).1 (by rw [hasNode, foundTarget]; rfl)
  have moved : ∀ n, (shift shifted layout.insertGap n).wiring = n.wiring := by
    intro n
    rw [shift_eq]
    rfl
  exact h.spliced found led fresh moved (Node.wired_between known fresh kind x' y') rfl

end Workflow

end Stepflow
