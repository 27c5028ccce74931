import Mathlib.Data.Option.Basic
import Stepflow.Workflow.Splice

/-!
# Accepted changes

What a change of a workflow needs to be accepted, and what it does then. One lemma for each change
that may be refused.

* `Workflow.Leads`, `Workflow.Ported`, `Workflow.Unused`: what changes ask of edges and ids;
* `…_eq_some`: the result of each change, and when there is one;
* `node?_…`: what a change makes of a node, looked up by its id.
-/

namespace Stepflow

/-- The target stands no further left of its source than the margin. -/
def Layout.cramped (layout : Layout) (s t : Node) : Bool :=
  (s.x.sub layout.crampedMargin).le t.x

namespace Workflow

variable {v w : Workflow} {id node source target : String}

/-- There is an edge from `source` to `target`. -/
def Leads (w : Workflow) (source target : String) : Prop :=
  ∃ n, w.node? source = some n ∧ target ∈ n.connections

/-- The node `source` has a port for `target`, with an edge or without. -/
def Ported (w : Workflow) (source target : String) : Prop :=
  ∃ n, w.node? source = some n ∧ n.ports.contains target = true

/-- No node is called `id`, and no edge leads to it. -/
def Unused (w : Workflow) (id : String) : Prop := ∀ n ∈ w.nodes, n.id ≠ id ∧ id ∉ n.connections

instance (w : Workflow) (id : String) : Decidable (w.Unused id) :=
  inferInstanceAs (Decidable (∀ n ∈ w.nodes, n.id ≠ id ∧ id ∉ n.connections))

theorem node?_eq_some {n : Node} (found : w.node? id = some n) : n ∈ w.nodes ∧ n.id = id :=
  ⟨List.mem_of_find?_eq_some found, by simpa using List.find?_some found⟩

theorem modifyNode?_eq_some {f : Node → Node} :
    w.modifyNode? id f = some v ↔ w.hasNode id = true ∧ w.modifyNode id f = v := by
  unfold modifyNode?
  split <;> simp_all

theorem removeNode?_eq_some :
    w.removeNode? id = some v ↔ w.hasNode id = true ∧ w.removeNode id = v := by
  unfold removeNode?
  split <;> simp_all

/-- The copy of a node: without its edges, a little off its place. -/
def copy (n : Node) (id : String) (offset : Double) : Node :=
  { n with
    id := id
    label := n.label ++ " (Copy)"
    x := n.x.add offset
    y := n.y.add offset
    connections := []
    ports := .empty }

theorem duplicateNode?_eq_some {offset : Double} :
    w.duplicateNode? node id offset = some v ↔
      ∃ n, w.node? node = some n ∧ w.addNode (copy n id offset) = v := by
  simp [duplicateNode?, Option.bind_eq_some_iff, copy]

theorem connect?_eq_some {port : Port} :
    w.connect? source target port = some v ↔ source ≠ target ∧ w.hasNode target = true ∧
      ∃ n, w.node? source = some n ∧ target ∉ n.connections ∧
        w.modifyNode source (·.attach target port) = v := by
  simp [connect?, Option.bind_eq_some_iff, Node.connectsTo, and_assoc]

theorem disconnect?_eq_some :
    w.disconnect? source target = some v ↔ ∃ n, w.node? source = some n ∧
      (target ∈ n.connections ∨ n.ports.contains target = true) ∧
        w.modifyNode source (·.detach target) = v := by
  simp [disconnect?, Option.bind_eq_some_iff, Node.connectsTo]

theorem updateParameter?_eq_some {list : ParameterList} {change : ParameterChange} :
    w.updateParameter? list id change = some v ↔ w.hasParameter list id = true ∧
      w.modifyParameters list (modifyFirst (·.id = id) change.apply) = v := by
  unfold updateParameter?
  split <;> simp_all

theorem removeParameter?_eq_some {list : ParameterList} :
    w.removeParameter? list id = some v ↔ w.hasParameter list id = true ∧
      w.modifyParameters list (·.filter (·.id ≠ id)) = v := by
  unfold removeParameter?
  split <;> simp_all

/-- Move nodes, and let the source lead to a new node in place of its target. -/
def spliced (w : Workflow) (source target id : String) (move : Node → Node) (node : Node) :
    Workflow :=
  { w with
    nodes := w.nodes.map (fun n =>
      if (move n).id = source then (move n).redirect target id else move n) ++ [node] }

/-- What makes way is moved, and nothing else is done to it. -/
def shift (shifted : List String) (gap : Double) (n : Node) : Node :=
  if n.id ∈ shifted then n.moveRight gap else n

theorem shift_eq (shifted : List String) (gap : Double) (n : Node) :
    shift shifted gap n = { n with x := if n.id ∈ shifted then n.x.add gap else n.x } := by
  unfold shift
  split <;> rfl

theorem id_shift (shifted : List String) (gap : Double) (n : Node) :
    (shift shifted gap n).id = n.id := by
  rw [shift_eq]

theorem connections_shift (shifted : List String) (gap : Double) (n : Node) :
    (shift shifted gap n).connections = n.connections := by
  rw [shift_eq]

/-- The ids of the nodes that move. -/
def shiftedBy (w : Workflow) (layout : Layout) (s t : Node) : List String :=
  if layout.cramped s t then downstream w.nodes t.id s.id layout.searchCap.toNat else []

/-- The node that an insertion adds. -/
def inserted (layout : Layout) (id : String) (s t : Node) (kind : NodeKind) (x y : Double) : Node :=
  if layout.cramped s t then .between id t.id kind (s.x.add layout.insertGap) s.y
  else .between id t.id kind x y

theorem insertBetween?_eq_some {layout : Layout} {kind : NodeKind} {x y : Double} :
    w.insertBetween? layout id source target kind x y = some v ↔
      ∃ s t, w.node? source = some s ∧ w.node? target = some t ∧ target ∈ s.connections ∧
        w.spliced source target id (shift (w.shiftedBy layout s t) layout.insertGap)
          (inserted layout id s t kind x y) = v := by
  simp only [insertBetween?, Option.bind_eq_bind, Option.bind_eq_some_iff, Option.pure_def,
    Option.some.injEq, Option.guard_eq_some', Node.connectsTo, decide_eq_true_eq]
  constructor
  · rintro ⟨s, foundSource, t, foundTarget, -, led, done⟩
    obtain ⟨-, rfl⟩ := node?_eq_some foundSource
    obtain ⟨-, rfl⟩ := node?_eq_some foundTarget
    exact ⟨s, t, foundSource, foundTarget, led, done⟩
  · rintro ⟨s, t, foundSource, foundTarget, led, done⟩
    obtain ⟨-, rfl⟩ := node?_eq_some foundSource
    obtain ⟨-, rfl⟩ := node?_eq_some foundTarget
    exact ⟨s, foundSource, t, foundTarget, (), led, done⟩

/-- What does not depend on where the nodes stand. -/
theorem of_insertBetween? {layout : Layout} {kind : NodeKind} {x y : Double}
    (done : w.insertBetween? layout id source target kind x y = some v) :
    ∃ s t shifted x' y', w.node? source = some s ∧ w.node? target = some t ∧
      target ∈ s.connections ∧
      w.spliced source target id (shift shifted layout.insertGap)
        (.between id target kind x' y') = v := by
  obtain ⟨s, t, foundSource, foundTarget, led, rfl⟩ := insertBetween?_eq_some.1 done
  obtain ⟨-, rfl⟩ := node?_eq_some foundTarget
  unfold inserted
  split
  · exact ⟨s, t, _, _, _, foundSource, foundTarget, led, rfl⟩
  · exact ⟨s, t, _, _, _, foundSource, foundTarget, led, rfl⟩

theorem id_modifyParameters (w : Workflow) (list : ParameterList)
    (f : List Parameter → List Parameter) : (w.modifyParameters list f).id = w.id := by
  cases list <;> rfl

theorem nodes_modifyParameters (w : Workflow) (list : ParameterList)
    (f : List Parameter → List Parameter) : (w.modifyParameters list f).nodes = w.nodes := by
  cases list <;> rfl

/-! Looking up a node after a change -/

theorem node?_modifyNode {f : Node → Node} (kept : ∀ n, (f n).id = n.id) (node id : String) :
    (w.modifyNode node f).node? id = if id = node then (w.node? id).map f else w.node? id := by
  split
  · rename_i own
    subst own
    refine find?_modifyFirst_kept fun n found => ?_
    exact decide_eq_true ((kept n).trans (node?_eq_some found).2)
  · rename_i other
    refine find?_modifyFirst_apart fun n found => ?_
    have named : n.id = node := by simpa using List.find?_some found
    simpa [kept, named] using Ne.symm other

theorem node?_addNode {n : Node} (found : w.node? id = some n) (m : Node) :
    (w.addNode m).node? id = some n := by
  unfold node? at found
  rw [node?, addNode, List.find?_append, found, Option.some_or]

theorem node?_removeNode (w : Workflow) (node id : String) :
    (w.removeNode node).node? id
      = if id = node then none else (w.node? id).map (·.detach node) := by
  have kept : ((fun n : Node => decide (n.id = id)) ∘ fun n : Node => n.detach node)
      = fun n : Node => decide (n.id = id) := rfl
  rw [node?, removeNode, List.find?_map, kept, List.find?_filter]
  split
  · rename_i own
    rw [Option.map_eq_none_iff, List.find?_eq_none]
    simp [own]
  · rename_i other
    rw [node?]
    congr 2
    funext n
    by_cases here : n.id = id <;> simp [here, other]

theorem node?_spliced_found {move : Node → Node} (stays : ∀ n, (move n).id = n.id) {n : Node}
    (found : w.node? node = some n) (new : Node) :
    (w.spliced source target id move new).node? node
      = some (if node = source then (move n).redirect target id else move n) := by
  have kept : ((fun n : Node => decide (n.id = node)) ∘ fun n =>
      if (move n).id = source then (move n).redirect target id else move n)
        = fun n : Node => decide (n.id = node) := by
    funext n
    have id : (if (move n).id = source then (move n).redirect target id else move n).id = n.id := by
      split <;> exact stays n
    simp [id]
  have named := (node?_eq_some found).2
  unfold node? at found
  rw [node?, spliced, List.find?_append, List.find?_map, kept, found, Option.map_some,
    Option.some_or, stays, named]

end Workflow

end Stepflow
