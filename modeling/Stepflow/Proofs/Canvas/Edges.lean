import Stepflow.Proofs.Canvas.Provenance

/-!
# Edges

A branch goes to its first connection when its condition holds, so the order of connections means
something. Few edits change connections at all, and none of them changes the order of those that
stay.

* `SameOrder`: what two lists have in common;
* `Edit.edges`: what an edit makes of the connections and ports of a node;
* `Canvas.node?_perform`: that it does so, to all nodes but one that it removes;
* `Canvas.Primary`, `Canvas.Primary.after`: a first connection stays the first through a session;
* `Canvas.disconnect_connect`: what is left of an edge that comes and goes;
* `Canvas.edges_keep_their_order`: all of it, on every canvas.
-/

namespace Stepflow

/-! Order -/

/-- What the lists have in common is listed in the same order in both. -/
def SameOrder (before after : List String) : Prop :=
  before.filter (· ∈ after) = after.filter (· ∈ before)

theorem SameOrder.refl (l : List String) : SameOrder l l := rfl

section

variable {l : List String} {t id : String}

theorem sameOrder_append (new : t ∉ l) : SameOrder l (l ++ [t]) := by
  have before : l.filter (· ∈ l ++ [t]) = l :=
    List.filter_eq_self.2 fun a member => decide_eq_true (List.mem_append_left _ member)
  have after : (l ++ [t]).filter (· ∈ l) = l := by
    rw [List.filter_append, List.filter_eq_self.2 fun a member => decide_eq_true member]
    simp [new]
  exact before.trans after.symm

theorem sameOrder_filter (l : List String) (p : String → Bool) : SameOrder l (l.filter p) := by
  have before : l.filter (· ∈ l.filter p) = l.filter p :=
    List.filter_congr fun a member => by simp [member]
  have after : (l.filter p).filter (· ∈ l) = l.filter p :=
    List.filter_eq_self.2 fun a member => decide_eq_true (List.mem_filter.1 member).1
  exact before.trans after.symm

/-- Both lists have in common what is not replaced. -/
theorem sameOrder_replace (led : t ∈ l) (unused : id ∉ l) :
    SameOrder l (l.map fun c => if c = t then id else c) := by
  have other : id ≠ t := fun same => unused (same ▸ led)
  have before : l.filter (· ∈ l.map fun c => if c = t then id else c) = l.filter (· ≠ t) := by
    refine List.filter_congr fun a member => decide_eq_decide.2 ?_
    rw [List.mem_map]
    constructor
    · rintro ⟨c, -, rfl⟩
      split
      · exact other
      · assumption
    · exact fun kept => ⟨a, member, if_neg kept⟩
  have after : (l.map fun c => if c = t then id else c).filter (· ∈ l) = l.filter (· ≠ t) := by
    have kept : l.filter ((fun a => decide (a ∈ l)) ∘ fun c => if c = t then id else c)
        = l.filter (· ≠ t) := by
      refine List.filter_congr fun a member => decide_eq_decide.2 ?_
      by_cases own : a = t <;> simp [own, unused, member]
    rw [List.filter_map, kept]
    refine (List.map_congr_left fun a member => ?_).trans (List.map_id _)
    exact if_neg (of_decide_eq_true (List.mem_filter.1 member).2)
  exact before.trans after.symm

end

/-! Edits -/

namespace Edit

/-- What the edit makes of the connections and ports of a node in the workflow `id`. A node that it
creates is called `new`. -/
def edges (new id : String) (n : Node) : Edit → List String × KeyMap Port
  | .connect own source target port =>
    if own = id ∧ source = n.id then (n.connections ++ [target], n.ports.insert target port)
    else (n.connections, n.ports)
  | .disconnect own source target =>
    if own = id ∧ source = n.id then (n.connections.filter (· ≠ target), n.ports.erase target)
    else (n.connections, n.ports)
  | .removeNode own target =>
    if own = id then (n.connections.filter (· ≠ target), n.ports.erase target)
    else (n.connections, n.ports)
  | .insertBetween own source target _ _ _ | .insertSuggested own source target _ _ _ =>
    if own = id ∧ source = n.id then
      (n.connections.map fun c => if c = target then new else c,
        (n.ports.erase target).insert new ((n.ports.get? target).getD .right))
    else (n.connections, n.ports)
  | _ => (n.connections, n.ports)

/-- The edit puts a workflow as a whole in the place of another, or of none. -/
def isReplacement : Edit → Bool
  | .insertWorkflow _ | .undo _ | .redo _ => true
  | _ => false

/-- The workflow `id` neither goes nor has another put in its place. -/
def Stays (id : String) (fresh : Nat → String) : Edit → Prop
  | .createWorkflow _ _ => fresh 0 ≠ id
  | .insertWorkflow w => w.id ≠ id
  | .removeWorkflow own | .undo own | .redo own => own ≠ id
  | _ => True

variable {layout : Layout} {fresh : Nat → String} {e : Edit} {f : Workflow → Option Workflow}
  {v w : Workflow} {id node : String} {n : Node}

theorem edges_apart (new : String) (other : e.addressee? fresh ≠ some id) (n : Node) :
    e.edges new id n = (n.connections, n.ports) := by
  cases e with
  | connect own | disconnect own | removeNode own | insertBetween own | insertSuggested own =>
    have elsewhere : own ≠ id := fun same => other (congrArg some same)
    simp [edges, elsewhere]
  | _ => rfl

/-- Edits without a snapshot change no edge. -/
theorem edges_revised (act : e.act layout fresh = .revise id f) (new : String) (n : Node) :
    e.edges new id n = (n.connections, n.ports) := by
  cases e <;> first | rfl | cases act

open Workflow in
theorem node?_revised (act : e.act layout fresh = .revise id f) (done : f w = some v)
    (found : w.node? node = some n) :
    ∃ m, v.node? node = some m ∧ (m.connections, m.ports) = (n.connections, n.ports) := by
  have modified {g : Node → Node} (kept : ∀ n, (g n).wiring = n.wiring) (own : String) :
      ∃ m, (w.modifyNode own g).node? node = some m ∧
        (m.connections, m.ports) = (n.connections, n.ports) := by
    rw [node?_modifyNode (fun n => congrArg Prod.fst (kept n)), found]
    split
    · exact ⟨g n, rfl, congrArg Prod.snd (kept n)⟩
    · exact ⟨n, rfl, rfl⟩
  cases e with
  | updateWorkflow =>
    cases act
    cases done
    exact ⟨n, found, rfl⟩
  | updateNode | configureNode | moveNode | toggleBreakpoint =>
    cases act
    obtain ⟨-, rfl⟩ := modifyNode?_eq_some.1 done
    refine modified ?_ _
    exact fun _ => rfl
  | _ => cases act

open Workflow in
/-- Edits with a snapshot do what `edges` says, except that one node may go. -/
theorem node?_restructured (act : e.act layout fresh = .restructure id f) (done : f w = some v)
    (found : w.node? node = some n) :
    (∃ m, v.node? node = some m ∧ (m.connections, m.ports) = e.edges (fresh 0) id n) ∨
      e = .removeNode id node ∧ v.node? node = none := by
  have named := (node?_eq_some found).2
  have modified {g : Node → Node} (kept : ∀ n, (g n).id = n.id) (source : String) :
      ∃ m, (w.modifyNode source g).node? node = some m ∧
        (m.connections, m.ports) = if id = id ∧ source = n.id then ((g n).connections, (g n).ports)
          else (n.connections, n.ports) := by
    rw [node?_modifyNode kept, found, ← named]
    by_cases own : n.id = source
    · exact ⟨g n, if_pos own, (if_pos ⟨rfl, own.symm⟩).symm⟩
    · exact ⟨n, if_neg own, (if_neg fun both => own both.2.symm).symm⟩
  have unchanged {list : ParameterList} {g : List Parameter → List Parameter} :
      (w.modifyParameters list g).node? node = some n := by
    rw [node?, nodes_modifyParameters]
    exact found
  cases e with
  | addNode =>
    cases act
    cases done
    exact .inl ⟨n, node?_addNode found _, rfl⟩
  | duplicateNode =>
    cases act
    obtain ⟨m, -, rfl⟩ := duplicateNode?_eq_some.1 done
    exact .inl ⟨n, node?_addNode found _, rfl⟩
  | removeNode own target =>
    cases act
    obtain ⟨-, rfl⟩ := removeNode?_eq_some.1 done
    rw [node?_removeNode, found]
    by_cases gone : node = target
    · exact .inr ⟨by rw [gone], if_pos gone⟩
    · exact .inl ⟨n.detach target, if_neg gone, (if_pos rfl).symm⟩
  | connect own source target port =>
    cases act
    obtain ⟨-, -, m, -, -, rfl⟩ := connect?_eq_some.1 done
    refine .inl (modified ?_ source)
    exact fun _ => rfl
  | disconnect own source target =>
    cases act
    obtain ⟨m, -, -, rfl⟩ := disconnect?_eq_some.1 done
    refine .inl (modified ?_ source)
    exact fun _ => rfl
  | insertBetween own source target | insertSuggested own source target =>
    cases act
    obtain ⟨s, t, shifted, x, y, -, -, -, rfl⟩ := of_insertBetween? done
    have leads := shift_eq shifted layout.insertGap n
    rw [node?_spliced_found (id_shift _ _) found, ← named]
    refine .inl ⟨_, rfl, ?_⟩
    by_cases here : n.id = source
    · rw [if_pos here, edges, if_pos ⟨rfl, here.symm⟩, leads]
      rfl
    · rw [if_neg here, edges, if_neg fun both => here both.2.symm, leads]
  | addParameter =>
    cases act
    cases done
    exact .inl ⟨n, unchanged, rfl⟩
  | updateParameter =>
    cases act
    obtain ⟨-, rfl⟩ := updateParameter?_eq_some.1 done
    exact .inl ⟨n, unchanged, rfl⟩
  | removeParameter =>
    cases act
    obtain ⟨-, rfl⟩ := removeParameter?_eq_some.1 done
    exact .inl ⟨n, unchanged, rfl⟩
  | _ => cases act

/-- An edit of a workflow that stays changes it in place. -/
theorem Stays.changes (stays : e.Stays id fresh) (own : (e.act layout fresh).target? = some id) :
    ∃ f, e.act layout fresh = .revise id f ∨ e.act layout fresh = .restructure id f := by
  cases e with
  | createWorkflow | insertWorkflow | removeWorkflow | undo | redo =>
    exact absurd (Option.some.inj own) stays
  | selectNode | clearSelection => cases own
  | updateWorkflow | updateNode | configureNode | moveNode | toggleBreakpoint =>
    cases own
    exact ⟨_, .inl rfl⟩
  | _ =>
    cases own
    exact ⟨_, .inr rfl⟩

theorem structure?_of_act (act : e.act layout fresh = .restructure id f) :
    e.structure? = some id := by
  cases e <;> cases act <;> rfl

end Edit

namespace Canvas

variable {c : Canvas} {fresh : Nat → String} {e : Edit} {id node : String} {n : Node}

theorem node?_of_sheet? {s : Sheet} (found : c.sheet? id = some s) (node : String) :
    c.node? id node = s.workflow.node? node := by
  rw [Canvas.node?, workflow?, found]
  rfl

/-- Nothing on the canvas goes by the id. -/
def Unused (c : Canvas) (id : String) : Prop := ∀ w ∈ c.workflows, w.id ≠ id ∧ w.Unused id

/-- In a workflow that stays every node becomes what `Edit.edges` says, unless the edit is refused,
and no node goes but the one that is removed. -/
theorem node?_perform (kept : c.Kept) (stays : e.Stays id fresh)
    (found : c.node? id node = some n) :
    (∃ m, (c.perform fresh e).canvas.node? id node = some m ∧
      ((m.connections, m.ports) = e.edges (fresh 0) id n ∨
        m = n ∧ (c.perform fresh e).reply.isRefusal = true)) ∨
    e = .removeNode id node ∧ (c.perform fresh e).canvas.node? id node = none := by
  obtain ⟨w, live, found⟩ := Option.bind_eq_some_iff.1 found
  obtain ⟨s, sheet, rfl⟩ := Option.map_eq_some_iff.1 live
  -- an edit of another workflow does nothing to this one, and `edges` says so too
  by_cases other : (e.act c.layout fresh).target? ≠ some id
  · have same : (c.perform fresh e).canvas.sheet? id = some s := by
      rw [sheet?_perform_other kept fresh e other, sheet]
    have apart : e.edges (fresh 0) id n = (n.connections, n.ports) := by
      by_cases selection : e.isSelection = true
      · cases e <;> first | rfl | cases selection
      · rw [Edit.target?_act, if_neg selection] at other
        exact Edit.edges_apart _ other n
    exact .inl ⟨n, (node?_of_sheet? same node).trans found, .inl apart.symm⟩
  · obtain ⟨f, act | act⟩ := stays.changes (not_not.1 other)
    · have after := node?_of_sheet? (sheet?_perform_revise act sheet) node
      rw [Sheet.workflow_revised] at after
      rw [Edit.edges_revised act]
      cases done : f s.workflow with
      | none =>
        rw [done] at after
        exact .inl ⟨n, after.trans found, .inl rfl⟩
      | some v =>
        obtain ⟨m, there, edges⟩ := Edit.node?_revised act done found
        rw [done] at after
        exact .inl ⟨m, after.trans there, .inl edges⟩
    · have after := node?_of_sheet? (sheet?_perform_restructure act sheet) node
      rw [Sheet.workflow_restructured] at after
      cases done : f s.workflow with
      | none =>
        rw [done] at after
        -- the workflow would have changed if the edit had been accepted
        refine .inl ⟨n, after.trans found, .inr ⟨rfl, ?_⟩⟩
        by_contra accepted
        obtain ⟨g, t, v, act', sheet', done'⟩ :=
          restructure_of_accepted (Edit.structure?_of_act act) (by simpa using accepted)
        cases act.symm.trans act'
        cases sheet.symm.trans sheet'
        cases done.symm.trans done'
      | some v =>
        rw [done] at after
        obtain ⟨m, there, edges⟩ | ⟨removed, gone⟩ := Edit.node?_restructured act done found
        · exact .inl ⟨m, after.trans there, .inl edges⟩
        · exact .inr ⟨removed, after.trans gone⟩

/-- What an accepted edit of the structure makes of the workflow. -/
theorem workflow?_of_accepted (structural : e.structure? = some id)
    (accepted : (c.perform fresh e).reply.isRefusal = false) :
    ∃ f w v, e.act c.layout fresh = .restructure id f ∧ c.workflow? id = some w ∧ f w = some v ∧
      (c.perform fresh e).canvas.workflow? id = some v := by
  obtain ⟨f, s, v, act, sheet, done⟩ := restructure_of_accepted structural accepted
  refine ⟨f, s.workflow, v, act, by rw [workflow?, sheet]; rfl, done, ?_⟩
  rw [workflow?, sheet?_perform_restructure act sheet, Option.map_some,
    Sheet.workflow_restructured, done, Option.getD_some]

theorem drawn_of_accepted {o : Option Canvas} {new : String}
    (accepted : (c.creation new o).reply.isRefusal = false) : (c.creation new o).drawn = 1 := by
  cases o with
  | none => cases accepted
  | some d => rfl

theorem mem_workflows {w : Workflow} (live : c.workflow? id = some w) : w ∈ c.workflows := by
  rw [workflow?_eq_find?] at live
  exact List.mem_of_find?_eq_some live

open Workflow in
/-- An accepted edit leaves the targets that stay in their order. -/
theorem sameOrder_edges (accepted : (c.perform fresh e).reply.isRefusal = false)
    (unused : ∀ i < (c.perform fresh e).drawn, c.Unused (fresh i))
    (found : c.node? id node = some n) :
    SameOrder n.connections (e.edges (fresh 0) id n).1 := by
  obtain ⟨w, live, inside⟩ := Option.bind_eq_some_iff.1 found
  obtain ⟨member, named⟩ := node?_eq_some inside
  cases e with
  | connect own source target port =>
    rw [Edit.edges]
    split
    · rename_i own
      obtain ⟨rfl, rfl⟩ := own
      obtain ⟨f, w', v, act, live', done, -⟩ := workflow?_of_accepted rfl accepted
      cases act
      cases live.symm.trans live'
      obtain ⟨-, -, m, inside', new, -⟩ := connect?_eq_some.1 done
      rw [named, inside] at inside'
      cases inside'
      exact sameOrder_append new
    · exact .refl _
  | disconnect own source target | removeNode own target =>
    rw [Edit.edges]
    split
    · exact sameOrder_filter _ _
    · exact .refl _
  | insertBetween own source target | insertSuggested own source target =>
    have fresh' : c.Unused (fresh 0) :=
      unused 0 (Nat.lt_of_lt_of_eq Nat.zero_lt_one (drawn_of_accepted accepted).symm)
    rw [Edit.edges]
    split
    · rename_i own
      obtain ⟨rfl, rfl⟩ := own
      obtain ⟨f, w', v, act, live', done, -⟩ := workflow?_of_accepted rfl accepted
      cases act
      cases live.symm.trans live'
      obtain ⟨m, t, shifted, x, y, inside', -, led, -⟩ := of_insertBetween? done
      rw [named, inside] at inside'
      cases inside'
      exact sameOrder_replace led ((fresh' w (mem_workflows live)).2 n member).2
    · exact .refl _
  | _ => exact .refl _

/-- After a removal nothing mentions the node that is gone. -/
theorem unmentioned_removed
    (accepted : (c.perform fresh (.removeNode id node)).reply.isRefusal = false) :
    ∃ w, (c.perform fresh (.removeNode id node)).canvas.workflow? id = some w ∧
      ∀ n ∈ w.nodes, n.id ≠ node ∧ node ∉ n.connections ∧ n.ports.get? node = none := by
  obtain ⟨f, w, v, act, live, done, after⟩ := workflow?_of_accepted rfl accepted
  cases act
  refine ⟨v, after, fun n member => ?_⟩
  obtain ⟨-, rfl⟩ := Workflow.removeNode?_eq_some.1 done
  obtain ⟨m, old, rfl⟩ := List.mem_map.1 member
  exact ⟨of_decide_eq_true (List.mem_filter.1 old).2, by simp [Node.detach],
    by simp [Node.detach]⟩

end Canvas

/-! Sessions -/

/-- The edit is not one that takes the edge away: it neither removes nor splices it, removes neither
end of it, and leaves the workflow in its place. -/
def Edit.Leaves (id source target : String) (fresh : Nat → String) (e : Edit) : Prop :=
  e.Stays id fresh ∧ match e with
    | .removeNode own node => own = id → node ≠ source ∧ node ≠ target
    | .disconnect own s t | .insertBetween own s t _ _ _ | .insertSuggested own s t _ _ _ =>
      own = id → s = source → t ≠ target
    | _ => True

theorem Edit.Leaves.head?_edges {id target : String} {fresh : Nat → String} {e : Edit} {n : Node}
    (leaves : e.Leaves id n.id target fresh) (first : n.connections.head? = some target)
    (new : String) : (e.edges new id n).1.head? = some target := by
  obtain ⟨rest, connections⟩ := List.head?_eq_some_iff.1 first
  obtain ⟨-, leaves⟩ := leaves
  cases e with
  | connect own source t port =>
    rw [edges]
    split <;> simp [connections]
  | disconnect own source t =>
    rw [edges]
    split
    · rename_i own
      have other := leaves own.1 own.2
      simp [connections, other.symm]
    · exact first
  | removeNode own t =>
    rw [edges]
    split
    · rename_i own
      have other := (leaves own).2
      simp [connections, other.symm]
    · exact first
  | insertBetween own source t | insertSuggested own source t =>
    rw [edges]
    split
    · rename_i own
      have other := leaves own.1 own.2
      simp [connections, other.symm]
    · exact first
  | _ => exact first

namespace Canvas

variable {c : Canvas} {id source target : String}

/-- The node leads to the target first. -/
def Primary (c : Canvas) (id source target : String) : Prop :=
  ∃ n, c.node? id source = some n ∧ n.connections.head? = some target

theorem Primary.perform (primary : c.Primary id source target) (kept : c.Kept)
    {fresh : Nat → String} {e : Edit} (leaves : e.Leaves id source target fresh) :
    (c.perform fresh e).canvas.Primary id source target := by
  obtain ⟨n, found, first⟩ := primary
  obtain ⟨w, -, inside⟩ := Option.bind_eq_some_iff.1 found
  obtain ⟨-, rfl⟩ := Workflow.node?_eq_some inside
  obtain ⟨m, there, edges | ⟨rfl, -⟩⟩ | ⟨rfl, -⟩ := node?_perform kept leaves.1 found
  · have connections : m.connections = (e.edges (fresh 0) id n).1 := congrArg Prod.fst edges
    exact ⟨m, there, connections ▸ leaves.head?_edges first _⟩
  · exact ⟨m, there, first⟩
  · exact absurd rfl (leaves.2 rfl).1

theorem Primary.after (primary : c.Primary id source target) (kept : c.Kept)
    {strokes : List Stroke} (leave : ∀ s ∈ strokes, s.edit.Leaves id source target s.fresh) :
    (c.after strokes).Primary id source target := by
  induction strokes generalizing c with
  | nil => exact primary
  | cons s rest ih =>
    have stays := primary.perform kept (leave s (.head _))
    exact ih stays (kept_perform kept s.fresh s.edit) fun s member => leave s (.tail _ member)

end Canvas

/-! An edge that comes and goes -/

theorem Node.detach_attach {n : Node} {target : String} (new : target ∉ n.connections)
    (portless : n.ports.get? target = none) (port : Port) :
    (n.attach target port).detach target = n := by
  have connections : (n.connections ++ [target]).filter (· ≠ target) = n.connections := by
    rw [List.filter_append, List.filter_eq_self.2 fun t member => decide_eq_true ?_]
    · simp
    · exact fun same => new (same ▸ member)
  unfold attach detach
  rw [connections, KeyMap.erase_insert portless]

/-- Without its edge a port that was there goes, and nothing else. -/
theorem Workflow.detach_attach_iff {w : Workflow} {source target : String} {n : Node}
    (found : w.node? source = some n) (new : target ∉ n.connections) (port : Port) :
    (w.modifyNode source (·.attach target port)).modifyNode source (·.detach target) = w ↔
      n.ports.get? target = none := by
  have twice : (w.modifyNode source (·.attach target port)).modifyNode source (·.detach target)
      = w.modifyNode source fun n => (n.attach target port).detach target := by
    simp only [modifyNode]
    rw [modifyFirst_modifyFirst fun m first => ?_]
    exact decide_eq_true (node?_eq_some first).2
  rw [twice]
  constructor
  · intro same
    have after := w.node?_modifyNode (f := fun n => (n.attach target port).detach target)
      (fun _ => rfl) source source
    rw [same, if_pos rfl, found] at after
    have own := Option.some.inj after
    rw [own]
    simp [Node.detach]
  · intro portless
    have unchanged : modifyFirst (·.id = source)
        (fun n => (n.attach target port).detach target) w.nodes = w.nodes := by
      rw [modifyFirst_congr (g := fun n => n) fun m first => ?_, modifyFirst_self]
      cases found.symm.trans first
      exact Node.detach_attach new portless port
    rw [modifyNode, unchanged]

namespace Canvas

variable {c : Canvas}

/-- An edge that is added can be removed, and that takes back what adding it did if the source had
no port for the target before. -/
theorem disconnect_connect {id source target : String} {port : Port} {fresh : Nat → String}
    {n : Node} (found : c.node? id source = some n)
    (accepted : (c.perform fresh (.connect id source target port)).reply.isRefusal = false)
    (fresh' : Nat → String) :
    let connected := (c.perform fresh (.connect id source target port)).canvas
    let back := connected.perform fresh' (.disconnect id source target)
    back.reply.isRefusal = false ∧
      (back.canvas.workflow? id = c.workflow? id ↔ n.ports.get? target = none) := by
  intro connected back
  obtain ⟨f, w, v, act, live, done, after⟩ := workflow?_of_accepted rfl accepted
  cases act
  obtain ⟨w', live', inside⟩ := Option.bind_eq_some_iff.1 found
  cases live.symm.trans live'
  obtain ⟨-, -, m, inside', new, rfl⟩ := Workflow.connect?_eq_some.1 done
  cases inside.symm.trans inside'
  have there : (w.modifyNode source (·.attach target port)).node? source
      = some (n.attach target port) := by
    rw [Workflow.node?_modifyNode (f := (·.attach target port)) (fun _ => rfl), if_pos rfl, inside]
    rfl
  have removes : (w.modifyNode source (·.attach target port)).disconnect? source target
      = some ((w.modifyNode source (·.attach target port)).modifyNode source (·.detach target)) :=
    Workflow.disconnect?_eq_some.2 ⟨_, there, .inl (by simp [Node.attach]), rfl⟩
  have accepted' : back.reply.isRefusal = false := by
    have changes : (connected.disconnect? id source target).isSome = true :=
      isSome_restructure?.2 ⟨_, after, Option.isSome_of_eq_some removes⟩
    have reply : back.reply = .accepted true := by
      rw [← changes]
      exact reply_answer _ _
    rw [reply]
    rfl
  obtain ⟨f, v, u, act, live', done, after'⟩ := workflow?_of_accepted rfl accepted'
  cases act
  cases after.symm.trans live'
  cases removes.symm.trans done
  refine ⟨accepted', ?_⟩
  rw [after', live, Option.some.injEq]
  exact Workflow.detach_attach_iff inside new port

theorem stays_of_found (kept : c.Kept) {fresh : Nat → String} {e : Edit} {id node : String}
    {n m : Node} (other : e.isReplacement = false)
    (unused : ∀ i < (c.perform fresh e).drawn, c.Unused (fresh i))
    (before : c.node? id node = some n)
    (after : (c.perform fresh e).canvas.node? id node = some m) : e.Stays id fresh := by
  obtain ⟨w, live, -⟩ := Option.bind_eq_some_iff.1 before
  cases e with
  | createWorkflow name scope =>
    have distinct := (unused 0 Nat.zero_lt_two w (mem_workflows live)).1
    exact fun same => distinct ((id_of_workflow? live).trans same.symm)
  | insertWorkflow | undo | redo => cases other
  | removeWorkflow own =>
    rintro rfl
    rw [node?, workflow?, sheet?_remove kept] at after
    cases after
  | _ => trivial

/-- **Edges change only through the edits that are about edges, and keep their order.** Whatever
workflows were put on the canvas: an accepted edit other than one that replaces a workflow makes of
the connections and ports of a node what `Edit.edges` says, and those that stay are in the order
that they were in. Once a node is removed nothing mentions it. The first connection of a node stays
the first until an edit takes it away. An edge that is added and removed at once leaves the workflow
as it was exactly if the source had no port for the target. -/
theorem edges_keep_their_order (settings : Settings) (strokes : List Stroke) :
    let c := session settings strokes
    (∀ fresh e, e.isReplacement = false → (c.perform fresh e).reply.isRefusal = false →
      (∀ i < (c.perform fresh e).drawn, c.Unused (fresh i)) →
      ∀ id node n m, c.node? id node = some n →
        (c.perform fresh e).canvas.node? id node = some m →
        (m.connections, m.ports) = e.edges (fresh 0) id n ∧
          SameOrder n.connections m.connections) ∧
    (∀ fresh id node, (c.perform fresh (.removeNode id node)).reply.isRefusal = false →
      ∃ w, (c.perform fresh (.removeNode id node)).canvas.workflow? id = some w ∧
        ∀ n ∈ w.nodes, n.id ≠ node ∧ node ∉ n.connections ∧ n.ports.get? node = none) ∧
    (∀ id source target, c.Primary id source target → ∀ later : List Stroke,
      (∀ s ∈ later, s.edit.Leaves id source target s.fresh) →
      (c.after later).Primary id source target) ∧
    ∀ fresh id source target port n, c.node? id source = some n →
      (c.perform fresh (.connect id source target port)).reply.isRefusal = false →
      ∀ fresh', let connected := (c.perform fresh (.connect id source target port)).canvas
        let back := connected.perform fresh' (.disconnect id source target)
        back.reply.isRefusal = false ∧
          (back.canvas.workflow? id = c.workflow? id ↔ n.ports.get? target = none) := by
  intro c
  have kept : c.Kept := kept_session settings strokes
  refine ⟨?_, ?_, ?_, ?_⟩
  · intro fresh e other accepted unused id node n m before after
    have stays := stays_of_found kept other unused before after
    have edges : (m.connections, m.ports) = e.edges (fresh 0) id n := by
      obtain ⟨m', there, edges | ⟨-, refused⟩⟩ | ⟨-, gone⟩ := node?_perform kept stays before
      · cases after.symm.trans there
        exact edges
      · exact absurd (accepted.symm.trans refused) nofun
      · cases after.symm.trans gone
    have connections : m.connections = (e.edges (fresh 0) id n).1 := congrArg Prod.fst edges
    exact ⟨edges, connections ▸ sameOrder_edges accepted unused before⟩
  · exact fun fresh id node => unmentioned_removed
  · exact fun id source target primary later => primary.after kept
  · exact fun fresh id source target port n found accepted =>
      disconnect_connect found accepted

/-- A branch with a repeated edge, and with a port that no edge leaves from. -/
def tangle : Workflow where
  id := "w"
  name := "Tangle"
  scope := .server
  inputs := []
  outputs := []
  locals := []
  nodes := [
    { Node.ofKind "a" .branch (.ofInt 0) (.ofInt 0) with
      connections := ["b", "c", "b"], ports := .ofList [("b", .right), ("d", .top)] },
    .ofKind "b" .action (.ofInt 0) (.ofInt 0),
    .ofKind "c" .action (.ofInt 0) (.ofInt 0),
    .ofKind "d" .action (.ofInt 0) (.ofInt 0)]

theorem tangle_keeps_its_order :
    let c := session {} [⟨fun _ => "", .insertWorkflow tangle⟩]
    let removed := (c.perform (fun _ => "") (.removeNode "w" "b")).canvas
    (∃ m, removed.node? "w" "a" = some m ∧
      (m.connections, m.ports) = (["c"], .ofList [("d", .top)])) ∧
    (∃ w, removed.workflow? "w" = some w ∧
      ∀ n ∈ w.nodes, n.id ≠ "b" ∧ "b" ∉ n.connections ∧ n.ports.get? "b" = none) ∧
    (c.after [⟨fun _ => "m", .insertBetween "w" "a" "c" .assign (.ofInt 0) (.ofInt 0)⟩,
      ⟨fun _ => "", .removeNode "w" "d"⟩]).Primary "w" "a" "b" ∧
    let connected := (c.perform (fun _ => "") (.connect "w" "a" "d" .left)).canvas
    (connected.perform (fun _ => "") (.disconnect "w" "a" "d")).canvas.workflow? "w"
      ≠ c.workflow? "w" := by
  intro c removed
  obtain ⟨edges, unmentioned, primary, again⟩ :=
    edges_keep_their_order {} [⟨fun _ => "", .insertWorkflow tangle⟩]
  refine ⟨?_, ?_, ?_, ?_⟩
  · obtain ⟨effect, -⟩ := edges (fun _ => "") (.removeNode "w" "b") rfl rfl
      (fun i none => absurd none (Nat.not_lt_zero i)) "w" "a" _ _ rfl rfl
    exact ⟨_, rfl, effect⟩
  · exact unmentioned (fun _ => "") "w" "b" rfl
  · refine primary "w" "a" "b" ⟨_, rfl, rfl⟩ _ ?_
    simp [Edit.Leaves, Edit.Stays]
  · intro connected back
    obtain ⟨-, restored⟩ := again (fun _ => "") "w" "a" "d" .left _ rfl rfl (fun _ => "")
    exact absurd (restored.1 back) (by decide)

end Canvas

end Stepflow
