import Mathlib.Algebra.GroupWithZero.Nat
import Stepflow.Proofs.Workflow.WellFormed
import Stepflow.Workflow.Issue

/-!
# The issues of a workflow

Issues are found by going through nodes, connections and names with what was met before. What is
reported can be said without that: how often, and so whether at all. The workflow may be put
together by hand, with repeated ids, edges and names.

* `Workflow.tally`: how often an issue ought to be reported;
* `Workflow.count_issues`: it is reported as often;
* `Workflow.Flawless`, `Workflow.issues_tell`: nothing is reported exactly when nothing is wrong;
* `Workflow.WellFormed.of_mem_issues`: what may still be wrong with a well-formed workflow.
-/

namespace Stepflow

theorem KeyMap.nodup_keys {α : Type} (m : KeyMap α) : m.keys.Nodup :=
  List.pairwise_map.2 (m.ascending.imp fun lt => String.ne_of_lt lt)

namespace Workflow

variable {w : Workflow} {n : Node} {i : Issue}

/-- How often an issue is to be reported of the number of start nodes. -/
def startTally (w : Workflow) : Issue → Nat
  | .noStart => if w.nodes.countP (·.kind = .start) = 0 then 1 else 0
  | .severalStarts count =>
    if count = w.nodes.countP (·.kind = .start) ∧ 2 ≤ count then 1 else 0
  | _ => 0

/-- How often an issue is to be reported of a node: once for each of its connections that is amiss,
and for each of its ports without a connection. -/
def nodeTally (w : Workflow) (n : Node) : Issue → Nat
  | .unknownTarget node t => if node = n.id ∧ t ∉ w.ids then n.connections.count t else 0
  | .selfConnection node => if node = n.id then n.connections.count n.id else 0
  | .repeatedConnection node t => if node = n.id then n.connections.count t - 1 else 0
  | .missingPort node t =>
    if node = n.id ∧ n.ports.contains t = false then n.connections.count t else 0
  | .orphanedPort node t =>
    if node = n.id ∧ n.ports.contains t = true ∧ t ∉ n.connections then 1 else 0
  | _ => 0

/-- How often an issue is to be reported of the names of parameters. -/
def nameTally (w : Workflow) : Issue → Nat
  | .repeatedName list name => ((w.parameters list).map (·.name)).count name - 1
  | _ => 0

/-- How often an issue is to be reported. Of nodes that share an id, each is to blame for its own
edges. -/
def tally (w : Workflow) (i : Issue) : Nat :=
  w.startTally i + (w.nodes.map (w.nodeTally · i)).sum + w.nameTally i

theorem count_startIssues (w : Workflow) (i : Issue) :
    w.startIssues.count i = w.startTally i := by
  unfold startIssues startTally
  generalize w.nodes.countP (·.kind = .start) = starts
  match starts with
  | 0 | 1 | starts + 2 => cases i <;> grind

theorem count_if (p : Prop) [Decidable p] (a i : Issue) :
    (if p then [a] else []).count i = if p ∧ a = i then 1 else 0 := by
  split <;> simp_all [List.count_singleton]

theorem count_unless (p : Prop) [Decidable p] (a i : Issue) :
    (if p then [] else [a]).count i = if ¬p ∧ a = i then 1 else 0 := by
  rw [← count_if, ite_not]

/-! Connections, of which some have been met -/

/-- How often an issue is to be reported of the connections `targets`, with those in `before` listed
ahead of them. -/
def connectionTally (w : Workflow) (n : Node) (before targets : List String) : Issue → Nat
  | .unknownTarget node t => if node = n.id ∧ t ∉ w.ids then targets.count t else 0
  | .selfConnection node => if node = n.id then targets.count n.id else 0
  | .repeatedConnection node t =>
    if node = n.id then targets.count t - (if t ∈ before then 0 else 1) else 0
  | .missingPort node t =>
    if node = n.id ∧ n.ports.contains t = false then targets.count t else 0
  | _ => 0

theorem count_connectionIssues (w : Workflow) (n : Node) (before : List String) (target : String)
    (i : Issue) :
    (w.connectionIssues n before target).count i = w.connectionTally n before [target] i := by
  have known := hasNode_iff (w := w) target
  simp only [connectionIssues, List.count_append, count_if, count_unless, known]
  cases i <;> simp only [connectionTally] <;> grind

theorem connectionTally_cons (before rest : List String) (target : String) (i : Issue) :
    w.connectionTally n before (target :: rest) i
      = w.connectionTally n before [target] i + w.connectionTally n (target :: before) rest i := by
  cases i <;> simp only [connectionTally, List.count_cons, List.count_nil] <;> grind

theorem count_connectionsIssues (w : Workflow) (n : Node) (before targets : List String)
    (i : Issue) :
    (w.connectionsIssues n before targets).count i = w.connectionTally n before targets i := by
  induction targets generalizing before with
  | nil => cases i <;> simp [connectionsIssues, connectionTally]
  | cons target rest ih =>
    rw [connectionsIssues, List.count_append, count_connectionIssues, ih, ← connectionTally_cons]

theorem count_orphans (n : Node) (node t : String) :
    ((n.ports.keys.filter (· ∉ n.connections)).map (Issue.orphanedPort n.id)).count
        (.orphanedPort node t)
      = if node = n.id ∧ n.ports.contains t = true ∧ t ∉ n.connections then 1 else 0 := by
  have once : (n.ports.keys.filter (· ∉ n.connections)).Nodup := n.ports.nodup_keys.filter _
  have distinct := once.map (f := Issue.orphanedPort n.id) fun a b same => by cases same; rfl
  rw [distinct.count]
  refine if_congr ?_ rfl rfl
  simp only [List.mem_map, List.mem_filter, n.ports.mem_keys, decide_eq_true_eq,
    Issue.orphanedPort.injEq]
  constructor
  · rintro ⟨key, orphan, rfl, rfl⟩
    exact ⟨rfl, orphan⟩
  · rintro ⟨rfl, orphan⟩
    exact ⟨t, orphan, rfl, rfl⟩

theorem count_nodeIssues (w : Workflow) (n : Node) (i : Issue) :
    (w.nodeIssues n).count i = w.nodeTally n i := by
  rw [nodeIssues, List.count_append, count_connectionsIssues]
  have others : (∀ node t, i ≠ .orphanedPort node t) →
      ((n.ports.keys.filter (· ∉ n.connections)).map (Issue.orphanedPort n.id)).count i = 0 := by
    intro other
    rw [List.count_eq_zero]
    intro member
    obtain ⟨t, -, same⟩ := List.mem_map.1 member
    exact other n.id t same.symm
  cases i with
  | orphanedPort node t =>
    rw [count_orphans]
    simp [connectionTally, nodeTally]
  | noStart | severalStarts | unknownTarget | selfConnection | repeatedConnection | missingPort
  | repeatedName =>
    rw [others (by simp)]
    simp [connectionTally, nodeTally]

/-! Names, of which some have been met -/

theorem count_nameIssues (list : ParameterList) (before : List String) (ps : List Parameter)
    (i : Issue) :
    (nameIssues list before ps).count i =
      match i with
      | .repeatedName list' name =>
        if list' = list then (ps.map (·.name)).count name - (if name ∈ before then 0 else 1) else 0
      | _ => 0 := by
  induction ps generalizing before with
  | nil => cases i <;> simp [nameIssues]
  | cons p rest ih =>
    rw [nameIssues, List.count_append, count_if, ih]
    cases i <;> grind

theorem count_issues (w : Workflow) (i : Issue) : w.issues.count i = w.tally i := by
  have names : ((Lexicon.members : List ParameterList).flatMap fun list =>
      nameIssues list [] (w.parameters list)).count i = w.nameTally i := by
    rw [show (Lexicon.members : List ParameterList) = [.inputs, .outputs, .locals] from rfl]
    simp only [List.flatMap_cons, List.flatMap_nil, List.append_nil, List.count_append,
      count_nameIssues]
    cases i with
    | repeatedName list name => cases list <;> simp [nameTally]
    | _ => rfl
  rw [issues, List.count_append, List.count_append, count_startIssues, List.count_flatMap, names]
  simp only [Function.comp_def, count_nodeIssues, tally]

/-! Nothing to report -/

/-- Nothing is wrong with the structure of a workflow. Ids may still be repeated. -/
structure Flawless (w : Workflow) : Prop where
  start : w.nodes.countP (·.kind = .start) = 1
  wired : ∀ n ∈ w.nodes, n.Wired w.ids
  named : ∀ list, ((w.parameters list).map (·.name)).Nodup

theorem startTally_eq_zero_iff :
    (∀ i, w.startTally i = 0) ↔ w.nodes.countP (·.kind = .start) = 1 := by
  constructor
  · intro silent
    have some := silent .noStart
    have single := silent (.severalStarts (w.nodes.countP (·.kind = .start)))
    simp only [startTally, ite_eq_right_iff, Nat.one_ne_zero, imp_false, true_and]
      at some single
    omega
  · intro one i
    cases i <;> simp only [startTally, one] <;> grind

theorem nodeTally_eq_zero_iff : (∀ i, w.nodeTally n i = 0) ↔ n.Wired w.ids := by
  constructor
  · intro silent
    have led {t : String} (member : t ∈ n.connections) : 0 < n.connections.count t :=
      List.count_pos_iff.2 member
    refine ⟨List.nodup_iff_count_le_one.2 fun t => ?_, fun member => ?_, fun t member => ?_,
      fun t => ⟨fun ported => ?_, fun member => ?_⟩⟩
    · have repeated := silent (.repeatedConnection n.id t)
      simp only [nodeTally, if_pos] at repeated
      omega
    · have own := silent (.selfConnection n.id)
      simp only [nodeTally, if_pos] at own
      exact absurd (led member) (by omega)
    · by_contra unknown
      have lost := silent (.unknownTarget n.id t)
      rw [nodeTally, if_pos ⟨rfl, unknown⟩] at lost
      exact absurd (led member) (by omega)
    · by_contra unled
      have orphaned := silent (.orphanedPort n.id t)
      rw [nodeTally, if_pos ⟨rfl, ported, unled⟩] at orphaned
      cases orphaned
    · by_contra unported
      have missing := silent (.missingPort n.id t)
      rw [nodeTally, if_pos ⟨rfl, by simpa using unported⟩] at missing
      exact absurd (led member) (by omega)
  · intro wired i
    have once (t : String) := List.nodup_iff_count_le_one.1 wired.unrepeated t
    have absent {t : String} (unled : t ∉ n.connections) : n.connections.count t = 0 :=
      List.count_eq_zero.2 unled
    cases i with
    | noStart | severalStarts | repeatedName => rfl
    | unknownTarget node t =>
      rw [nodeTally, ite_eq_right_iff]
      exact fun ⟨_, unknown⟩ => absent fun member => unknown (wired.closed t member)
    | selfConnection node =>
      rw [nodeTally, absent wired.irreflexive, ite_self]
    | repeatedConnection node t =>
      rw [nodeTally, Nat.sub_eq_zero_of_le (once t), ite_self]
    | missingPort node t =>
      rw [nodeTally, ite_eq_right_iff]
      refine fun ⟨_, unported⟩ => absent fun member => ?_
      rw [(wired.ported t).2 member] at unported
      cases unported
    | orphanedPort node t =>
      rw [nodeTally, if_neg]
      exact fun ⟨_, ported, unled⟩ => unled ((wired.ported t).1 ported)

theorem nameTally_eq_zero_iff :
    (∀ i, w.nameTally i = 0) ↔ ∀ list, ((w.parameters list).map (·.name)).Nodup := by
  simp only [List.nodup_iff_count_le_one]
  constructor
  · intro silent list name
    have repeated := silent (.repeatedName list name)
    rw [nameTally] at repeated
    omega
  · intro once i
    cases i with
    | repeatedName list name => exact Nat.sub_eq_zero_of_le (once list name)
    | noStart | severalStarts | unknownTarget | selfConnection | repeatedConnection | missingPort
    | orphanedPort => rfl

theorem issues_eq_nil_iff : w.issues = [] ↔ w.Flawless := by
  have silent : w.issues = [] ↔ ∀ i, w.tally i = 0 := by
    simp only [List.eq_nil_iff_forall_not_mem, ← List.count_eq_zero, count_issues]
  have parts : (∀ i, w.tally i = 0) ↔ (∀ i, w.startTally i = 0) ∧
      (∀ n ∈ w.nodes, ∀ i, w.nodeTally n i = 0) ∧ ∀ i, w.nameTally i = 0 := by
    simp only [tally, Nat.add_eq_zero_iff, List.sum_eq_zero_iff_forall_eq_nat,
      List.forall_mem_map]
    constructor
    · exact fun all => ⟨fun i => (all i).1.1, fun n member i => (all i).1.2 n member,
        fun i => (all i).2⟩
    · exact fun ⟨starts, nodes, names⟩ i => ⟨⟨starts i, fun n member => nodes n member i⟩, names i⟩
  rw [silent, parts]
  simp only [startTally_eq_zero_iff, nodeTally_eq_zero_iff, nameTally_eq_zero_iff]
  exact ⟨fun ⟨start, wired, named⟩ => ⟨start, wired, named⟩,
    fun flawless => ⟨flawless.start, flawless.wired, flawless.named⟩⟩

/-- Only start nodes and names of parameters may be wrong with a well-formed workflow. -/
theorem WellFormed.of_mem_issues (h : w.WellFormed) (reported : i ∈ w.issues) :
    i = .noStart ∨ (∃ count, i = .severalStarts count) ∨
      ∃ list name, i = .repeatedName list name := by
  have counted : 0 < w.tally i := by
    rw [← count_issues]
    exact List.count_pos_iff.2 reported
  have blameless : (w.nodes.map (w.nodeTally · i)).sum = 0 := by
    rw [List.sum_eq_zero_iff_forall_eq_nat, List.forall_mem_map]
    exact fun n member => nodeTally_eq_zero_iff.2 (h.wired n member) i
  rw [tally, blameless] at counted
  cases i with
  | noStart => exact .inl rfl
  | severalStarts count => exact .inr (.inl ⟨count, rfl⟩)
  | repeatedName list name => exact .inr (.inr ⟨list, name, rfl⟩)
  | unknownTarget | selfConnection | repeatedConnection | missingPort | orphanedPort =>
    exact absurd counted (Nat.lt_irrefl 0)

/-- **Issues tell exactly what is wrong with a workflow**, whatever it looks like. None is reported
if and only if there is one start node, every edge leads to a different other node from a port of
its own, and names of parameters are not repeated. Each issue is reported as often as it occurs:
once for each edge to an unknown node or without a port, each edge of a node to itself and each
port without an edge, and for each edge and each name after the first of its kind. -/
theorem issues_tell (w : Workflow) :
    (w.issues = [] ↔ w.Flawless) ∧ ∀ i, w.issues.count i = w.tally i :=
  ⟨issues_eq_nil_iff, w.count_issues⟩

end Workflow

end Stepflow
