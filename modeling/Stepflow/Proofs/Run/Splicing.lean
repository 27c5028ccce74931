import Stepflow.Proofs.Run.Outcomes
import Stepflow.Proofs.Run.Pauses
import Stepflow.Proofs.Workflow.WellFormed

/-!
# Runs through a spliced node

A node inserted on an edge is walked past: runs visit the other nodes in the same order as before,
with the same variables, and pause at the same breakpoints.

* `unspliced`: the visits of a run without those to the new node;
* `Workflow.Splices`: all that a run can tell of the new node, and no more is used of it;
* `Splices.walk`, `Splices.walk_back`: where one walk has come, the other can come;
* `Splices.hits`: a breakpoint of the target is met behind the new node, not behind the source;
* `splices_insertBetween?`: what `insertBetween?` inserts is such a node;
* `corresponds_of_splices`: runs that differ by such a node correspond;
* `splicing_keeps_runs`: runs before and after correspond, whatever calls advance them.
-/

namespace Stepflow

open Json

/-- Where an edge to `m` leads in the end. -/
def skip (m t id : String) : String := if id = m then t else id

def Visit.skip (m t : String) (visit : Visit) : Visit :=
  { visit with next := visit.next.map (Stepflow.skip m t) }

def Position.skip (m t : String) (at_ : Position) : Position :=
  { at_ with current := at_.current.map (Stepflow.skip m t) }

/-- The visits to all nodes but `m`, each leading on past it. -/
def unspliced (m t : String) (visits : List Visit) : List Visit :=
  (visits.filter (·.node ≠ m)).map (·.skip m t)

section

variable {m t : String} {at_ : Position}

theorem map_skip_of_ne {name : Option String} (apart : name ≠ some m) :
    name.map (skip m t) = name := by
  cases name with
  | none => rfl
  | some id =>
    have other : id ≠ m := fun same => apart (congrArg some same)
    simp [skip, other]

theorem Position.skip_of_ne (apart : at_.current ≠ some m) : at_.skip m t = at_ := by
  rw [skip, map_skip_of_ne apart]

theorem Position.skip_at (here : at_.current = some m) : at_.skip m t = ⟨some t, at_.values⟩ := by
  simp [skip, here, Stepflow.skip]

theorem unspliced_cons_new (next : Option String) (message : String) (rest : List Visit) :
    unspliced m t (⟨m, next, message⟩ :: rest) = unspliced m t rest := by
  simp [unspliced]

theorem unspliced_cons_old {visit : Visit} (old : visit.node ≠ m) (rest : List Visit) :
    unspliced m t (visit :: rest) = visit.skip m t :: unspliced m t rest := by
  simp [unspliced, old]

end

namespace Workflow

variable {w v : Workflow} {m t : String}

/-- All that a run can tell of a node `m` that `v` has on edges to `t`, where `w` has none. -/
structure Splices (w v : Workflow) (m t : String) : Prop where
  apart : t ≠ m
  /-- `m` leads on to `t`, and does nothing else. -/
  inside : ∃ n, v.node? m = some n ∧ n.breakpoint = false ∧ ∀ values,
    (n.outcome values).next = some t ∧ (n.outcome values).update = none
  /-- Where other nodes led to `t` they may lead to `m`. -/
  outside : ∀ id ≠ m, w.node? id = none ∧ v.node? id = none ∨
    ∃ n n', w.node? id = some n ∧ v.node? id = some n' ∧ n'.breakpoint = n.breakpoint ∧
      ∀ values, n.outcome values = (n'.outcome values).lead (skip m t)
  origin : v.origin = w.origin
  begins : w.origin.current ≠ some m

/-! Walks -/

theorem current_stride? {at_ : Position} {step : Visit × Position}
    (stride : w.stride? at_ = some step) : step.2.current = step.1.next := by
  obtain ⟨n, -, stride⟩ := Option.bind_eq_some_iff.1 stride
  cases stride
  rfl

theorem Splices.stride_inside (splices : Splices w v m t) {at_ : Position}
    (here : at_.current = some m) :
    ∃ message, v.stride? at_ = some (⟨m, some t, message⟩, at_.skip m t) := by
  obtain ⟨n, found, -, leads⟩ := splices.inside
  obtain ⟨next, update⟩ := leads at_.values
  have named := (node?_eq_some found).2
  refine ⟨(n.outcome at_.values).message, ?_⟩
  rw [Position.skip_at here]
  simp [stride?, here, found, next, named, Position.take, update]

theorem Splices.stride_outside (splices : Splices w v m t) {at_ : Position}
    (apart : at_.current ≠ some m) :
    w.stride? at_ = (v.stride? at_).map (fun step => (step.1.skip m t, step.2.skip m t)) ∧
      ∀ step ∈ v.stride? at_, step.1.node ≠ m := by
  cases position : at_.current with
  | none => simp [stride?, position]
  | some id =>
    have other : id ≠ m := fun same => apart (position.trans (congrArg some same))
    rcases splices.outside id other with ⟨unknown, gone⟩ | ⟨n, n', old, found, -, same⟩
    · simp [stride?, position, unknown, gone]
    · have named := (node?_eq_some old).2
      have kept := (node?_eq_some found).2
      constructor
      · simp only [stride?, position, Option.bind_eq_bind, Option.bind_some, old, found,
          Option.pure_def, Option.map_some, same, named, kept]
        rfl
      · simp [stride?, position, found, kept, other]

/-- Where the walk after the splice has come, the walk before it can come. It takes a step for each
step but those at `m`, where it waits at `t`. -/
theorem Splices.walk (splices : Splices w v m t) (k : Nat) (at_ : Position) :
    ∃ j, w.walk j (at_.skip m t) = (unspliced m t (v.walk k at_).1, (v.walk k at_).2.skip m t) := by
  induction k generalizing at_ with
  | zero => exact ⟨0, rfl⟩
  | succ k ih =>
    by_cases here : at_.current = some m
    · obtain ⟨message, stride⟩ := splices.stride_inside here
      obtain ⟨j, rest⟩ := ih (at_.skip m t)
      have past : (at_.skip m t).skip m t = at_.skip m t := by
        rw [Position.skip_at here]
        exact Position.skip_of_ne (by simpa using splices.apart)
      rw [past] at rest
      refine ⟨j, ?_⟩
      simp only [Workflow.walk, stride]
      rw [unspliced_cons_new, rest]
    · obtain ⟨before, apart⟩ := splices.stride_outside here
      rw [Position.skip_of_ne here]
      cases stride : v.stride? at_ with
      | none =>
        refine ⟨0, ?_⟩
        simp only [Workflow.walk, stride]
        rw [Position.skip_of_ne here]
        rfl
      | some step =>
        obtain ⟨j, rest⟩ := ih step.2
        refine ⟨j + 1, ?_⟩
        rw [stride, Option.map_some] at before
        simp only [Workflow.walk, stride, before]
        rw [unspliced_cons_old (apart step stride), rest]

/-- Where the walk before the splice has come, the walk after it can come, and not stop at `m`. -/
theorem Splices.walk_back (splices : Splices w v m t) (k : Nat) {at_ : Position}
    (apart : at_.current ≠ some m) :
    ∃ j, w.walk k at_ = (unspliced m t (v.walk j at_).1, (v.walk j at_).2) ∧
      (v.walk j at_).2.current ≠ some m := by
  induction k generalizing at_ with
  | zero => exact ⟨0, rfl, apart⟩
  | succ k ih =>
    obtain ⟨before, old⟩ := splices.stride_outside apart
    cases stride : v.stride? at_ with
    | none =>
      refine ⟨0, ?_, apart⟩
      rw [stride] at before
      simp only [Workflow.walk, before, Option.map_none]
      rfl
    | some step =>
      obtain ⟨visit, next⟩ := step
      have other : visit.node ≠ m := old _ stride
      rw [stride, Option.map_some] at before
      simp only [Workflow.walk, before]
      by_cases here : next.current = some m
      · -- the walk after the splice takes one more step, past `m`
        obtain ⟨message, past⟩ := splices.stride_inside here
        have beyond : (next.skip m t).current ≠ some m := by
          rw [Position.skip_at here]
          simpa using splices.apart
        obtain ⟨j, rest, ends⟩ := ih beyond
        refine ⟨j + 2, ?_, ?_⟩
        · simp only [Workflow.walk, stride, past]
          rw [unspliced_cons_old other, unspliced_cons_new, rest]
        · simpa only [Workflow.walk, stride, past] using ends
      · obtain ⟨j, rest, ends⟩ := ih here
        refine ⟨j + 1, ?_, ?_⟩
        · simp only [Workflow.walk, stride]
          rw [unspliced_cons_old other, Position.skip_of_ne here, rest]
        · simpa only [Workflow.walk, stride] using ends

/-! Breakpoints -/

/-- The breakpoint that a walk before the splice has met already, when the walk after it is on its
way to `m`. -/
def owed (w : Workflow) (m t : String) (name : Option String) : List String :=
  if name = some m then (w.flagged? (some t)).toList else []

/-- Arriving where an edge leads in the end is arriving at its target, and at what is owed there. -/
theorem Splices.flagged (splices : Splices w v m t) (name : Option String) :
    (w.flagged? (name.map (skip m t))).toList = (v.flagged? name).toList ++ w.owed m t name := by
  by_cases here : name = some m
  · obtain ⟨n, found, clear, -⟩ := splices.inside
    have unset : v.flagged? name = none := flagged?_clear fun n' arrival => by
      rw [here, Option.bind_some, found] at arrival
      exact Option.some.inj arrival ▸ clear
    rw [unset, here]
    simp [owed, skip]
  · rw [map_skip_of_ne here, owed, if_neg here, List.append_nil]
    cases name with
    | none => rfl
    | some id =>
      have other : id ≠ m := fun same => here (congrArg some same)
      rcases splices.outside id other with ⟨unknown, gone⟩ | ⟨n, n', old, found, same, -⟩
      · simp [flagged?, unknown, gone]
      · have named := (node?_eq_some old).2
        have kept := (node?_eq_some found).2
        simp only [flagged?, Option.bind_some, old, found, Option.filter, same]
        split
        · simp [named, kept]
        · rfl

theorem hits_cons (w : Workflow) (visit : Visit) (rest : List Visit) :
    w.hits (visit :: rest) = (w.flagged? visit.next).toList ++ w.hits rest := by
  unfold hits
  cases hit : w.flagged? visit.next <;> simp [hit]

/-- Both walks meet the same breakpoints, but for what is owed at either end. -/
theorem Splices.hits (splices : Splices w v m t) (k : Nat) (at_ : Position) :
    w.owed m t at_.current ++ w.hits (unspliced m t (v.walk k at_).1)
      = v.hits (v.walk k at_).1 ++ w.owed m t (v.walk k at_).2.current := by
  induction k generalizing at_ with
  | zero => exact (List.append_nil _).trans rfl
  | succ k ih =>
    by_cases here : at_.current = some m
    · obtain ⟨message, stride⟩ := splices.stride_inside here
      have beyond : (at_.skip m t).current = some t := by rw [Position.skip_at here]
      have rest := ih (at_.skip m t)
      have target := splices.flagged (some t)
      have other : some t ≠ some m := by simpa using splices.apart
      rw [beyond, owed, if_neg other, List.nil_append] at rest
      rw [map_skip_of_ne other, owed, if_neg other, List.append_nil] at target
      simp only [Workflow.walk, stride]
      rw [unspliced_cons_new, rest, hits_cons, here, owed, if_pos rfl, target, List.append_assoc]
    · obtain ⟨before, old⟩ := splices.stride_outside here
      have free : w.owed m t at_.current = [] := if_neg here
      rw [free, List.nil_append]
      cases stride : v.stride? at_ with
      | none =>
        simp only [Workflow.walk, stride]
        exact free.symm
      | some step =>
        have rest := ih step.2
        have arrival := splices.flagged step.1.next
        have leads : step.2.current = step.1.next := current_stride? stride
        simp only [Workflow.walk, stride]
        rw [unspliced_cons_old (old step stride), hits_cons, hits_cons, List.append_assoc, ← rest,
          leads, ← List.append_assoc, ← arrival]
        rfl

end Workflow

/-! The splice -/

theorem Evaluation.lead_lead (f g : String → String) (e : Evaluation) :
    (e.lead f).lead g = e.lead (g ∘ f) := by
  simp [lead]

theorem Evaluation.lead_fixed {f : String → String} {e : Evaluation}
    (fixed : ∀ id ∈ e.next, f id = id) : e.lead f = e := by
  have same : e.next.map f = e.next := by
    cases next : e.next with
    | none => rfl
    | some id => exact congrArg some (fixed id next)
  rw [lead, same]

namespace Node

variable {n : Node} {m t : String}

theorem outcome_unled (unled : m ∉ n.connections) (values : KeyMap Value) :
    n.outcome values = (n.outcome values).lead (skip m t) := by
  refine (Evaluation.lead_fixed fun id next => ?_).symm
  have other : id ≠ m := fun same => unled (same ▸ mem_of_outcome next)
  exact if_neg other

/-- The detour by `m` leads to `t` again. -/
theorem outcome_redirect (unled : m ∉ n.connections) (values : KeyMap Value) :
    n.outcome values = ((n.redirect t m).outcome values).lead (skip m t) := by
  have rewired : (n.redirect t m).outcome values
      = (n.rewire fun id => if id = t then m else id).outcome values := rfl
  rw [rewired, outcome_rewire, Evaluation.lead_lead]
  refine (Evaluation.lead_fixed fun id next => ?_).symm
  have other : id ≠ m := fun same => unled (same ▸ mem_of_outcome next)
  by_cases target : id = t
  · simp [skip, target]
  · simp [skip, target, other]

end Node

namespace Workflow

variable {w v : Workflow} {m t : String}

/-- What becomes of a node when `m` is inserted on the edges from `source` to `t`. -/
def detour (source t m : String) (shifted : List String) (gap : Double) (n : Node) : Node :=
  if (shift shifted gap n).id = source then (shift shifted gap n).redirect t m
  else shift shifted gap n

section

variable {source : String} {shifted : List String} {gap : Double} {new : Node}

theorem detour_keeps (n : Node) :
    (detour source t m shifted gap n).id = n.id ∧
      (detour source t m shifted gap n).kind = n.kind ∧
      (detour source t m shifted gap n).breakpoint = n.breakpoint := by
  unfold detour shift
  split <;> split <;> exact ⟨rfl, rfl, rfl⟩

theorem outcome_detour {n : Node} (unled : m ∉ n.connections) (values : KeyMap Value) :
    n.outcome values = ((detour source t m shifted gap n).outcome values).lead (skip m t) := by
  have moved : (shift shifted gap n).outcome values = n.outcome values := by
    rw [shift_eq]
    rfl
  have still : m ∉ (shift shifted gap n).connections := by
    rw [connections_shift]
    exact unled
  unfold detour
  rw [← moved]
  split
  · exact Node.outcome_redirect still values
  · exact Node.outcome_unled still values

theorem nodes_spliced : (w.spliced source t m (shift shifted gap) new).nodes
    = w.nodes.map (detour source t m shifted gap) ++ [new] := rfl

/-- A detour is found by what it keeps. -/
theorem find?_detour {p : Node → Bool} (kept : ∀ n, p (detour source t m shifted gap n) = p n) :
    (w.nodes.map (detour source t m shifted gap)).find? p
      = (w.nodes.find? p).map (detour source t m shifted gap) := by
  have same : p ∘ detour source t m shifted gap = p := funext kept
  rw [List.find?_map, same]

theorem node?_spliced (id : String) : (w.spliced source t m (shift shifted gap) new).node? id
    = ((w.node? id).map (detour source t m shifted gap)).or ([new].find? (·.id = id)) := by
  have old : (w.nodes.map (detour source t m shifted gap)).find? (·.id = id)
      = (w.node? id).map (detour source t m shifted gap) :=
    find?_detour fun n => by simp [detour_keeps]
  rw [node?, nodes_spliced, List.find?_append, old]

theorem start?_spliced (other : new.kind ≠ .start) :
    (w.spliced source t m (shift shifted gap) new).start?.map (·.id) = w.start?.map (·.id) := by
  have first : (w.nodes.map (detour source t m shifted gap)).find? (·.kind = .start)
      = w.start?.map (detour source t m shifted gap) :=
    find?_detour fun n => by simp [detour_keeps]
  have later : [new].find? (·.kind = .start) = none := by simpa using other
  rw [start?, nodes_spliced, List.find?_append, first, later, Option.or_none, Option.map_map]
  exact Option.map_congr fun n _ => (detour_keeps n).1

end

theorem splices_insertBetween? {layout : Layout} {source : String} {kind : NodeKind} {x y : Double}
    (done : w.insertBetween? layout m source t kind x y = some v)
    (insertable : kind.insertable = true) (unused : w.Unused m) : w.Splices v m t := by
  obtain ⟨-, tn, shifted, x', y', -, foundTarget, -, rfl⟩ := of_insertBetween? done
  refine ⟨?_, ⟨.between m t kind x' y', ?_, rfl, ?_⟩, ?_, ?_, ?_⟩
  · obtain ⟨member, named⟩ := node?_eq_some foundTarget
    exact named ▸ (unused tn member).1
  · have absent : w.node? m = none :=
      List.find?_eq_none.2 fun n member => by simpa using (unused n member).1
    rw [node?_spliced, absent]
    simp [Node.between, Node.attach, Node.ofKind]
  · exact fun values => Node.outcome_unset insertable rfl rfl
  · intro id other
    have distinct : [Node.between m t kind x' y'].find? (·.id = id) = none := by
      simpa [Node.between, Node.attach, Node.ofKind] using Ne.symm other
    rw [node?_spliced, distinct, Option.or_none]
    cases found : w.node? id with
    | none => exact .inl ⟨rfl, rfl⟩
    | some n =>
      have unled := (unused n (node?_eq_some found).1).2
      exact .inr ⟨n, _, rfl, rfl, (detour_keeps n).2.2, outcome_detour unled⟩
  · have other : (Node.between m t kind x' y').kind ≠ .start := fun same => by
      have kind : kind = .start := same
      simp [kind, NodeKind.insertable] at insertable
    rw [origin, start?_spliced other]
    rfl
  · intro begins
    obtain ⟨n, first, named⟩ := Option.map_eq_some_iff.1 begins
    exact (unused n (List.mem_of_find?_eq_some first)).1 named

end Workflow

/-! Runs -/

namespace Debugger

variable {w v : Workflow} {m t : String} {c c' : Canvas} {d d' : Debugger}

/-- A run before the splice and one after it, at corresponding points. -/
structure Alike (m t : String) (before after : Emission) : Prop where
  visits : before.events.filterMap Event.visit?
    = unspliced m t (after.events.filterMap Event.visit?)
  values : before.debugger.state.values = after.debugger.state.values

/-- Whatever advances a run on one side of the splice, running and resuming leads one on the other
side to a corresponding point. A run that stands at `m` has yet to meet a breakpoint of `t`. -/
structure Correspond (m t : String) (c c' : Canvas) (d d' : Debugger) : Prop where
  exists_before (moves : List Move) : let run' := d'.follow (moves.map (·.on c'))
    (∀ event ∈ run'.events, event.isStart = false) →
    ∃ n, let run := d.follow ((rounds n).map (·.on c))
      Alike m t run run' ∧ run'.events.filterMap Event.hit? <+: run.events.filterMap Event.hit?
  exists_after (moves : List Move) : let run := d.follow (moves.map (·.on c))
    (∀ event ∈ run.events, event.isStart = false) →
    ∃ n, let run' := d'.follow ((rounds n).map (·.on c'))
      Alike m t run run' ∧ run'.events.filterMap Event.hit? = run.events.filterMap Event.hit?

theorem alike_before (splices : w.Splices v m t) (before : Underway c w d)
    (after : Underway c' v d') (together : d.state.position = d'.state.position)
    (apart : d'.state.position.current ≠ some m) (moves : List Move)
    (sameRun : ∀ event ∈ (d'.follow (moves.map (·.on c'))).events, event.isStart = false) :
    let run' := d'.follow (moves.map (·.on c'))
    ∃ n, let run := d.follow ((rounds n).map (·.on c))
      Alike m t run run' ∧
        run'.events.filterMap Event.hit? <+: run.events.filterMap Event.hit? := by
  intro run'
  have walked := (follow_walk after moves).1
  rw [Event.visits_of_sameRun sameRun] at walked
  obtain ⟨j, along⟩ := splices.walk (run'.events.filterMap Event.visit?).length d'.state.position
  rw [Position.skip_of_ne apart, ← together] at along
  obtain ⟨n, goes⟩ := rounds_walk before j
  refine ⟨n, ⟨?_, ?_⟩, ?_⟩
  · rw [goes.visited, along, together, ← walked]
  · have stands : _ = (w.walk j d.state.position).2.values :=
      congrArg Position.values goes.position
    refine stands.trans ?_
    rw [along, together]
    exact (follow_pauses after moves sameRun).2.symm
  · have met := splices.hits (run'.events.filterMap Event.visit?).length d'.state.position
    rw [Workflow.owed, if_neg apart, List.nil_append, ← walked] at met
    rw [(follow_pauses after moves sameRun).1, (follow_pauses before _ goes.sameRun).1,
      goes.visited, along, together, ← walked, met]
    exact List.prefix_append _ _

theorem alike_after (splices : w.Splices v m t) (before : Underway c w d)
    (after : Underway c' v d') (together : d.state.position = d'.state.position)
    (apart : d'.state.position.current ≠ some m) (moves : List Move)
    (sameRun : ∀ event ∈ (d.follow (moves.map (·.on c))).events, event.isStart = false) :
    let run := d.follow (moves.map (·.on c))
    ∃ n, let run' := d'.follow ((rounds n).map (·.on c'))
      Alike m t run run' ∧ run'.events.filterMap Event.hit? = run.events.filterMap Event.hit? := by
  intro run
  have walked := (follow_walk before moves).1
  rw [Event.visits_of_sameRun sameRun] at walked
  obtain ⟨j, along, ends⟩ :=
    splices.walk_back (run.events.filterMap Event.visit?).length apart
  rw [← together] at along ends
  obtain ⟨n, goes⟩ := rounds_walk after j
  rw [← together] at goes
  refine ⟨n, ⟨?_, ?_⟩, ?_⟩
  · rw [goes.visited]
    exact walked.trans (congrArg Prod.fst along)
  · have stands : _ = (v.walk j d.state.position).2.values :=
      congrArg Position.values goes.position
    calc run.debugger.state.values
        = (w.walk (run.events.filterMap Event.visit?).length d.state.position).2.values :=
          (follow_pauses before moves sameRun).2
      _ = (v.walk j d.state.position).2.values := congrArg (·.2.values) along
      _ = _ := stands.symm
  · have met := splices.hits j d.state.position
    rw [Workflow.owed, if_neg (together ▸ apart), List.nil_append, Workflow.owed, if_neg ends,
      List.append_nil] at met
    rw [(follow_pauses after _ goes.sameRun).1, (follow_pauses before moves sameRun).1,
      goes.visited, ← met, walked, along]

theorem exists_start? {start : Node} (found : c.workflow? w.id = some w)
    (first : w.start? = some start) (d : Debugger) : ∃ e, d.start? c w.id = some e := by
  simp [start?, found, RunState.begin?, first]

theorem corresponds_of_splices (splices : w.Splices v m t) {start : Node}
    (first : w.start? = some start) (here : c.workflow? w.id = some w)
    (there : c'.workflow? v.id = some v) (d d' : Debugger) :
    (∃ e, d.start? c w.id = some e) ∧ (∃ e', d'.start? c' v.id = some e') ∧
      ∀ e e', d.Begins c w.id e → d'.Begins c' v.id e' →
        Correspond m t c c' e.debugger e'.debugger := by
  obtain ⟨start', first'⟩ : ∃ start', v.start? = some start' := by
    have same : v.start?.map (·.id) = w.start?.map (·.id) :=
      congrArg Position.current splices.origin
    rw [first] at same
    obtain ⟨start', first', -⟩ := Option.map_eq_some_iff.1 same
    exact ⟨start', first'⟩
  refine ⟨exists_start? here first d, exists_start? there first' d', ?_⟩
  intro e e' begun begun'
  obtain ⟨before, -, position, -⟩ := begin_walk here begun
  obtain ⟨after, -, position', -⟩ := begin_walk there begun'
  rw [splices.origin] at position'
  have together := position.trans position'.symm
  have apart : e'.debugger.state.position.current ≠ some m := by
    rw [position']
    exact splices.begins
  exact ⟨alike_before splices before after together apart,
    alike_after splices before after together apart⟩

/-- **A node spliced into an edge is walked past.** Runs of the two workflows visit the same nodes
in the same order, with the same messages and the same variables at corresponding points, once the
visits to the new node are left out and its place as a target is taken by the old one; and they
pause at the same breakpoints in the same order. The workflow may have cycles, repeated ids and
repeated edges. -/
theorem splicing_keeps_runs {layout : Layout} {source : String} {kind : NodeKind} {x y : Double}
    (done : w.insertBetween? layout m source t kind x y = some v)
    (insertable : kind.insertable = true) (unused : w.Unused m) {start : Node}
    (first : w.start? = some start) (here : c.workflow? w.id = some w)
    (there : c'.workflow? v.id = some v) (d d' : Debugger) :
    (∃ e, d.start? c w.id = some e) ∧ (∃ e', d'.start? c' v.id = some e') ∧
      ∀ e e', d.Begins c w.id e → d'.Begins c' v.id e' →
        Correspond m t c c' e.debugger e'.debugger :=
  corresponds_of_splices (Workflow.splices_insertBetween? done insertable unused) first here there
    d d'

/-- A branch on the edge to the breakpoint of the ring. -/
theorem ring_spliced :
    ∃ v, ring.insertBetween? {} "m" "s" "b" .branch (.ofInt 0) (.ofInt 0) = some v ∧
      let c : Canvas := ⟨[⟨ring, none⟩], none, {}, {}⟩
      let c' : Canvas := ⟨[⟨v, none⟩], none, {}, {}⟩
      let d := initial {} "00:00:00"
      (∃ e, d.start? c ring.id = some e) ∧ (∃ e', d.start? c' v.id = some e') ∧
        ∀ e e', d.Begins c ring.id e → d.Begins c' v.id e' →
          Correspond "m" "b" c c' e.debugger e'.debugger := by
  obtain ⟨v, done⟩ :
      ∃ v, ring.insertBetween? {} "m" "s" "b" .branch (.ofInt 0) (.ofInt 0) = some v :=
    Option.isSome_iff_exists.1 (by decide +kernel)
  refine ⟨v, done, ?_⟩
  exact splicing_keeps_runs done rfl (by decide) rfl rfl (by simp [Canvas.workflow?, Canvas.sheet?])
    _ _

end Debugger

end Stepflow
