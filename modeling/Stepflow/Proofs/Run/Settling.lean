import Mathlib.Data.List.Nodup
import Mathlib.Data.List.Perm.Subperm
import Mathlib.Logic.Relation
import Stepflow.Proofs.Run.Budgets
import Stepflow.Proofs.Run.Outcomes
import Stepflow.Proofs.Workflow.WellFormed

/-!
# Runs that settle

Where the edges of a workflow form no cycle, a walk never comes back to a node. So it ends, and with
it every run: there are at most as many ticks as nodes, and one step more to complete or to halt.

* `Workflow.Acyclic`, `Acyclic.nodup_walk`, `Acyclic.length_walk_le`: without cycles walks are
  short;
* `Underway.settles`: a run settles within the strides that are left to it and one step more;
* `Whereabouts`, `whereabouts_obey`: where a run may be that is never stepped;
* `acyclic_runs_settle`: the bound, where a run comes to rest, and that it visits no node twice.
-/

namespace Stepflow

namespace Workflow

variable {w : Workflow}

/-- No node leads back to itself. -/
def Acyclic (w : Workflow) : Prop := ∀ id, ¬Relation.TransGen w.Leads id id

/-- Edges that all go down a rank form no cycle. -/
theorem acyclic_of_rank (rank : String → Nat)
    (falls : ∀ n ∈ w.nodes, ∀ t ∈ n.connections, rank t < rank n.id) : w.Acyclic := by
  have drops {a b : String} (leads : w.Leads a b) : rank b < rank a := by
    obtain ⟨n, found, led⟩ := leads
    obtain ⟨member, rfl⟩ := node?_eq_some found
    exact falls n member b led
  have below {a b : String} (path : Relation.TransGen w.Leads a b) : rank b < rank a := by
    induction path with
    | single leads => exact drops leads
    | tail _ leads ih => exact Nat.lt_trans (drops leads) ih
  intro id cycle
  exact Nat.lt_irrefl _ (below cycle)

/-- A stride visits a node of the workflow and goes on along one of its edges. -/
theorem stride?_leads {at_ next : Position} {visit : Visit}
    (stride : w.stride? at_ = some (visit, next)) :
    at_.current = some visit.node ∧ visit.node ∈ w.ids ∧
      ∀ t, next.current = some t → w.Leads visit.node t := by
  obtain ⟨n, arrived, stride⟩ := Option.bind_eq_some_iff.1 stride
  obtain ⟨id, here, found⟩ := Option.bind_eq_some_iff.1 arrived
  obtain ⟨member, rfl⟩ := node?_eq_some found
  cases stride
  refine ⟨here, List.mem_map_of_mem member, ?_⟩
  intro t leads
  exact ⟨n, found, Node.mem_of_outcome leads⟩

/-- A walk visits only what can be reached from where it begins. -/
theorem reaches_walk (k : Nat) (at_ : Position) : ∀ visit ∈ (w.walk k at_).1,
    ∃ id, at_.current = some id ∧ Relation.ReflTransGen w.Leads id visit.node := by
  induction k generalizing at_ with
  | zero => simp [walk]
  | succ k ih =>
    cases stride : w.stride? at_ with
    | none => simp [walk, stride]
    | some step =>
      obtain ⟨position, -, onward⟩ := stride?_leads stride
      simp only [walk, stride]
      intro visit member
      refine ⟨step.1.node, position, ?_⟩
      rcases List.mem_cons.1 member with rfl | later
      · exact .refl
      · obtain ⟨t, leads, path⟩ := ih step.2 visit later
        exact .head (onward t leads) path

/-- Every visit of a walk is ahead of those before it. -/
theorem pairwise_walk (k : Nat) (at_ : Position) :
    (w.walk k at_).1.Pairwise fun a b => Relation.TransGen w.Leads a.node b.node := by
  induction k generalizing at_ with
  | zero => exact .nil
  | succ k ih =>
    cases stride : w.stride? at_ with
    | none => simp [walk, stride]
    | some step =>
      obtain ⟨-, -, onward⟩ := stride?_leads stride
      simp only [walk, stride]
      refine List.pairwise_cons.2 ⟨?_, ih step.2⟩
      intro visit later
      obtain ⟨t, leads, path⟩ := reaches_walk k step.2 visit later
      exact .head' (onward t leads) path

theorem nodes_walk (k : Nat) (at_ : Position) : ∀ visit ∈ (w.walk k at_).1, visit.node ∈ w.ids := by
  induction k generalizing at_ with
  | zero => simp [walk]
  | succ k ih =>
    cases stride : w.stride? at_ with
    | none => simp [walk, stride]
    | some step =>
      simp only [walk, stride]
      intro visit member
      rcases List.mem_cons.1 member with rfl | later
      · exact (stride?_leads stride).2.1
      · exact ih _ visit later

theorem Acyclic.nodup_walk (acyclic : w.Acyclic) (k : Nat) (at_ : Position) :
    ((w.walk k at_).1.map (·.node)).Nodup := by
  refine List.pairwise_map.2 ((pairwise_walk k at_).imp ?_)
  intro a b ahead same
  exact acyclic a.node (same ▸ ahead)

theorem Acyclic.length_walk_le (acyclic : w.Acyclic) (k : Nat) (at_ : Position) :
    (w.walk k at_).1.length ≤ w.nodes.length := by
  have within : (w.walk k at_).1.map (·.node) ⊆ w.ids := by
    intro id member
    obtain ⟨visit, visited, rfl⟩ := List.mem_map.1 member
    exact nodes_walk k at_ visit visited
  simpa [ids] using ((acyclic.nodup_walk k at_).subperm within).length_le

end Workflow

/-! Settling -/

namespace Debugger

variable {d : Debugger} {c : Canvas} {w : Workflow}

/-- A run settles within the strides that are left to it and one step more, to complete or to
halt. -/
theorem Underway.settles (underway : Underway c w d) {k max : Nat}
    (short : (w.walk (k + 1) d.state.position).1.length ≤ k) (enough : k + 1 ≤ max) :
    (runUntilSettled c max d).1 ≤ k + 1 ∧
      (runUntilSettled c max d).2.debugger.pending = none := by
  induction max generalizing d k with
  | zero => omega
  | succ max ih =>
    cases pending : d.pending with
    | none =>
      rw [runUntilSettled_none pending]
      exact ⟨Nat.zero_le _, pending⟩
    | some step =>
      have running := underway.fit.running pending
      have fit := coherent_obey underway.fit (.runPending c)
      have last (nothing : (d.obey (.runPending c)).debugger.pending = none) :
          (runUntilSettled c (max + 1) d).1 ≤ k + 1 ∧
            (runUntilSettled c (max + 1) d).2.debugger.pending = none := by
        rw [runUntilSettled_last pending nothing]
        exact ⟨Nat.le_add_left 1 k, nothing⟩
      cases step with
      | completion =>
        refine last ?_
        rw [obey_runPending_completion pending, runCompletion, if_pos running]
      | tick mode =>
        have ran := obey_runPending_tick pending c
        rcases runTick_strides running underway.live mode with
          ⟨visit, stride, -, -, awake⟩ | ⟨-, -, idle, -⟩
        · rw [← ran] at stride awake
          cases k with
          | zero => simp [Workflow.walk, stride] at short
          | succ k =>
            have left : (w.walk (k + 1) (d.obey (.runPending c)).debugger.state.position).1.length
                ≤ k := by
              simp only [Workflow.walk, stride, List.length_cons] at short ⊢
              omega
            have same : (d.obey (Move.runPending.on c)).debugger.workflow = d.workflow := by
              rw [Move.on, ran]
              rfl
            have next : Underway c w (d.obey (.runPending c)).debugger := underway.stays same awake
            obtain ⟨bound, settled⟩ := ih next left (by omega)
            rw [runUntilSettled_succ pending]
            exact ⟨Nat.succ_le_succ bound, settled⟩
        · rw [← ran] at idle
          exact last (fit.unscheduled (by simp [idle]))

/-- Until it halts a run stays under way. -/
theorem Underway.stays_follow (underway : Underway c w d) {moves : List Move}
    (sameRun : ∀ event ∈ (d.follow (moves.map (·.on c))).events, event.isStart = false)
    (awake : (d.follow (moves.map (·.on c))).debugger.state.status ≠ .idle) :
    Underway c w (d.follow (moves.map (·.on c))).debugger := by
  induction moves generalizing d with
  | nil => exact underway
  | cons move rest ih =>
    have others : ∀ event ∈ ((d.obey (move.on c)).debugger.follow (rest.map (·.on c))).events,
        event.isStart = false := fun event member => sameRun event (List.mem_append_right _ member)
    cases stage_obey underway move with
    | stays _ _ workflow _ up => exact ih (underway.stays workflow up) others awake
    | strides _ _ workflow _ up => exact ih (underway.stays workflow up) others awake
    | halts _ idle =>
      have fit := coherent_obey underway.fit (move.on c)
      rcases follow_idle fit idle c rest with ⟨still, -⟩ | ⟨_, _, _, _, head⟩
      · rw [List.map_cons, follow, still] at awake
        exact absurd idle awake
      · rw [head] at others
        exact absurd (others _ (.head _)) (by simp [Event.isStart])

/-! Where a run comes to rest -/

/-- Where a run on `w` may be that is run and resumed but never stepped, with all that it has
reported. -/
inductive Whereabouts (w : Workflow) (d : Debugger) (told : List Event) : Prop where
  /-- At a node, or where an edge leads. -/
  | going {id : String} (pending : d.pending = some (.tick .continuous))
      (position : d.state.current = some id)
      (known : w.hasNode id = true ∨ ∃ source, w.Leads source id)
  | ending (pending : d.pending = some .completion)
  /-- Also later, when it is resumed once more and halts. -/
  | completed (said : .completed d.execution ∈ told)
  | waiting {n : Node} (paused : d.state.status = .paused)
      (arrival : d.state.current.bind w.node? = some n) (set : n.breakpoint = true)
  | stranded {source id : String} (idle : d.state.status = .idle) (leads : w.Leads source id)
      (unknown : w.node? id = none)
      (said : .halted d.execution ("Error: Node " ++ id ++ " not found.") ∈ told)

variable {told : List Event}

theorem whereabouts_runTick {id : String} (running : d.state.status = .running)
    (live : d.workflow.bind c.workflow? = some w) (position : d.state.current = some id)
    (known : w.hasNode id = true ∨ ∃ source, w.Leads source id) :
    Whereabouts w (d.runTick c .continuous).debugger
      (told ++ (d.runTick c .continuous).events) := by
  -- a visit leads along an edge of the node
  have onward {n : Node} {t : String} (found : w.node? id = some n)
      (leads : (d.state.visit d.pace d.clock n).2.next = some t) : w.Leads id t :=
    ⟨n, found, Node.mem_of_outcome leads⟩
  obtain ⟨result, advance, ran⟩ := runTick_cases running c .continuous
  rw [ran]
  cases advance with
  | lost absent => simp [live, position] at absent
  | dangling here place unknown =>
    cases live.symm.trans here
    cases position.symm.trans place
    obtain ⟨source, leads⟩ := known.resolve_left (by simp [Workflow.hasNode, unknown])
    refine .stranded rfl leads unknown (List.mem_append_right _ ?_)
    exact .head _
  | breakpoint here place found arrival set =>
    cases live.symm.trans here
    exact .waiting rfl arrival set
  | single _ _ _ only => cases only
  | proceed here place found on leads =>
    cases live.symm.trans here
    cases position.symm.trans place
    exact .going rfl leads (.inr ⟨id, onward found leads⟩)
  | finish => exact .ending rfl

theorem whereabouts_start? {id : String} {e : Emission} (found : c.workflow? id = some w)
    (begun : d.start? c id = some e) : Whereabouts w e.debugger [] := by
  obtain ⟨v, start, found', first, s, -, -, position, -, rfl⟩ := start?_cases begun
  cases found.symm.trans found'
  refine .going rfl position (.inl ?_)
  exact (Workflow.hasNode_iff start.id).2 (List.mem_map_of_mem (List.mem_of_find?_eq_some first))

/-- A call that is no step keeps a run on its workflow. -/
theorem obey_unstepped {move : Move} (unstepped : ∀ id, move ≠ .step id) :
    (d.obey (move.on c)).debugger.workflow = d.workflow ∧
      (d.obey (move.on c)).debugger.execution = d.execution := by
  cases move with
  | step id => exact absurd rfl (unstepped id)
  | resume =>
    by_cases paused : d.state.status = .paused
    · rw [Move.on, obey_resume_paused paused]
      exact ⟨rfl, rfl⟩
    · rw [Move.on, obey_resume_refused paused]
      exact ⟨rfl, rfl⟩
  | runPending =>
    cases pending : d.pending with
    | none =>
      rw [Move.on, obey_runPending_none pending]
      exact ⟨rfl, rfl⟩
    | some step =>
      cases step with
      | tick mode =>
        rw [Move.on, obey_runPending_tick pending]
        exact ⟨rfl, rfl⟩
      | completion =>
        rw [Move.on, obey_runPending_completion pending, runCompletion]
        split <;> exact ⟨rfl, rfl⟩

theorem whereabouts_obey (fit : d.Coherent) (live : d.workflow.bind c.workflow? = some w)
    (here : Whereabouts w d told) {move : Move} (unstepped : ∀ id, move ≠ .step id) :
    Whereabouts w (d.obey (move.on c)).debugger (told ++ (d.obey (move.on c)).events) := by
  have quiet (refused : d.obey (move.on c) = ⟨d, []⟩) :
      Whereabouts w (d.obey (move.on c)).debugger (told ++ (d.obey (move.on c)).events) := by
    rw [refused, List.append_nil]
    exact here
  cases here with
  | completed said =>
    refine .completed (List.mem_append_left _ ?_)
    rw [(obey_unstepped unstepped).2]
    exact said
  | going pending position known =>
    have running := fit.running pending
    cases move with
    | step id => exact absurd rfl (unstepped id)
    | resume => exact quiet (obey_resume_refused (by simp [running]))
    | runPending =>
      rw [Move.on, obey_runPending_tick pending]
      exact whereabouts_runTick running live position known
  | ending pending =>
    have running := fit.running pending
    cases move with
    | step id => exact absurd rfl (unstepped id)
    | resume => exact quiet (obey_resume_refused (by simp [running]))
    | runPending =>
      rw [Move.on, obey_runPending_completion pending, runCompletion, if_pos running]
      exact .completed (List.mem_append_right _ (.head _))
  | @waiting n paused arrival set =>
    cases move with
    | step id => exact absurd rfl (unstepped id)
    | resume =>
      obtain ⟨id, position, found⟩ := Option.bind_eq_some_iff.1 arrival
      rw [Move.on, obey_resume_paused paused]
      exact .going rfl position (.inl (by rw [Workflow.hasNode, found]; rfl))
    | runPending => exact quiet (obey_runPending_none (fit.unscheduled (by simp [paused])) c)
  | stranded idle =>
    cases move with
    | step id => exact absurd rfl (unstepped id)
    | resume => exact quiet (obey_resume_refused (by simp [idle]))
    | runPending => exact quiet (obey_runPending_none (fit.unscheduled (by simp [idle])) c)

theorem whereabouts_follow (fit : d.Coherent) (live : d.workflow.bind c.workflow? = some w)
    (here : Whereabouts w d told) {moves : List Move} (unstepped : ∀ id, .step id ∉ moves) :
    Whereabouts w (d.follow (moves.map (·.on c))).debugger
      (told ++ (d.follow (moves.map (·.on c))).events) := by
  induction moves generalizing d told with
  | nil =>
    simp only [List.map_nil, follow, List.append_nil]
    exact here
  | cons move rest ih =>
    have first : ∀ id, move ≠ .step id := fun id same => unstepped id (same ▸ .head _)
    have next := whereabouts_obey fit live here first
    have live' : (d.obey (move.on c)).debugger.workflow.bind c.workflow? = some w := by
      rw [(obey_unstepped first).1]
      exact live
    simp only [List.map_cons, follow]
    rw [← List.append_assoc]
    exact ih (coherent_obey fit (move.on c)) live' next fun id member =>
      unstepped id (.tail _ member)

theorem follow_unstepped {moves : List Move} (unstepped : ∀ id, .step id ∉ moves) :
    (d.follow (moves.map (·.on c))).debugger.workflow = d.workflow ∧
      (d.follow (moves.map (·.on c))).debugger.execution = d.execution := by
  induction moves generalizing d with
  | nil => exact ⟨rfl, rfl⟩
  | cons move rest ih =>
    have first : ∀ id, move ≠ .step id := fun id same => unstepped id (same ▸ .head _)
    obtain ⟨workflow, execution⟩ := obey_unstepped (d := d) (c := c) first
    obtain ⟨workflow', execution'⟩ := ih (d := (d.obey (move.on c)).debugger) fun id member =>
      unstepped id (.tail _ member)
    exact ⟨workflow'.trans workflow, execution'.trans execution⟩

/-- To settle is to make no step either. -/
theorem whereabouts_settled (fit : d.Coherent) (live : d.workflow.bind c.workflow? = some w)
    (here : Whereabouts w d told) (max : Nat) :
    Whereabouts w (runUntilSettled c max d).2.debugger
        (told ++ (runUntilSettled c max d).2.events) ∧
      (runUntilSettled c max d).2.debugger.execution = d.execution := by
  have calls : (runUntilSettled c max d).2
      = d.follow ((List.replicate (runUntilSettled c max d).1 Move.runPending).map (·.on c)) := by
    rw [List.map_replicate]
    exact runUntilSettled_eq_follow c max d
  have never : ∀ id, .step id ∉ List.replicate (runUntilSettled c max d).1 Move.runPending := by
    intro id member
    cases List.eq_of_mem_replicate member
  rw [calls]
  exact ⟨whereabouts_follow fit live here never, (follow_unstepped never).2⟩

/-- **Runs of a workflow without cycles settle.** Whatever resumes, steps and pending steps came
before, at most as many steps remain as there are nodes, and one to complete or to halt; then
nothing is pending. A run that was never stepped has completed by then, or is paused at a
breakpoint, or has halted where an edge leads to no node. No node is visited twice in a run. -/
theorem acyclic_runs_settle {id : String} {e : Emission} (found : c.workflow? id = some w)
    (acyclic : w.Acyclic) (begun : d.start? c id = some e) (moves : List Move) :
    let run := e.debugger.follow (moves.map (·.on c))
    ((Event.visits run.events).map (·.node)).Nodup ∧
    ((∀ event ∈ run.events, event.isStart = false) → ∀ max, w.nodes.length + 1 ≤ max →
      let settled := runUntilSettled c max run.debugger
      let state := settled.2.debugger.state
      let told := run.events ++ settled.2.events
      settled.1 ≤ w.nodes.length + 1 ∧ settled.2.debugger.pending = none ∧
      ((∀ id, .step id ∉ moves) →
        .completed e.debugger.execution ∈ told ∨
        (state.status = .paused ∧
          ∃ n, state.current.bind w.node? = some n ∧ n.breakpoint = true) ∨
        (state.status = .idle ∧
          ∃ source target, w.Leads source target ∧ w.node? target = none ∧
            .halted e.debugger.execution ("Error: Node " ++ target ++ " not found.") ∈ told))) := by
  intro run
  obtain ⟨underway, -⟩ := begin_walk found (.inl begun)
  have fit : run.debugger.Coherent := coherent_follow underway.fit _
  constructor
  · rw [(follow_walk underway moves).1]
    exact acyclic.nodup_walk _ _
  intro sameRun max enough settled state told
  have bounds : settled.1 ≤ w.nodes.length + 1 ∧ settled.2.debugger.pending = none := by
    by_cases idle : run.debugger.state.status = .idle
    · have nothing := fit.unscheduled (by simp [idle])
      rw [show settled = (0, ⟨run.debugger, []⟩) from runUntilSettled_none nothing c max]
      exact ⟨Nat.zero_le _, nothing⟩
    · have left := underway.stays_follow sameRun idle
      exact left.settles (acyclic.length_walk_le _ _) enough
  refine ⟨bounds.1, bounds.2, ?_⟩
  intro unstepped
  obtain ⟨workflow, execution⟩ := follow_unstepped (d := e.debugger) (c := c) unstepped
  have stands : Whereabouts w run.debugger run.events :=
    whereabouts_follow underway.fit underway.live (whereabouts_start? found begun) unstepped
  have live : run.debugger.workflow.bind c.workflow? = some w := by
    rw [workflow]
    exact underway.live
  obtain ⟨rests, same⟩ := whereabouts_settled fit live stands max
  have same : settled.2.debugger.execution = e.debugger.execution := same.trans execution
  cases rests with
  | going pending => exact absurd (bounds.2.symm.trans pending) (by simp)
  | ending pending => exact absurd (bounds.2.symm.trans pending) (by simp)
  | completed said => exact .inl (same ▸ said)
  | waiting paused arrival set => exact .inr (.inl ⟨paused, _, arrival, set⟩)
  | stranded idle leads unknown said =>
    exact .inr (.inr ⟨idle, _, _, leads, unknown, same ▸ said⟩)

/-- A start node, and a branch with a breakpoint that leads nowhere. -/
def slope : Workflow where
  id := "slope"
  name := "Slope"
  scope := .server
  inputs := []
  outputs := []
  locals := []
  nodes := [
    { Node.ofKind "s" .start (.ofInt 0) (.ofInt 0) with connections := ["b"] },
    { Node.ofKind "b" .branch (.ofInt 0) (.ofInt 0) with
      connections := ["ghost"], breakpoint := true }]

theorem slope_settles :
    let c : Canvas := ⟨[⟨slope, none⟩], none, {}, {}⟩
    let d := initial {} "00:00:00"
    ∃ e, d.start? c "slope" = some e ∧
      let run := e.debugger.follow ([.runPending, .resume].map (Move.on c))
      ((Event.visits run.events).map (·.node)).Nodup ∧
      (∀ event ∈ run.events, event.isStart = false) ∧
      let settled := runUntilSettled c 3 run.debugger
      let state := settled.2.debugger.state
      let told := run.events ++ settled.2.events
      settled.1 ≤ 3 ∧ settled.2.debugger.pending = none ∧
        (.completed e.debugger.execution ∈ told ∨
        (state.status = .paused ∧
          ∃ n, state.current.bind slope.node? = some n ∧ n.breakpoint = true) ∨
        (state.status = .idle ∧
          ∃ source target, slope.Leads source target ∧ slope.node? target = none ∧
            .halted e.debugger.execution ("Error: Node " ++ target ++ " not found.") ∈ told)) := by
  intro c d
  have acyclic : slope.Acyclic :=
    Workflow.acyclic_of_rank (fun id => if id = "s" then 2 else if id = "b" then 1 else 0)
      (by decide)
  obtain ⟨e, begun⟩ : ∃ e, d.start? c "slope" = some e := ⟨_, rfl⟩
  obtain ⟨unrepeated, settles⟩ :=
    acyclic_runs_settle (w := slope) rfl acyclic begun [.runPending, .resume]
  have sameRun : ∀ event ∈ (e.debugger.follow ([.runPending, .resume].map (Move.on c))).events,
      event.isStart = false := by
    cases begun
    decide +kernel
  obtain ⟨bound, nothing, rests⟩ := settles sameRun 3 (Nat.le_refl _)
  exact ⟨e, begun, unrepeated, sameRun, bound, nothing, rests (by simp)⟩

end Debugger

end Stepflow
