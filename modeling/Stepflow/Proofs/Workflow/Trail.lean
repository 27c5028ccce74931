import Mathlib.Data.List.DropRight
import Stepflow.Proofs.Workflow.Restoring

/-!
# A history as past, present and future

What a history does can be told without snapshots, cursor and limit of a list: there is a present
state, states before it and states after it. A history follows such a trail call for call. Only
what is read from a snapshot may differ from the state it was taken of, in its numbers.

* `Trail.call`: what a call makes of the states, and which of them it answers with;
* `Trail.All.run`: every answer is a state that was brought along;
* `History.Follows`: the snapshots and the cursor of a history, as its trail has them;
* `History.Follows.call`, `History.Follows.run`: one call and a whole run;
* `History.histories_follow_trails`: every run follows its trail, within the bounds of the cursor.
-/

namespace Stepflow

/-- What may be asked of a history on its own. -/
inductive History.Call where
  | record (w : Workflow)
  | replace (w : Workflow)
  | undo
  | redo
  | current

/-- The workflow that a call brings along. -/
def History.Call.workflow? : Call → Option Workflow
  | .record w | .replace w => some w
  | .undo | .redo | .current => none

/-- The states of a workflow: those before, the latest first, the present one, and those that were
left by going back, the next first. -/
structure Trail where
  past : List Workflow
  present : Workflow
  future : List Workflow

namespace Trail

variable {t : Trail}

/-- All states, the oldest first. -/
def states (t : Trail) : List Workflow := t.past.reverse ++ t.present :: t.future

/-- The states up to the present one, which comes first. -/
def untilNow : Option Trail → List Workflow
  | none => []
  | some t => t.present :: t.past

/-- A new state, after which nothing comes. With those before it there are at most `limit` states,
but always the new one. -/
def record (limit : Nat) (w : Workflow) (t : Option Trail) : Trail :=
  ⟨(untilNow t).take (max 1 limit - 1), w, []⟩

def replace (w : Workflow) : Option Trail → Trail
  | none => ⟨[], w, []⟩
  | some t => { t with present := w }

def back? (t : Trail) : Option Trail :=
  match t.past with
  | [] => none
  | w :: earlier => some ⟨earlier, w, t.present :: t.future⟩

def forward? (t : Trail) : Option Trail :=
  match t.future with
  | [] => none
  | w :: later => some ⟨t.present :: t.past, w, later⟩

/-- Go somewhere and say what is there, if there is anything. -/
def go (t : Option Trail) (move : Trail → Option Trail) : Option Trail × Option Workflow :=
  match t.bind move with
  | some t' => (some t', some t'.present)
  | none => (t, none)

/-- What a call makes of a trail, which is none at first, and the state it answers with. -/
def call (limit : Nat) (t : Option Trail) : History.Call → Option Trail × Option Workflow
  | .record w => (some (record limit w t), none)
  | .replace w => (some (replace w t), none)
  | .undo => go t back?
  | .redo => go t forward?
  | .current => (t, t.map (·.present))

/-- One call after the other, with all answers. -/
def run (limit : Nat) (t : Option Trail) :
    List History.Call → Option Trail × List (Option Workflow)
  | [] => (t, [])
  | c :: rest =>
    let (t', answer) := call limit t c
    let (last, answers) := run limit t' rest
    (last, answer :: answers)

/-! What all states have in common -/

variable {t' : Trail} {o : Option Trail} {limit : Nat} {p : Workflow → Prop}

theorem states_back? (moved : t.back? = some t') : t'.states = t.states := by
  obtain ⟨past, present, future⟩ := t
  cases past with
  | nil => cases moved
  | cons w earlier =>
    cases moved
    simp [states]

theorem states_forward? (moved : t.forward? = some t') : t'.states = t.states := by
  obtain ⟨past, present, future⟩ := t
  cases future with
  | nil => cases moved
  | cons w later =>
    cases moved
    simp [states]

/-- Every state is such that `p`. -/
def All (p : Workflow → Prop) (o : Option Trail) : Prop := ∀ t ∈ o, ∀ w ∈ t.states, p w

theorem All.record (all : All p o) {w : Workflow} (new : p w) :
    All p (some (record limit w o)) := by
  intro t recorded v member
  cases recorded
  have place : v ∈ (untilNow o).take (max 1 limit - 1) ∨ v = w := by
    simpa [Trail.record, states] using member
  rcases place with old | rfl
  · have kept := List.mem_of_mem_take old
    cases o with
    | none => cases kept
    | some t =>
      refine all t rfl v ?_
      rcases List.mem_cons.1 kept with rfl | before
      · exact List.mem_append_right _ (.head _)
      · exact List.mem_append_left _ (List.mem_reverse.2 before)
  · exact new

theorem All.replace (all : All p o) {w : Workflow} (new : p w) :
    All p (some (replace w o)) := by
  intro t replaced v member
  cases replaced
  cases o with
  | none => exact List.mem_singleton.1 member ▸ new
  | some t =>
    rcases List.mem_append.1 member with before | rest
    · exact all t rfl v (List.mem_append_left _ before)
    · rcases List.mem_cons.1 rest with rfl | after
      · exact new
      · exact all t rfl v (List.mem_append_right _ (.tail _ after))

theorem All.go (all : All p o) {move : Trail → Option Trail}
    (same : ∀ t t', move t = some t' → t'.states = t.states) :
    All p (go o move).1 ∧ ∀ w ∈ (go o move).2, p w := by
  unfold Trail.go
  cases moved : o.bind move with
  | none => exact ⟨all, fun w none => by cases none⟩
  | some t' =>
    obtain ⟨t, rfl, led⟩ := Option.bind_eq_some_iff.1 moved
    have kept : All p (some t') := by
      intro t'' own w member
      cases own
      exact all t rfl w (same t t' led ▸ member)
    refine ⟨kept, fun w answer => ?_⟩
    cases answer
    exact kept t' rfl _ (List.mem_append_right _ (.head _))

theorem All.call (all : All p o) (limit : Nat) (c : History.Call)
    (brought : ∀ w ∈ c.workflow?, p w) :
    All p (call limit o c).1 ∧ ∀ w ∈ (call limit o c).2, p w := by
  cases c with
  | record w => exact ⟨all.record (brought w rfl), fun w none => by cases none⟩
  | replace w => exact ⟨all.replace (brought w rfl), fun w none => by cases none⟩
  | undo => exact all.go fun t t' => states_back?
  | redo => exact all.go fun t t' => states_forward?
  | current =>
    refine ⟨all, fun w answer => ?_⟩
    obtain ⟨t, present, rfl⟩ := Option.map_eq_some_iff.1 answer
    exact all t present _ (List.mem_append_right _ (.head _))

/-- No state comes from nowhere. -/
theorem All.run (all : All p o) (calls : List History.Call)
    (brought : ∀ c ∈ calls, ∀ w ∈ c.workflow?, p w) :
    ∀ answer ∈ (run limit o calls).2, ∀ w ∈ answer, p w := by
  induction calls generalizing o with
  | nil => simp [Trail.run]
  | cons c rest ih =>
    obtain ⟨after, answered⟩ := all.call limit c (brought c (.head _))
    intro answer member
    rcases List.mem_cons.1 member with rfl | later
    · exact answered
    · exact ih after (fun c' listed => brought c' (.tail _ listed)) answer later

end Trail

namespace History

variable {h : History} {t : Trail} {limit : Nat}

def go (h : History) (move : History → Option History) :
    History × Option (Except Failure Workflow) :=
  match move h with
  | some h' => (h', h'.current?)
  | none => (h, none)

/-- What a call makes of a history, and what it answers with. -/
def call (h : History) : Call → History × Option (Except Failure Workflow)
  | .record w => (h.record w, none)
  | .replace w => (h.replaceCurrent w, none)
  | .undo => h.go back?
  | .redo => h.go forward?
  | .current => (h, h.current?)

def run (h : History) : List Call → History × List (Option (Except Failure Workflow))
  | [] => (h, [])
  | c :: rest =>
    let (h', answer) := h.call c
    let (last, answers) := h'.run rest
    (last, answer :: answers)

/-- The snapshots are those of the states of a trail, and the cursor is on the present one. -/
structure Follows (limit : Nat) (h : History) (t : Option Trail) : Prop where
  bound : h.limit = max 1 limit
  snapshots : h.snapshots = (t.elim [] Trail.states).map Workflow.snapshot
  cursor : h.cursor = t.elim 0 (·.past.length)
  short : h.snapshots.length ≤ max 1 limit

/-- What is read from the snapshot of a state. -/
def reading (w : Workflow) : Except Failure Workflow := Workflow.restore w.snapshot

namespace Follows

variable {o : Option Trail}

theorem empty (limit : Nat) : (History.empty limit).Follows limit none :=
  ⟨rfl, rfl, rfl, Nat.zero_le _⟩

theorem current? (follows : h.Follows limit o) :
    h.current? = (o.map (·.present)).map reading := by
  rw [History.current?, follows.snapshots, follows.cursor]
  cases o with
  | none => rfl
  | some t => simp [Trail.states, reading]

theorem record (follows : h.Follows limit o) (w : Workflow) :
    (h.record w).Follows limit (some (Trail.record limit w o)) := by
  have kept : h.snapshots.take (h.cursor + 1) ++ [w.snapshot]
      = ((w :: Trail.untilNow o).map Workflow.snapshot).reverse := by
    rw [follows.snapshots, follows.cursor]
    cases o with
    | none => rfl
    | some t => simp [Trail.states, Trail.untilNow, List.take_append, List.take_of_length_le]
  have newest : (h.record w).snapshots
      = ((Trail.record limit w o).states).map Workflow.snapshot := by
    obtain ⟨others, enough⟩ : ∃ others, max 1 limit = others + 1 := ⟨max 1 limit - 1, by omega⟩
    calc (h.record w).snapshots
        = (h.snapshots.take (h.cursor + 1) ++ [w.snapshot]).rtake (max 1 limit) := by
          rw [← follows.bound]
          rfl
      _ = (((w :: Trail.untilNow o).map Workflow.snapshot).take (max 1 limit)).reverse := by
          rw [kept, List.rtake_eq_reverse_take_reverse, List.reverse_reverse]
      _ = ((Trail.record limit w o).states).map Workflow.snapshot := by
          simp [Trail.record, Trail.states, enough, List.map_take]
  have last : (h.record w).cursor = (h.record w).snapshots.length - 1 := rfl
  refine ⟨follows.bound, newest, ?_, follows.bound ▸ h.length_record_le w⟩
  rw [last, newest]
  simp [Trail.states, Trail.record]

theorem replace (follows : h.Follows limit o) (w : Workflow) :
    (h.replaceCurrent w).Follows limit (some (Trail.replace w o)) := by
  have place := follows.cursor
  have snapshots := follows.snapshots
  unfold History.replaceCurrent
  cases o with
  | none =>
    have empty : h.snapshots = [] := snapshots
    rw [if_neg (by simp [empty])]
    refine ⟨follows.bound, ?_, place, ?_⟩
    · rw [empty]
      rfl
    · simp only [empty, List.nil_append, List.length_singleton]
      omega
  | some t =>
    simp only [Option.elim_some] at place snapshots
    have inside : h.cursor < h.snapshots.length := by
      simp [place, snapshots, Trail.states]
    rw [if_pos inside]
    refine ⟨follows.bound, ?_, place, by simpa using follows.short⟩
    simp [snapshots, place, Trail.states, Trail.replace]

/-- Another place in the same row of states. -/
theorem moved {t' : Trail} (follows : h.Follows limit (some t)) (same : t'.states = t.states) :
    Follows limit { h with cursor := t'.past.length } (some t') := by
  have snapshots := follows.snapshots
  simp only [Option.elim_some, ← same] at snapshots
  exact ⟨follows.bound, snapshots, rfl, follows.short⟩

theorem canUndo_iff (follows : h.Follows limit o) :
    h.canUndo = true ↔ ∃ t, o = some t ∧ t.past ≠ [] := by
  rw [History.canUndo, follows.cursor, decide_eq_true_eq]
  cases o with
  | none => simp
  | some t => simp [List.length_pos_iff]

theorem canRedo_iff (follows : h.Follows limit o) :
    h.canRedo = true ↔ ∃ t, o = some t ∧ t.future ≠ [] := by
  rw [History.canRedo, follows.cursor, follows.snapshots, decide_eq_true_eq]
  cases o with
  | none => simp
  | some t => simp [Trail.states, List.length_pos_iff]

/-- Both stay where they are, or both go back. -/
theorem back? (follows : h.Follows limit o) :
    Option.Rel (fun h t => h.Follows limit (some t)) h.back? (o.bind Trail.back?) := by
  have may := follows.canUndo_iff
  unfold History.back?
  rcases o with _ | ⟨_ | ⟨w, earlier⟩, present, future⟩
  · rw [if_neg (by simp [may])]
    exact .none
  · rw [if_neg (by simp [may])]
    exact .none
  · rw [if_pos (by simp [may]), follows.cursor]
    exact .some (follows.moved (Trail.states_back? rfl))

/-- Both stay where they are, or both go forward. -/
theorem forward? (follows : h.Follows limit o) :
    Option.Rel (fun h t => h.Follows limit (some t)) h.forward? (o.bind Trail.forward?) := by
  have may := follows.canRedo_iff
  unfold History.forward?
  rcases o with _ | ⟨past, present, _ | ⟨w, later⟩⟩
  · rw [if_neg (by simp [may])]
    exact .none
  · rw [if_neg (by simp [may])]
    exact .none
  · rw [if_pos (by simp [may]), follows.cursor]
    exact .some (follows.moved (Trail.states_forward? rfl))

theorem go (follows : h.Follows limit o) {move : History → Option History}
    {step : Trail → Option Trail}
    (alike : Option.Rel (fun h t => h.Follows limit (some t)) (move h) (o.bind step)) :
    (h.go move).1.Follows limit (Trail.go o step).1 ∧
      (h.go move).2 = (Trail.go o step).2.map reading := by
  unfold History.go Trail.go
  generalize move h = moved at alike
  generalize o.bind step = stepped at alike
  cases alike with
  | none => exact ⟨follows, rfl⟩
  | some there => exact ⟨there, there.current?⟩

theorem call (follows : h.Follows limit o) (c : Call) :
    (h.call c).1.Follows limit (Trail.call limit o c).1 ∧
      (h.call c).2 = (Trail.call limit o c).2.map reading := by
  cases c with
  | record w => exact ⟨follows.record w, rfl⟩
  | replace w => exact ⟨follows.replace w, rfl⟩
  | undo => exact follows.go follows.back?
  | redo => exact follows.go follows.forward?
  | current => exact ⟨follows, follows.current?⟩

theorem run (follows : h.Follows limit o) (calls : List Call) :
    (h.run calls).1.Follows limit (Trail.run limit o calls).1 ∧
      (h.run calls).2 = (Trail.run limit o calls).2.map (Option.map reading) := by
  induction calls generalizing h o with
  | nil => exact ⟨follows, rfl⟩
  | cons c rest ih =>
    obtain ⟨after, answer⟩ := follows.call c
    obtain ⟨last, answers⟩ := ih after
    refine ⟨last, ?_⟩
    simp only [History.run, Trail.run, List.map_cons, answer, answers]

theorem inside (follows : h.Follows limit o) :
    h.cursor < h.snapshots.length ∨ h.cursor = 0 ∧ h.snapshots = [] := by
  rw [follows.cursor, follows.snapshots]
  cases o with
  | none => exact .inr ⟨rfl, rfl⟩
  | some t => exact .inl (by simp [Trail.states])

/-- A new snapshot is the last one, and the cursor is on it. -/
theorem newest (follows : h.Follows limit o) (w : Workflow) :
    (h.record w).cursor + 1 = (h.record w).snapshots.length := by
  have next := follows.record w
  rw [next.cursor, next.snapshots]
  simp [Trail.record, Trail.states]

/-- Nothing is subtracted from a cursor at the first snapshot, and nothing added to one at the
last. -/
theorem room (follows : h.Follows limit o) {h' : History} :
    (h.back? = some h' → h'.cursor + 1 = h.cursor ∧ h'.cursor < h'.snapshots.length) ∧
    (h.forward? = some h' → h'.cursor = h.cursor + 1 ∧ h'.cursor < h'.snapshots.length) := by
  have inside := follows.inside
  unfold History.back? History.forward?
  constructor
  · intro moved
    rw [Option.ite_none_right_eq_some] at moved
    obtain ⟨may, there⟩ := moved
    have above : 0 < h.cursor := of_decide_eq_true may
    cases there
    exact ⟨Nat.sub_add_cancel above, by dsimp only; omega⟩
  · intro moved
    rw [Option.ite_none_right_eq_some] at moved
    obtain ⟨may, there⟩ := moved
    have below : h.cursor + 1 < h.snapshots.length := of_decide_eq_true may
    cases there
    exact ⟨rfl, below⟩

end Follows

/-- **A history follows a trail of states, call for call**, whatever is recorded and in whatever
order. It answers with what is read from the snapshot of the state that the trail answers with: the
state itself, but for numbers that are read as others, or a failure, which changes nothing else. The
cursor is on a snapshot as soon as there is one, no more snapshots are kept than the limit says, and
there is a way back or forward exactly when there is a past or a future. -/
theorem histories_follow_trails (limit : Nat) (calls : List Call) :
    let h := ((History.empty limit).run calls).1
    let answers := ((History.empty limit).run calls).2
    let trail := (Trail.run limit none calls).1
    let states := (Trail.run limit none calls).2
    answers = states.map (Option.map reading) ∧
    ((∀ c ∈ calls, ∀ w ∈ c.workflow?, w.Legible) → answers = states.map (Option.map .ok)) ∧
    (∀ w, reading w = w.reread?.elim (.error .undecodable) .ok) ∧
    h.snapshots = (trail.elim [] Trail.states).map Workflow.snapshot ∧
    h.cursor = trail.elim 0 (·.past.length) ∧
    (h.cursor < h.snapshots.length ∨ h.cursor = 0 ∧ h.snapshots = []) ∧
    h.snapshots.length ≤ max 1 limit ∧
    (h.canUndo = true ↔ ∃ t, trail = some t ∧ t.past ≠ []) ∧
    (h.canRedo = true ↔ ∃ t, trail = some t ∧ t.future ≠ []) ∧
    (∀ w, (h.record w).cursor + 1 = (h.record w).snapshots.length) ∧
    ∀ h', (h.back? = some h' → h'.cursor + 1 = h.cursor ∧ h'.cursor < h'.snapshots.length) ∧
      (h.forward? = some h' → h'.cursor = h.cursor + 1 ∧ h'.cursor < h'.snapshots.length) := by
  intro h answers trail states
  obtain ⟨follows, read⟩ := (Follows.empty limit).run calls
  have legibly (legible : ∀ c ∈ calls, ∀ w ∈ c.workflow?, w.Legible) :
      answers = states.map (Option.map .ok) := by
    have all : Trail.All Workflow.Legible none := fun t none => by cases none
    refine read.trans (List.map_congr_left fun answer member => ?_)
    exact Option.map_congr fun w found =>
      Workflow.restore_legible (all.run calls legible answer member w found)
  exact ⟨read, legibly, Workflow.restore_snapshot, follows.snapshots, follows.cursor,
    follows.inside, follows.short, follows.canUndo_iff, follows.canRedo_iff, follows.newest,
    fun h' => follows.room⟩

/-- What a history that keeps two snapshots still finds of three blank workflows. -/
theorem blanks_found_again :
    ((History.empty 2).run [.record (.blank "a" "s" "First" .server),
        .record (.blank "b" "s" "Second" .server), .record (.blank "c" "s" "Third" .client),
        .undo, .undo, .redo, .current]).2
      = [none, none, none, some (.ok (.blank "b" "s" "Second" .server)), none,
        some (.ok (.blank "c" "s" "Third" .client)),
        some (.ok (.blank "c" "s" "Third" .client))] := by
  refine (histories_follow_trails 2 _).2.1 fun c listed w brought => ?_
  simp only [List.mem_cons, List.not_mem_nil, or_false] at listed
  rcases listed with rfl | rfl | rfl | rfl | rfl | rfl | rfl <;> cases brought <;>
    exact Workflow.legible_blank _ _ _ _

end History

end Stepflow
