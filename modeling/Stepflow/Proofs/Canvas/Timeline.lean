import Stepflow.Proofs.Canvas.Undo

/-!
# Moving through a history

A workflow with a history is a row of workflows with a cursor: the live one stands at the cursor,
the others are what their snapshots are read as. Undo and redo move the cursor, and edits that leave
no snapshot change the workflow under it. Nothing else happens, as long as numbers are read as they
were written.

* `Timeline`, `Sheet.Shows`: the row, and what it has to do with a sheet;
* `Wander`, `Timeline.step`: undo, redo and unrecorded edits, as they change a row;
* `Canvas.shows_wander`: the sheet follows its row;
* `Canvas.moving_loses_nothing`: so no edit is lost on the way.
-/

namespace Stepflow

structure Timeline where
  cells : List Workflow
  cursor : Nat

/-- An edit of one workflow that leaves no snapshot. -/
inductive Revision where
  | update (change : WorkflowChange)
  | updateNode (node : String) (change : NodeChange)
  | configureNode (node key : String) (value : Json.Value)
  | moveNode (node : String) (x y : Double)
  | toggleBreakpoint (node : String)

namespace Revision

def edit (id : String) : Revision → Edit
  | .update change => .updateWorkflow id change
  | .updateNode node change => .updateNode id node change
  | .configureNode node key value => .configureNode id node key value
  | .moveNode node x y => .moveNode id node x y
  | .toggleBreakpoint node => .toggleBreakpoint id node

/-- What the edit makes of the workflow, unless it is refused. -/
def change? (w : Workflow) : Revision → Option Workflow
  | .update change => some (change.apply w)
  | .updateNode node change => w.modifyNode? node change.apply
  | .configureNode node key value => w.modifyNode? node (·.configure key value)
  | .moveNode node x y => w.modifyNode? node (·.moveTo x y)
  | .toggleBreakpoint node => w.modifyNode? node Node.toggle

def apply (w : Workflow) (r : Revision) : Workflow := (r.change? w).getD w

theorem act_edit (r : Revision) (id : String) (layout : Layout) (fresh : Nat → String) :
    (r.edit id).act layout fresh = .revise id r.change? := by
  cases r <;> rfl

end Revision

/-- A step through a history, or an edit on the way. -/
inductive Wander where
  | undo
  | redo
  | revise (r : Revision)

def Wander.edit (id : String) : Wander → Edit
  | .undo => .undo id
  | .redo => .redo id
  | .revise r => r.edit id

namespace Timeline

variable {t : Timeline}

/-- At either end of the row there is nowhere to go. -/
def step (t : Timeline) : Wander → Timeline
  | .undo => { t with cursor := t.cursor - 1 }
  | .redo => { t with cursor := min (t.cursor + 1) (t.cells.length - 1) }
  | .revise r => { t with cells := t.cells.modify t.cursor r.apply }

theorem step_undo (t : Timeline) :
    t.step .undo = if 0 < t.cursor then { t with cursor := t.cursor - 1 } else t := by
  split
  · rfl
  · rename_i first
    rw [step, Nat.eq_zero_of_not_pos first]
    cases t
    cases Nat.eq_zero_of_not_pos first
    rfl

theorem step_redo (inside : t.cursor < t.cells.length) :
    t.step .redo
      = if t.cursor + 1 < t.cells.length then { t with cursor := t.cursor + 1 } else t := by
  have place : min (t.cursor + 1) (t.cells.length - 1)
      = if t.cursor + 1 < t.cells.length then t.cursor + 1 else t.cursor := by
    split <;> omega
  rw [step, place]
  split <;> rfl

def through (t : Timeline) (moves : List Wander) : Timeline := moves.foldl step t

/-- The edits that are made while the cursor is at `i`. -/
def editsAt (i : Nat) (t : Timeline) : List Wander → List Revision
  | [] => []
  | move :: rest =>
    let later := editsAt i (t.step move) rest
    match move with
    | .revise r => if t.cursor = i then r :: later else later
    | .undo | .redo => later

theorem through_cons (t : Timeline) (move : Wander) (rest : List Wander) :
    t.through (move :: rest) = (t.step move).through rest := rfl

theorem through_append (t : Timeline) (first rest : List Wander) :
    t.through (first ++ rest) = (t.through first).through rest := List.foldl_append

/-- A workflow of the row undergoes the edits that are made at its place, and no others. -/
theorem getElem?_through (t : Timeline) (moves : List Wander) (i : Nat) :
    (t.through moves).cells[i]?
      = t.cells[i]?.map fun w => (t.editsAt i moves).foldl Revision.apply w := by
  induction moves generalizing t with
  | nil => simp [through, editsAt]
  | cons move rest ih =>
    rw [through_cons, ih]
    cases move with
    | undo | redo => rfl
    | revise r =>
      by_cases here : t.cursor = i
      · simp only [editsAt, if_pos here]
        simp [here, step, Function.comp_def]
      · simp only [editsAt, if_neg here]
        simp [here, step]

theorem cells_through {moves : List Wander} (still : ∀ move ∈ moves, ∀ r, move ≠ .revise r) :
    (t.through moves).cells = t.cells := by
  induction moves generalizing t with
  | nil => rfl
  | cons move rest ih =>
    rw [through_cons, ih fun other member => still other (.tail _ member)]
    cases move with
    | undo | redo => rfl
    | revise r => exact absurd rfl (still _ (.head _) r)

theorem through_undos (t : Timeline) (k : Nat) :
    t.through (List.replicate k .undo) = { t with cursor := t.cursor - k } := by
  induction k generalizing t with
  | zero => rfl
  | succ k ih =>
    rw [List.replicate_succ, through_cons, ih]
    simp only [step, mk.injEq, true_and]
    omega

theorem through_redos (k : Nat) (room : t.cursor + k < t.cells.length) :
    t.through (List.replicate k .redo) = { t with cursor := t.cursor + k } := by
  induction k generalizing t with
  | zero => rfl
  | succ k ih =>
    have moved : t.step .redo = { t with cursor := t.cursor + 1 } := by
      simp only [step, mk.injEq, true_and]
      omega
    rw [List.replicate_succ, through_cons, moved, ih (by dsimp only; omega)]
    simp only [mk.injEq, true_and]
    omega

theorem undos_redos {k : Nat} (inside : t.cursor < t.cells.length) (room : k ≤ t.cursor) :
    t.through (List.replicate k .undo ++ List.replicate k .redo) = t := by
  rw [through_append, through_undos, through_redos]
  · dsimp only
    rw [Nat.sub_add_cancel room]
  · dsimp only
    omega

theorem redos_undos {k : Nat} (room : t.cursor + k < t.cells.length) :
    t.through (List.replicate k .redo ++ List.replicate k .undo) = t := by
  rw [through_append, through_redos k room, through_undos]
  dsimp only
  rw [Nat.add_sub_cancel]

end Timeline

/-! What a sheet shows -/

/-- The cursor is that of the history. The live workflow stands there, and elsewhere what is read
from the snapshots. -/
def Sheet.Shows (s : Sheet) (t : Timeline) : Prop :=
  ∃ h, s.history = some h ∧ t.cursor = h.cursor ∧
    (h.snapshots.map Workflow.restore).set h.cursor (.ok s.workflow) = t.cells.map .ok

namespace Sheet

variable {s : Sheet} {t : Timeline} {r : Retention} {h : History}

theorem Shows.length (shows : s.Shows t) (has : s.history = some h) :
    h.snapshots.length = t.cells.length := by
  obtain ⟨h', has', -, row⟩ := shows
  cases has.symm.trans has'
  simpa using congrArg List.length row

theorem Shows.inside (shows : s.Shows t) (kept : s.Kept r) : t.cursor < t.cells.length := by
  obtain ⟨h, has, cursor, row⟩ := shows
  rw [← Shows.length ⟨h, has, cursor, row⟩ has, cursor]
  exact (kept.shaped h has).inside

theorem Shows.live (shows : s.Shows t) (inside : t.cursor < t.cells.length) :
    t.cells[t.cursor] = s.workflow := by
  obtain ⟨h, has, cursor, row⟩ := shows
  have there : (t.cells.map .ok)[t.cursor]? = some (.ok s.workflow : Except Failure Workflow) := by
    rw [← row, cursor, List.getElem?_set_self]
    rw [List.length_map, Shows.length ⟨h, has, cursor, row⟩ has, ← cursor]
    exact inside
  rw [List.getElem?_map, List.getElem?_eq_getElem inside] at there
  exact Except.ok.inj (Option.some.inj there)

theorem shows_revised (shows : s.Shows t) (inside : t.cursor < t.cells.length) (r : Revision) :
    (s.revised r.change?).Shows (t.step (.revise r)) := by
  have live := shows.live inside
  obtain ⟨h, has, cursor, row⟩ := shows
  refine ⟨h, by rw [history_revised]; exact has, cursor, ?_⟩
  have changed : t.cells.modify t.cursor r.apply
      = t.cells.set t.cursor (r.apply s.workflow) := by
    rw [List.modify_eq_set_getElem?, List.getElem?_eq_getElem inside, live]
    rfl
  simp only [Timeline.step, changed, workflow_revised]
  rw [List.map_set, ← row, cursor, List.set_set]
  rfl

/-- Before the cursor moves the snapshots are brought up to date. -/
theorem Shows.synced (shows : s.Shows t) (inside : t.cursor < t.cells.length)
    (legible : s.workflow.Legible) (has : s.history = some h) :
    (h.replaceCurrent s.workflow).cursor = t.cursor ∧
      (h.replaceCurrent s.workflow).snapshots.map Workflow.restore = t.cells.map .ok := by
  have length := shows.length has
  obtain ⟨h', has', cursor, row⟩ := shows
  cases has.symm.trans has'
  rw [History.replaceCurrent, if_pos (by omega)]
  refine ⟨cursor.symm, ?_⟩
  rw [List.map_set, Workflow.restore_legible legible]
  exact row

/-- Where all snapshots are up to date, any of them may be the live one. -/
theorem shows_of_snapshots (row : h.snapshots.map Workflow.restore = t.cells.map .ok) {v : Workflow}
    (there : t.cells[h.cursor]? = some v) :
    h.current? = some (.ok v) ∧ Shows ⟨v, some h⟩ { t with cursor := h.cursor } := by
  have read : (h.snapshots.map Workflow.restore)[h.cursor]? = some (.ok v) := by
    rw [row, List.getElem?_map, there]
    rfl
  constructor
  · rw [History.current?, ← List.getElem?_map, read]
  · refine ⟨h, rfl, rfl, ?_⟩
    obtain ⟨inside, same⟩ := List.getElem?_eq_some_iff.1 read
    rw [← same, List.set_getElem_self, row]

end Sheet

namespace Canvas

variable {c : Canvas} {id : String} {s : Sheet} {t : Timeline}

theorem inside_of_shows (found : c.sheet? id = some s) (kept : c.Kept) (shows : s.Shows t) :
    t.cursor < t.cells.length :=
  shows.inside (kept.sheets s (sheet?_eq_some found).1)

/-- A move that leads to place `j` is answered so, and the sheet follows. -/
theorem travel_shows {move : History → Option History} {p : Prop} [Decidable p] {j : Nat}
    (found : c.sheet? id = some s) (kept : c.Kept) (shows : s.Shows t)
    (legible : s.workflow.Legible) (proper : (Act.travel id move).Proper)
    (leads : ∀ h : History, h.cursor = t.cursor → h.snapshots.length = t.cells.length →
      move h = if p then some { h with cursor := j } else none)
    (within : p → j < t.cells.length) :
    ((c.travel id move).1 = true ↔ p) ∧ ∃ s', (c.travel id move).2.sheet? id = some s' ∧
      s'.Shows (if p then { t with cursor := j } else t) := by
  have inside := inside_of_shows found kept shows
  have after := sheet?_travelled kept proper found
  obtain ⟨live, history⟩ := s
  have ⟨h, has, _⟩ := shows
  cases has
  obtain ⟨cursor, row⟩ := shows.synced inside legible rfl
  have moved := leads _ cursor (by simpa using congrArg List.length row)
  rw [after]
  by_cases accepted : p
  · have there := List.getElem?_eq_getElem (within accepted)
    rw [if_pos accepted] at moved
    obtain ⟨current, shows⟩ := Sheet.shows_of_snapshots
      (h := { h.replaceCurrent live with cursor := j }) row there
    rw [if_pos accepted]
    refine ⟨by simp [travel, found, moved, current, accepted], _, rfl, ?_⟩
    simpa [Sheet.travelled, moved, current] using shows
  · rw [if_neg accepted] at moved
    rw [if_neg accepted]
    refine ⟨by simp [travel, found, moved, accepted], _, rfl, ?_⟩
    have there : t.cells[(h.replaceCurrent live).cursor]? = some live := by
      rw [cursor, List.getElem?_eq_getElem inside, shows.live inside]
    have still := (Sheet.shows_of_snapshots row there).2
    rw [cursor] at still
    simpa [Sheet.travelled, moved] using still

theorem undo_shows (found : c.sheet? id = some s) (kept : c.Kept) (shows : s.Shows t)
    (legible : s.workflow.Legible) :
    ((c.undo id).1 = true ↔ 0 < t.cursor) ∧
      ∃ s', (c.undo id).2.sheet? id = some s' ∧ s'.Shows (t.step .undo) := by
  have inside := inside_of_shows found kept shows
  have leads (h : History) (cursor : h.cursor = t.cursor)
      (_ : h.snapshots.length = t.cells.length) :
      h.back? = if 0 < t.cursor then some { h with cursor := t.cursor - 1 } else none := by
    simp [History.back?, History.canUndo, cursor]
  rw [Timeline.step_undo]
  exact travel_shows found kept shows legible ((Edit.undo id).proper_act c.layout fun _ => "")
    leads fun _ => by omega

theorem redo_shows (found : c.sheet? id = some s) (kept : c.Kept) (shows : s.Shows t)
    (legible : s.workflow.Legible) :
    ((c.redo id).1 = true ↔ t.cursor + 1 < t.cells.length) ∧
      ∃ s', (c.redo id).2.sheet? id = some s' ∧ s'.Shows (t.step .redo) := by
  have inside := inside_of_shows found kept shows
  have leads (h : History) (cursor : h.cursor = t.cursor)
      (length : h.snapshots.length = t.cells.length) :
      h.forward? = if t.cursor + 1 < t.cells.length then some { h with cursor := t.cursor + 1 }
        else none := by
    simp [History.forward?, History.canRedo, cursor, length]
  rw [Timeline.step_redo inside]
  exact travel_shows found kept shows legible ((Edit.redo id).proper_act c.layout fun _ => "")
    leads fun room => room

/-- One edit after the other. None of them draws an id. -/
def wander (fresh : Nat → String) (id : String) (c : Canvas) (moves : List Wander) : Canvas :=
  moves.foldl (fun c move => (c.perform fresh (move.edit id)).canvas) c

theorem shows_perform (found : c.sheet? id = some s) (kept : c.Kept) (shows : s.Shows t)
    (legible : s.workflow.Legible) (fresh : Nat → String) (move : Wander) :
    ∃ s', (c.perform fresh (move.edit id)).canvas.sheet? id = some s' ∧
      s'.Shows (t.step move) := by
  cases move with
  | undo => exact (undo_shows found kept shows legible).2
  | redo => exact (redo_shows found kept shows legible).2
  | revise r =>
    have inside := inside_of_shows found kept shows
    have changed := sheet?_perform_revise (r.act_edit id c.layout fresh) found
    exact ⟨_, changed, s.shows_revised shows inside r⟩

/-- The sheet follows the row, as long as what is live can be read back. -/
theorem shows_wander (found : c.sheet? id = some s) (kept : c.Kept) (shows : s.Shows t)
    (fresh : Nat → String) (moves : List Wander)
    (legible : ∀ k, ∀ w ∈ (t.through (moves.take k)).cells, w.Legible) :
    (c.wander fresh id moves).Kept ∧
      ∃ s', (c.wander fresh id moves).sheet? id = some s' ∧ s'.Shows (t.through moves) := by
  induction moves generalizing c s t with
  | nil => exact ⟨kept, s, found, shows⟩
  | cons move rest ih =>
    have inside := inside_of_shows found kept shows
    have live : s.workflow.Legible := by
      rw [← shows.live inside]
      exact legible 0 _ (List.getElem_mem inside)
    obtain ⟨s', found', shows'⟩ := shows_perform found kept shows live fresh move
    exact ih found' (kept_perform kept fresh _) shows' fun k => legible (k + 1)

theorem workflow?_of_shows (found : c.sheet? id = some s) (shows : s.Shows t)
    (inside : t.cursor < t.cells.length) : c.workflow? id = t.cells[t.cursor]? := by
  rw [workflow?, found, List.getElem?_eq_getElem inside, shows.live inside]
  rfl

/-- Moves alone change no workflow of the row, so they end where the cursor began with what was
live there. -/
theorem wander_returns (found : c.sheet? id = some s) (kept : c.Kept) (shows : s.Shows t)
    (fresh : Nat → String) (readable : ∀ w ∈ t.cells, w.Legible) {moves : List Wander}
    (still : ∀ move ∈ moves, ∀ r, move ≠ .revise r) (returns : t.through moves = t) :
    (c.wander fresh id moves).workflow? id = c.workflow? id := by
  have inside := inside_of_shows found kept shows
  have legible (k : Nat) : ∀ w ∈ (t.through (moves.take k)).cells, w.Legible := by
    rw [Timeline.cells_through fun move member => still move (List.mem_of_mem_take member)]
    exact readable
  obtain ⟨-, s', found', shows'⟩ := shows_wander found kept shows fresh moves legible
  rw [returns] at shows'
  rw [workflow?_of_shows found' shows' inside, workflow?_of_shows found shows inside]

/-- **Moving through a history loses no edit**, as long as the workflows in it are read back as they
were written. Undo and redo are answered by whether there is a place to go to, and only go there;
an edit changes only the workflow at its place; and the live workflow is always the one at the
cursor. So an edit is found again where it was made, and moving away and back changes nothing. -/
theorem moving_loses_nothing {admits : Canvas → (Nat → String) → Edit → Prop} {settings : Settings}
    (reachable : Reachable admits settings c) (found : c.sheet? id = some s) (shows : s.Shows t)
    (fresh : Nat → String) (moves : List Wander)
    (legible : ∀ k, ∀ w ∈ (t.through (moves.take k)).cells, w.Legible) :
    let after := c.wander fresh id moves
    let t' := t.through moves
    (∃ s', after.sheet? id = some s' ∧ s'.Shows t') ∧
    after.workflow? id = t'.cells[t'.cursor]? ∧
    ((after.undo id).1 = true ↔ 0 < t'.cursor) ∧
    ((after.redo id).1 = true ↔ t'.cursor + 1 < t'.cells.length) ∧
    (∀ i, t'.cells[i]? = t.cells[i]?.map fun w => (t.editsAt i moves).foldl Revision.apply w) ∧
    (∀ k ≤ t'.cursor,
      (after.wander fresh id (List.replicate k .undo ++ List.replicate k .redo)).workflow? id
        = after.workflow? id) ∧
    ∀ k, t'.cursor + k < t'.cells.length →
      (after.wander fresh id (List.replicate k .redo ++ List.replicate k .undo)).workflow? id
        = after.workflow? id := by
  intro after t'
  obtain ⟨kept, s', found', shows'⟩ := shows_wander found (reachable_kept reachable) shows fresh
    moves legible
  have inside := inside_of_shows found' kept shows'
  have readable : ∀ w ∈ t'.cells, w.Legible := by
    have all := legible moves.length
    rwa [List.take_length] at all
  have live : s'.workflow.Legible := by
    rw [← shows'.live inside]
    exact readable _ (List.getElem_mem inside)
  refine ⟨⟨s', found', shows'⟩, workflow?_of_shows found' shows' inside,
    (undo_shows found' kept shows' live).1, (redo_shows found' kept shows' live).1,
    t.getElem?_through moves, ?_, ?_⟩
  · intro k room
    apply wander_returns found' kept shows' fresh readable
    · simp [or_imp, forall_and]
    · exact Timeline.undos_redos inside room
  · intro k room
    apply wander_returns found' kept shows' fresh readable
    · simp [or_imp, forall_and]
    · exact Timeline.redos_undos room

theorem shows_added (x y : Double) :
    let blank := Workflow.blank "w" "s" "A" .server
    let c := ((created {}).perform (fun _ => "a") (.addNode "w" .action x y)).canvas
    ∃ s, c.sheet? "w" = some s ∧ s.Shows ⟨[blank, blank.addNode (.ofKind "a" .action x y)], 1⟩ := by
  intro blank c
  have read := Workflow.restore_legible (Workflow.legible_blank "w" "s" "A" .server)
  refine ⟨⟨blank.addNode (.ofKind "a" .action x y),
    some ⟨[blank.snapshot, Workflow.snapshot _], 1, 100⟩⟩, rfl, _, rfl, rfl, ?_⟩
  rw [List.map_cons, read]
  rfl

/-- A node is moved, and one place back the workflow is renamed. -/
theorem moving_there_and_back :
    let added := Edit.addNode "w" .action (.ofInt 0) (.ofInt 0)
    let c := ((created {}).perform (fun _ => "a") added).canvas
    let blank := Workflow.blank "w" "s" "A" .server
    let t : Timeline := ⟨[blank, blank.addNode (.ofKind "a" .action (.ofInt 0) (.ofInt 0))], 1⟩
    let moves : List Wander := [.revise (.moveNode "a" (.ofInt 3) (.ofInt 4)), .undo,
      .revise (.update ⟨some "B", none⟩), .redo]
    let after := c.wander (fun _ => "") "w" moves
    let t' := t.through moves
    (∃ s', after.sheet? "w" = some s' ∧ s'.Shows t') ∧
    after.workflow? "w" = t'.cells[t'.cursor]? ∧
    ((after.undo "w").1 = true ↔ 0 < t'.cursor) ∧
    ((after.redo "w").1 = true ↔ t'.cursor + 1 < t'.cells.length) ∧
    (∀ i, t'.cells[i]? = t.cells[i]?.map fun w => (t.editsAt i moves).foldl Revision.apply w) ∧
    (∀ k ≤ t'.cursor,
      (after.wander (fun _ => "") "w"
        (List.replicate k .undo ++ List.replicate k .redo)).workflow? "w" = after.workflow? "w") ∧
    ∀ k, t'.cursor + k < t'.cells.length →
      (after.wander (fun _ => "") "w"
        (List.replicate k .redo ++ List.replicate k .undo)).workflow? "w"
        = after.workflow? "w" := by
  intro added c blank t moves
  have reachable : Reachable (fun _ _ _ => True) {} c :=
    .perform _ _ (.perform _ _ .empty trivial) trivial
  obtain ⟨s, found, shows⟩ := shows_added (.ofInt 0) (.ofInt 0)
  refine moving_loses_nothing reachable found shows _ moves fun k w member => ?_
  have plain : ∀ n ∈ w.nodes, Json.ExactDouble n.x ∧ Json.ExactDouble n.y ∧
      n.config.entries = [] := by
    revert w
    match k with
    | 0 | 1 | 2 | 3 => decide +kernel
    | k + 4 =>
      rw [List.take_of_length_le (by simp [moves])]
      decide +kernel
  intro n member
  obtain ⟨x, y, empty⟩ := plain n member
  exact ⟨x, y, by simp [empty]⟩

end Canvas

end Stepflow
