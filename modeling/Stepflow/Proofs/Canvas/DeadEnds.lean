import Stepflow.Proofs.Canvas.Undo

/-!
# Dead ends of a history

A snapshot with a coordinate that is not finite, or with config nested too deep, cannot be read. A
move through the history that leads to one fails: what is live stays, but the cursor has moved on
to the snapshot.

* `Way`: undo and redo, with the place they lead to;
* `Canvas.stuck_travel`: how a failed move ends;
* `Canvas.travel_fails_iff`: when a move fails;
* `Canvas.failed_moves_shift_cursor`: all that is live, the selection and other workflows stay as
  they were, and so does the workflow's place in its history, unless it is led to a dead end.
-/

namespace Stepflow

/-- The two ways through a history. -/
inductive Way where
  | back
  | forward

namespace Way

def edit (id : String) : Way → Edit
  | .back => .undo id
  | .forward => .redo id

def move : Way → History → Option History
  | .back => History.back?
  | .forward => History.forward?

/-- The history goes on this way. -/
def room (h : History) : Way → Bool
  | .back => h.canUndo
  | .forward => h.canRedo

/-- Where the next snapshot is. -/
def place (h : History) : Way → Nat
  | .back => h.cursor - 1
  | .forward => h.cursor + 1

def reverse : Way → Way
  | .back => .forward
  | .forward => .back

theorem move_eq (way : Way) (h : History) :
    way.move h = if way.room h then some { h with cursor := way.place h } else none := by
  cases way <;> rfl

theorem place_ne {way : Way} {h : History} (room : way.room h = true) : way.place h ≠ h.cursor := by
  cases way with
  | back =>
    have above : 0 < h.cursor := of_decide_eq_true room
    simp only [place]
    omega
  | forward =>
    simp only [place]
    omega

/-- Who has gone one way may go back. -/
theorem room_reverse {way : Way} {h : History} (inside : h.cursor < h.snapshots.length)
    (room : way.room h = true) : way.reverse.room { h with cursor := way.place h } = true := by
  cases way with
  | back =>
    have above : 0 < h.cursor := of_decide_eq_true room
    refine decide_eq_true ?_
    simp only [place]
    omega
  | forward => simp [reverse, Way.room, History.canUndo, place]

end Way

namespace History

variable {h : History} {way : Way}

/-- The next snapshot this way cannot be read. -/
def DeadEnd (h : History) (way : Way) : Prop :=
  way.room h = true ∧
    ∀ text v, h.snapshots[way.place h]? = some text → Workflow.restore text ≠ .ok v

/-- What is written over the snapshot under the cursor does not change the ways. -/
theorem replaceCurrent_eq (inside : h.cursor < h.snapshots.length) (w : Workflow) :
    h.replaceCurrent w = { h with snapshots := h.snapshots.set h.cursor w.snapshot } :=
  if_pos inside

theorem move_replaceCurrent (inside : h.cursor < h.snapshots.length) (w : Workflow) (way : Way) :
    way.move (h.replaceCurrent w)
      = if way.room h then some { h.replaceCurrent w with cursor := way.place h } else none := by
  rw [way.move_eq, replaceCurrent_eq inside]
  cases way <;> simp [Way.room, Way.place, canUndo, canRedo]

theorem room_moved (inside : h.cursor < h.snapshots.length) (w : Workflow) (way : Way) (i : Nat) :
    way.room { h.replaceCurrent w with cursor := i } = way.room { h with cursor := i } := by
  rw [replaceCurrent_eq inside]
  cases way <;> simp [Way.room, canUndo, canRedo]

end History

namespace Workflow

/-- A coordinate that is not finite makes a dead end. -/
theorem restore_unplaced {w : Workflow} {n : Node} (member : n ∈ w.nodes) (unplaced : ¬n.Placed) :
    restore w.snapshot = .error .undecodable := by
  rw [restore_snapshot, reread?_unplaced member unplaced]
  rfl

end Workflow

namespace Canvas

variable {c : Canvas} {id : String} {s : Sheet} {h : History} {way : Way}

def history? (c : Canvas) (id : String) : Option History := (c.sheet? id).bind (·.history)

theorem canUndo_eq (c : Canvas) (id : String) : c.canUndo id = (c.history? id).any (·.canUndo) := by
  cases found : c.sheet? id <;> simp [canUndo, history?, Sheet.canUndo, found]

theorem canRedo_eq (c : Canvas) (id : String) : c.canRedo id = (c.history? id).any (·.canRedo) := by
  cases found : c.sheet? id <;> simp [canRedo, history?, Sheet.canRedo, found]

theorem inside_of_kept (kept : c.Kept) (found : c.sheet? id = some s) (has : s.history = some h) :
    h.cursor < h.snapshots.length :=
  ((kept.sheets s (sheet?_eq_some found).1).shaped h has).inside

theorem history?_found (found : c.sheet? id = some s) (has : s.history = some h) :
    c.history? id = some h := by
  rw [history?, found, Option.bind_some, has]

theorem canRedo_of_history? (had : c.history? id = some h) {yes : Bool} (redo : h.canRedo = yes) :
    c.canRedo id = yes := by
  rw [canRedo_eq, had, Option.any_some, redo]

/-- How a failed move ends. What is live is written over its snapshot even so. -/
inductive Stuck (c : Canvas) (id : String) (way : Way) : Canvas → Prop where
  | unknown (absent : c.history? id = none) : Stuck c id way c
  | atEdge {s : Sheet} {h : History} (found : c.sheet? id = some s) (has : s.history = some h)
      (edge : way.room h = false) :
      Stuck c id way (c.setSheet id ⟨s.workflow, some (h.replaceCurrent s.workflow)⟩)
  | deadEnd {s : Sheet} {h : History} (found : c.sheet? id = some s) (has : s.history = some h)
      (dead : h.DeadEnd way) :
      Stuck c id way (c.setSheet id ⟨s.workflow,
        some { h.replaceCurrent s.workflow with cursor := way.place h }⟩)

theorem stuck_travel (kept : c.Kept) (failed : (c.travel id way.move).1 = false) :
    c.Stuck id way (c.travel id way.move).2 := by
  cases found : c.sheet? id with
  | none =>
    have still : (c.travel id way.move).2 = c := by simp [travel, found]
    rw [still]
    exact .unknown (by simp [history?, found])
  | some s =>
    obtain ⟨live, history⟩ := s
    cases history with
    | none =>
      have still : (c.travel id way.move).2 = c := by simp [travel, found]
      rw [still]
      exact .unknown (by simp [history?, found])
    | some h =>
      have inside := inside_of_kept kept found rfl
      have moves := History.move_replaceCurrent inside live way
      by_cases room : way.room h = true
      · rw [if_pos room] at moves
        have unread : ∀ v, History.current?
            { h.replaceCurrent live with cursor := way.place h } ≠ some (.ok v) := by
          intro v current
          simp [travel, found, moves, current] at failed
        have dead : h.DeadEnd way := by
          refine ⟨room, fun text v there read => unread v ?_⟩
          -- the snapshot that was written over is another one
          rw [History.current?, History.replaceCurrent_eq inside,
            List.getElem?_set_ne (Way.place_ne room).symm, there, Option.map_some, read]
        have shifted : (c.travel id way.move).2 = c.setSheet id
            ⟨live, some { h.replaceCurrent live with cursor := way.place h }⟩ := by
          rcases current : History.current?
            { h.replaceCurrent live with cursor := way.place h } with _ | failure | v
          · simp [travel, found, moves, current]
          · simp [travel, found, moves, current]
          · exact absurd current (unread v)
        rw [shifted]
        exact .deadEnd found rfl dead
      · rw [if_neg room] at moves
        have stays : (c.travel id way.move).2
            = c.setSheet id ⟨live, some (h.replaceCurrent live)⟩ := by
          simp [travel, found, moves]
        rw [stays]
        exact .atEdge found rfl (by simpa using room)

/-- A move fails at either end of a history, at a dead end, and without a history. -/
theorem travel_fails_iff (kept : c.Kept) : (c.travel id way.move).1 = false ↔
    ∀ h, c.history? id = some h → way.room h = false ∨ h.DeadEnd way := by
  constructor
  · intro failed h had
    have stuck := stuck_travel kept failed
    generalize (c.travel id way.move).2 = d at stuck
    cases stuck with
    | unknown absent => cases absent.symm.trans had
    | atEdge found has edge =>
      cases (history?_found found has).symm.trans had
      exact .inl edge
    | deadEnd found has dead =>
      cases (history?_found found has).symm.trans had
      exact .inr dead
  · intro closed
    cases found : c.sheet? id with
    | none => simp [travel, found]
    | some s =>
      obtain ⟨live, history⟩ := s
      cases history with
      | none => simp [travel, found]
      | some h =>
        have inside := inside_of_kept kept found rfl
        have moves := History.move_replaceCurrent inside live way
        rcases closed h (history?_found found rfl) with edge | ⟨room, unread⟩
        · simp [travel, found, moves, edge]
        · rw [if_pos room] at moves
          simp only [travel, found, moves]
          split
          · rename_i v current
            obtain ⟨text, there, read⟩ := Option.map_eq_some_iff.1 current
            rw [History.replaceCurrent_eq inside,
              List.getElem?_set_ne (Way.place_ne room).symm] at there
            exact absurd read (unread text v there)
          · rfl

theorem workflows_setHistory (found : c.sheet? id = some s) (history : Option History) :
    (c.setSheet id ⟨s.workflow, history⟩).workflows = c.workflows := by
  rw [setSheet_found found fun t => ⟨s.workflow, history⟩, workflows, workflows, modifySheet]
  refine map_modifyFirst_found fun t first => ?_
  cases found.symm.trans first
  rfl

theorem sheet?_setHistory (found : c.sheet? id = some s) (history : Option History)
    (other : String) : (c.setSheet id ⟨s.workflow, history⟩).sheet? other
      = if other = id then some ⟨s.workflow, history⟩ else c.sheet? other := by
  have named : (⟨s.workflow, history⟩ : Sheet).workflow.id = id := (sheet?_eq_some found).2
  rw [sheet?_setSheet c named, found]
  rfl

theorem history?_setHistory (found : c.sheet? id = some s) (history : Option History) :
    (c.setSheet id ⟨s.workflow, history⟩).history? id = history := by
  rw [history?, sheet?_setHistory found, if_pos rfl]
  rfl

variable {d : Canvas}

/-- A failed move touches neither what is live nor the selection. -/
theorem live_stuck (stuck : c.Stuck id way d) :
    d.workflows = c.workflows ∧ d.selection = c.selection := by
  cases stuck with
  | unknown absent => exact ⟨rfl, rfl⟩
  | atEdge found has edge => exact ⟨workflows_setHistory found _, rfl⟩
  | deadEnd found has dead => exact ⟨workflows_setHistory found _, rfl⟩

theorem sheet?_stuck (stuck : c.Stuck id way d) {other : String} (apart : other ≠ id) :
    d.sheet? other = c.sheet? other := by
  cases stuck with
  | unknown absent => rfl
  | atEdge found has edge => rw [sheet?_setHistory found, if_neg apart]
  | deadEnd found has dead => rw [sheet?_setHistory found, if_neg apart]

/-- A move that is not led to a dead end leaves the cursor where it was. -/
theorem open_stuck (kept : c.Kept) (stuck : c.Stuck id way d)
    (clear : ∀ h, c.history? id = some h → ¬h.DeadEnd way) :
    d.canUndo id = c.canUndo id ∧ d.canRedo id = c.canRedo id := by
  cases stuck with
  | unknown absent => exact ⟨rfl, rfl⟩
  | @atEdge s h found has edge =>
    have inside := inside_of_kept kept found has
    simp [canUndo_eq, canRedo_eq, history?_setHistory found, history?_found found has,
      History.replaceCurrent_eq inside, History.canUndo, History.canRedo]
  | deadEnd found has dead => exact absurd dead (clear _ (history?_found found has))

/-- A dead end takes the cursor with it. -/
theorem shifted_stuck (kept : c.Kept) (stuck : c.Stuck id way d) (had : c.history? id = some h)
    (dead : h.DeadEnd way) :
    ∃ h', d.history? id = some h' ∧ h'.cursor = way.place h ∧
      h'.snapshots.length = h.snapshots.length ∧ way.reverse.room h' = true := by
  cases stuck with
  | unknown absent => cases absent.symm.trans had
  | atEdge found has edge =>
    cases (history?_found found has).symm.trans had
    cases edge.symm.trans dead.1
  | deadEnd found has =>
    cases (history?_found found has).symm.trans had
    have inside := inside_of_kept kept found has
    refine ⟨_, history?_setHistory found _, rfl, ?_, ?_⟩
    · rw [History.replaceCurrent_eq inside, List.length_set]
    · rw [History.room_moved inside]
      exact Way.room_reverse inside dead.1

theorem isRefusal_accepted (yes : Bool) : (Reply.accepted yes).isRefusal = !yes := by
  cases yes <;> rfl

theorem perform_way (fresh : Nat → String) (c : Canvas) (id : String) (way : Way) :
    (c.perform fresh (way.edit id)).reply.isRefusal = !(c.travel id way.move).1 ∧
      (c.perform fresh (way.edit id)).canvas = (c.travel id way.move).2 := by
  cases way <;> exact ⟨isRefusal_accepted _, rfl⟩

/-- **A failed undo or redo changes nothing but the place in the history.** It fails for want of a
snapshot to go to, or because that snapshot cannot be read. What is live and the selection stay as
they were, and other workflows with all their history. What can be undone and redone stays as well,
unless there was a snapshot: then the cursor is on it, and the way back is open. -/
theorem failed_moves_shift_cursor {admits : Canvas → (Nat → String) → Edit → Prop}
    {settings : Settings} (reachable : Reachable admits settings c) (fresh : Nat → String)
    (id : String) (way : Way) :
    let result := c.perform fresh (way.edit id)
    let after := result.canvas
    (result.reply.isRefusal = true ↔
      ∀ h, c.history? id = some h → way.room h = false ∨ h.DeadEnd way) ∧
    (result.reply.isRefusal = true →
      after.workflows = c.workflows ∧ after.selection = c.selection ∧
      (∀ other ≠ id, after.sheet? other = c.sheet? other) ∧
      ((∀ h, c.history? id = some h → ¬h.DeadEnd way) →
        ∀ any, after.canUndo any = c.canUndo any ∧ after.canRedo any = c.canRedo any) ∧
      ∀ h, c.history? id = some h → h.DeadEnd way →
        ∃ h', after.history? id = some h' ∧ h'.cursor = way.place h ∧
          h'.snapshots.length = h.snapshots.length ∧ way.reverse.room h' = true) := by
  intro result after
  have kept := reachable_kept reachable
  obtain ⟨answer, same⟩ := perform_way fresh c id way
  have answered : result.reply.isRefusal = true ↔ (c.travel id way.move).1 = false := by
    simp [result, answer]
  refine ⟨answered.trans (travel_fails_iff kept), fun failed => ?_⟩
  have stuck : c.Stuck id way after := by
    have left := stuck_travel kept (answered.1 failed)
    rwa [← same] at left
  obtain ⟨workflows, selection⟩ := live_stuck stuck
  refine ⟨workflows, selection, fun other apart => sheet?_stuck stuck apart, ?_, ?_⟩
  · intro clear any
    by_cases own : any = id
    · rw [own]
      exact open_stuck kept stuck clear
    · simp only [canUndo, canRedo, sheet?_stuck stuck own, and_self]
  · intro h had dead
    exact shifted_stuck kept stuck had dead

/-- A node at `x`, and a copy of it, as far away again, that was removed. -/
def copied (x : Double.Finite) : Canvas :=
  let blank := created { layout := ⟨.finite x, .finite x, .finite x, 1000⟩ }
  let added := (blank.perform (fun _ => "a")
    (.addNode "w" .action (.finite x) (.ofInt 0))).canvas
  let both := (added.perform (fun _ => "b") (.duplicateNode "w" "a")).canvas
  (both.perform (fun _ => "") (.removeNode "w" "b")).canvas

theorem reachable_copied (x : Double.Finite) :
    Reachable (fun _ _ _ => True) { layout := ⟨.finite x, .finite x, .finite x, 1000⟩ }
      (copied x) :=
  .perform _ _ (.perform _ _ (.perform _ _ (.perform _ _ .empty trivial) trivial) trivial) trivial

/-- A copy beyond all finite places leaves a dead end, also when it is gone. -/
theorem deadEnd_copied {x : Double.Finite} {negative : Bool}
    (beyond : (Double.finite x).add (.finite x) = .infinite negative) :
    ∃ h, (copied x).history? "w" = some h ∧ h.canRedo = false ∧ h.DeadEnd .back := by
  let blank := Workflow.blank "w" "s" "A" .server
  let node := Node.ofKind "a" .action (.finite x) (.ofInt 0)
  let added := blank.addNode node
  let both := added.addNode (Workflow.copy node "b" (.finite x))
  let kept := both.removeNode "b"
  let one := created { layout := ⟨.finite x, .finite x, .finite x, 1000⟩ }
  let two := (one.perform (fun _ => "a") (.addNode "w" .action (.finite x) (.ofInt 0))).canvas
  let three := (two.perform (fun _ => "b") (.duplicateNode "w" "a")).canvas
  have first : one.sheet? "w" = some ⟨blank, some ⟨[blank.snapshot], 0, 100⟩⟩ := rfl
  have second : two.sheet? "w"
      = some ⟨added, some ⟨[blank.snapshot, added.snapshot], 1, 100⟩⟩ :=
    sheet?_perform_restructure (e := .addNode "w" .action (.finite x) (.ofInt 0)) rfl first
  have third : three.sheet? "w"
      = some ⟨both, some ⟨[blank.snapshot, added.snapshot, both.snapshot], 2, 100⟩⟩ :=
    sheet?_perform_restructure (e := .duplicateNode "w" "a") rfl second
  have fourth : (copied x).sheet? "w" = some ⟨kept, some
      ⟨[blank.snapshot, added.snapshot, both.snapshot, kept.snapshot], 3, 100⟩⟩ :=
    sheet?_perform_restructure (c := three) (e := .removeNode "w" "b") rfl third
  refine ⟨_, history?_found fourth rfl, rfl, rfl, ?_⟩
  intro text v there read
  obtain rfl : both.snapshot = text := Option.some.inj there
  have unplaced : ¬(Workflow.copy node "b" (.finite x)).Placed := by
    rintro ⟨⟨y, finite⟩, -⟩
    cases beyond.symm.trans finite
  have lost : Workflow.restore both.snapshot = .error .undecodable :=
    Workflow.restore_unplaced (.tail _ (.tail _ (.head _))) unplaced
  cases read.symm.trans lost

/-- Half of the range of doubles. -/
def far : Double.Finite :=
  ⟨false, Double.step 52 * Double.step 2045, Double.fits_scaled (by decide) (by decide)⟩

theorem far_add_far : (Double.finite far).add (.finite far) = .infinite false := by decide +kernel

/-- The copy of a node halfway to infinity is removed again, and then undo fails but leaves
something to redo. -/
theorem failed_undo_shifts_cursor :
    ((copied far).perform (fun _ => "") (.undo "w")).reply.isRefusal = true ∧
    (copied far).canRedo "w" = false ∧
    ((copied far).perform (fun _ => "") (.undo "w")).canvas.canRedo "w" = true ∧
    ((copied far).perform (fun _ => "") (.undo "w")).canvas.workflows = (copied far).workflows ∧
    ((copied far).perform (fun _ => "") (.undo "w")).canvas.selection
      = (copied far).selection := by
  have reachable := reachable_copied far
  obtain ⟨h, had, last, dead⟩ := deadEnd_copied far_add_far
  -- the canvas is not computed from here on
  generalize copied far = c at reachable had ⊢
  obtain ⟨fails, leaves⟩ := failed_moves_shift_cursor reachable (fun _ => "") "w" .back
  have refused := fails.2 fun k hadk => by
    cases had.symm.trans hadk
    exact .inr dead
  obtain ⟨workflows, selection, -, -, shifted⟩ := leaves refused
  obtain ⟨h', has, -, -, back⟩ := shifted h had dead
  exact ⟨refused, canRedo_of_history? had last, canRedo_of_history? has back, workflows, selection⟩

end Canvas

end Stepflow
