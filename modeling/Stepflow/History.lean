import Stepflow.Workflow.Document

/-!
# History of a workflow

Snapshots of the whole workflow as text, oldest first, with a cursor at the one that stands for
the live workflow. Restoring a snapshot replaces the workflow, so no edit needs an inverse.

Moving the cursor and reading the snapshot under it are separate: a snapshot may not be readable,
since a coordinate that is not finite has no text, and the cursor has moved all the same.

Numbers are read approximately, so a coordinate with many digits may come back as a neighbour.
-/

namespace Stepflow

structure History where
  snapshots : List String
  cursor : Nat
  limit : Nat

namespace Workflow

def snapshot (w : Workflow) : String := w.encode.render

def restore (text : String) : Except Failure Workflow :=
  match Json.Decoder.decode? decoder text with
  | some w => .ok w
  | none => .error .undecodable

end Workflow

namespace History

/-- A history that keeps `limit` snapshots, at least one. -/
def empty (limit : Nat) : History := ⟨[], 0, max 1 limit⟩

/-- The snapshots that an ordinary history keeps. -/
def defaultLimit : Nat := 100

/-- A new snapshot after the cursor, in place of all that came after it. The oldest are dropped
beyond the limit. -/
def record (h : History) (w : Workflow) : History :=
  let kept := h.snapshots.take (h.cursor + 1) ++ [w.snapshot]
  let snapshots := kept.drop (kept.length - h.limit)
  { h with snapshots := snapshots, cursor := snapshots.length - 1 }

theorem length_record_le (h : History) (w : Workflow) :
    (h.record w).snapshots.length ≤ h.limit := by
  simp only [record, List.length_drop]; omega

theorem getElem?_record (h : History) (w : Workflow) (pos : 0 < h.limit) :
    (h.record w).snapshots[(h.record w).cursor]? = some w.snapshot := by
  have last : (h.record w).snapshots.getLast? = some w.snapshot := by
    simp only [record, List.getLast?_drop, List.getLast?_concat]
    rw [if_neg]; simp; omega
  rwa [List.getLast?_eq_getElem?] at last

/-- Let the snapshot under the cursor be `w`. -/
def replaceCurrent (h : History) (w : Workflow) : History :=
  if h.cursor < h.snapshots.length then
    { h with snapshots := h.snapshots.set h.cursor w.snapshot }
  else { h with snapshots := h.snapshots ++ [w.snapshot] }

/-- The snapshot may be new: an empty history has none under its cursor. -/
theorem getElem?_replaceCurrent (h : History) (w : Workflow)
    (bound : h.cursor ≤ h.snapshots.length) :
    (h.replaceCurrent w).snapshots[(h.replaceCurrent w).cursor]? = some w.snapshot := by
  unfold replaceCurrent
  split
  · simp [*]
  · rw [show h.cursor = h.snapshots.length by omega]; simp

def canUndo (h : History) : Bool := 0 < h.cursor

def canRedo (h : History) : Bool := h.cursor + 1 < h.snapshots.length

def back? (h : History) : Option History :=
  if h.canUndo then some { h with cursor := h.cursor - 1 } else none

def forward? (h : History) : Option History :=
  if h.canRedo then some { h with cursor := h.cursor + 1 } else none

/-- The workflow under the cursor, unless there are no snapshots. -/
def current? (h : History) : Option (Except Failure Workflow) :=
  h.snapshots[h.cursor]?.map Workflow.restore

end History

end Stepflow
