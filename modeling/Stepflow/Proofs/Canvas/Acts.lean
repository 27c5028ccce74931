import Stepflow.Canvas.Edit
import Stepflow.Proofs.Workflow.WellFormed

/-!
# What edits do to sheets

The edits of a canvas come down to a few acts on its list of sheets. What holds of all sheets is
proved act by act.

* `Edit.act`, `Canvas.undergoes_perform`: the act of each edit;
* `Act.Makes`, `Act.mem_onSheets`: where the sheets after an act come from;
* `Canvas.Reachable`: canvases after a sequence of edits.
-/

namespace Stepflow

namespace Sheet

/-- Change the workflow without a snapshot. -/
def revised (f : Workflow → Option Workflow) (s : Sheet) : Sheet :=
  match f s.workflow with
  | some w => { s with workflow := w }
  | none => s

/-- Change the workflow and leave a snapshot of the result. -/
def restructured (f : Workflow → Option Workflow) (s : Sheet) : Sheet :=
  match f s.workflow with
  | some w => { s with workflow := w }.recorded
  | none => s

/-- Move through the history. -/
def travelled (move : History → Option History) (s : Sheet) : Sheet :=
  match s.history with
  | none => s
  | some history =>
    let history := history.replaceCurrent s.workflow
    match move history with
    | none => { s with history := some history }
    | some history =>
      match history.current? with
      | some (.ok restored) => ⟨restored, some history⟩
      | _ => { s with history := some history }

/-- How a move through the history ends. -/
inductive Travel (move : History → Option History) (s : Sheet) : Sheet → Prop where
  | missing (none : s.history = none) : Travel move s s
  | stays {h : History} (has : s.history = some h)
      (stuck : move (h.replaceCurrent s.workflow) = none) :
      Travel move s ⟨s.workflow, some (h.replaceCurrent s.workflow)⟩
  | fails {h h' : History} (has : s.history = some h)
      (moved : move (h.replaceCurrent s.workflow) = some h')
      (unread : ∀ v, h'.current? ≠ some (.ok v)) : Travel move s ⟨s.workflow, some h'⟩
  | lands {h h' : History} {v : Workflow} (has : s.history = some h)
      (moved : move (h.replaceCurrent s.workflow) = some h')
      (current : h'.current? = some (.ok v)) : Travel move s ⟨v, some h'⟩

theorem travel_travelled (move : History → Option History) (s : Sheet) :
    s.Travel move (s.travelled move) := by
  cases has : s.history with
  | none =>
    rw [travelled, has]
    exact .missing has
  | some h =>
    simp only [travelled, has]
    cases moved : move (h.replaceCurrent s.workflow) with
    | none => exact .stays has moved
    | some h' =>
      rcases current : h'.current? with _ | failure | v <;> simp only [current]
      · exact .fails has moved (by simp [current])
      · exact .fails has moved (by simp [current])
      · exact .lands has moved current

end Sheet

/-- What an edit does to the sheets of a canvas. -/
inductive Act where
  /-- At most the selection changes. -/
  | rest
  | put (w : Workflow)
  | drop (id : String)
  | revise (id : String) (f : Workflow → Option Workflow)
  | restructure (id : String) (f : Workflow → Option Workflow)
  | travel (id : String) (move : History → Option History)

namespace Act

def onSheets (r : Retention) (sheets : List Sheet) : Act → List Sheet
  | .rest => sheets
  | .put w =>
    if (sheets.find? (·.workflow.id = w.id)).isSome then
      modifyFirst (·.workflow.id = w.id) (fun _ => .fresh r w) sheets
    else sheets ++ [.fresh r w]
  | .drop id => sheets.eraseP (·.workflow.id = id)
  | .revise id f => modifyFirst (·.workflow.id = id) (·.revised f) sheets
  | .restructure id f => modifyFirst (·.workflow.id = id) (·.restructured f) sheets
  | .travel id move => modifyFirst (·.workflow.id = id) (·.travelled move) sheets

/-- How an act brings about a sheet. -/
inductive Makes (r : Retention) (sheets : List Sheet) : Act → Sheet → Prop where
  | put (w : Workflow) : Makes r sheets (.put w) (.fresh r w)
  | revise {id : String} {s : Sheet} (f : Workflow → Option Workflow)
      (found : sheets.find? (·.workflow.id = id) = some s) :
      Makes r sheets (.revise id f) (s.revised f)
  | restructure {id : String} {s : Sheet} (f : Workflow → Option Workflow)
      (found : sheets.find? (·.workflow.id = id) = some s) :
      Makes r sheets (.restructure id f) (s.restructured f)
  | travel {id : String} {s : Sheet} (move : History → Option History)
      (found : sheets.find? (·.workflow.id = id) = some s) :
      Makes r sheets (.travel id move) (s.travelled move)

/-- Every sheet after an act was there before or is brought about by it. -/
theorem mem_onSheets {r : Retention} {sheets : List Sheet} {act : Act} {t : Sheet}
    (member : t ∈ act.onSheets r sheets) : t ∈ sheets ∨ act.Makes r sheets t := by
  cases act with
  | rest => exact .inl member
  | put w =>
    rw [onSheets] at member
    split at member
    · rcases mem_modifyFirst member with old | ⟨s, -, rfl⟩
      · exact .inl old
      · exact .inr (.put w)
    · rcases List.mem_append.1 member with old | added
      · exact .inl old
      · cases List.mem_singleton.1 added
        exact .inr (.put w)
  | drop id => exact .inl (List.mem_of_mem_eraseP member)
  | revise id f =>
    rcases mem_modifyFirst member with old | ⟨s, found, rfl⟩
    · exact .inl old
    · exact .inr (.revise f found)
  | restructure id f =>
    rcases mem_modifyFirst member with old | ⟨s, found, rfl⟩
    · exact .inl old
    · exact .inr (.restructure f found)
  | travel id move =>
    rcases mem_modifyFirst member with old | ⟨s, found, rfl⟩
    · exact .inl old
    · exact .inr (.travel move found)

end Act

/-- The act of an edit. -/
def Edit.act (layout : Layout) (fresh : Nat → String) : Edit → Act
  | .createWorkflow name scope => .put (.blank (fresh 0) (fresh 1) name scope)
  | .insertWorkflow w => .put w
  | .updateWorkflow id change => .revise id fun w => some (change.apply w)
  | .removeWorkflow id => .drop id
  | .selectNode _ _ | .clearSelection => .rest
  | .addNode id kind x y => .restructure id fun w => some (w.addNode (.ofKind (fresh 0) kind x y))
  | .updateNode id n change => .revise id (·.modifyNode? n change.apply)
  | .configureNode id n key value => .revise id (·.modifyNode? n (·.configure key value))
  | .moveNode id n x y => .revise id (·.modifyNode? n (·.moveTo x y))
  | .toggleBreakpoint id n => .revise id (·.modifyNode? n Node.toggle)
  | .removeNode id n => .restructure id (·.removeNode? n)
  | .duplicateNode id n => .restructure id (·.duplicateNode? n (fresh 0) layout.duplicateOffset)
  | .connect id s t port => .restructure id (·.connect? s t port)
  | .disconnect id s t => .restructure id (·.disconnect? s t)
  | .insertBetween id s t kind x y =>
    .restructure id (·.insertBetween? layout (fresh 0) s t kind x y)
  | .insertSuggested id s t suggestion x y =>
    let kind := (suggestion.map NodeKind.ofSuggestion).getD .fallback
    .restructure id (·.insertBetween? layout (fresh 0) s t kind x y)
  | .addParameter id list => .restructure id fun w => some (w.addParameter list (fresh 0))
  | .updateParameter id list p change => .restructure id (·.updateParameter? list p change)
  | .removeParameter id list p => .restructure id (·.removeParameter? list p)
  | .undo id => .travel id History.back?
  | .redo id => .travel id History.forward?

namespace Canvas

variable {c : Canvas} {id : String} {s : Sheet}

theorem sheet?_eq_some (found : c.sheet? id = some s) : s ∈ c.sheets ∧ s.workflow.id = id :=
  ⟨List.mem_of_find?_eq_some found, by simpa using List.find?_some found⟩

/-- Change the sheet that `sheet?` finds. -/
def modifySheet (c : Canvas) (id : String) (f : Sheet → Sheet) : Canvas :=
  { c with sheets := modifyFirst (·.workflow.id = id) f c.sheets }

theorem setSheet_found (found : c.sheet? id = some s) (f : Sheet → Sheet) :
    c.setSheet id (f s) = c.modifySheet id f := by
  have same : modifyFirst (·.workflow.id = id) (fun _ => f s) c.sheets
      = modifyFirst (·.workflow.id = id) f c.sheets := by
    refine modifyFirst_congr fun t first => ?_
    cases found.symm.trans first
    rfl
  rw [setSheet, same, modifySheet]

theorem setSheet_self (found : c.sheet? id = some s) : c.setSheet id s = c := by
  have same : c.setSheet id s = c.modifySheet id fun t => t := setSheet_found found fun t => t
  rw [same, modifySheet, modifyFirst_self]

theorem modifySheet_unknown (unknown : c.sheet? id = none) (f : Sheet → Sheet) :
    c.modifySheet id f = c := by
  rw [modifySheet, modifyFirst_of_find?_none unknown]

theorem getD_revise? (c : Canvas) (id : String) (f : Workflow → Option Workflow) :
    (c.revise? id f).getD c = c.modifySheet id (·.revised f) := by
  cases found : c.sheet? id with
  | none => simp [revise?, found, modifySheet_unknown]
  | some s =>
    rw [← setSheet_found found]
    cases done : f s.workflow with
    | none => simp [revise?, found, done, Sheet.revised, setSheet_self]
    | some w => simp [revise?, found, done, Sheet.revised]

theorem getD_restructure? (c : Canvas) (id : String) (f : Workflow → Option Workflow) :
    (c.restructure? id f).getD c = c.modifySheet id (·.restructured f) := by
  cases found : c.sheet? id with
  | none => simp [restructure?, found, modifySheet_unknown]
  | some s =>
    rw [← setSheet_found found]
    cases done : f s.workflow with
    | none => simp [restructure?, found, done, Sheet.restructured, setSheet_self]
    | some w => simp [restructure?, found, done, Sheet.restructured]

/-- `d` is `c` after an act, apart from the selection. -/
def Undergoes (c : Canvas) (act : Act) (d : Canvas) : Prop :=
  ∃ selection, d =
    { c with sheets := act.onSheets c.retention c.sheets, selection := selection }

theorem undergoes_insertWorkflow (c : Canvas) (w : Workflow) :
    c.Undergoes (.put w) (c.insertWorkflow w) := by
  refine ⟨c.selection, ?_⟩
  rw [insertWorkflow, Act.onSheets]
  split <;> simp_all [sheet?, setSheet]

theorem undergoes_revise? (c : Canvas) (id : String) (f : Workflow → Option Workflow) :
    c.Undergoes (.revise id f) ((c.revise? id f).getD c) :=
  ⟨c.selection, c.getD_revise? id f⟩

theorem undergoes_restructure? (c : Canvas) (id : String) (f : Workflow → Option Workflow) :
    c.Undergoes (.restructure id f) ((c.restructure? id f).getD c) :=
  ⟨c.selection, c.getD_restructure? id f⟩

theorem undergoes_travel (c : Canvas) (id : String) (move : History → Option History) :
    c.Undergoes (.travel id move) (c.travel id move).2 := by
  change ∃ selection, _ = { c.modifySheet id (·.travelled move) with selection := selection }
  cases found : c.sheet? id with
  | none =>
    rw [modifySheet_unknown found]
    exact ⟨c.selection, by simp [travel, found]⟩
  | some s =>
    rw [← setSheet_found found]
    obtain ⟨live, history⟩ := s
    cases history with
    | none => exact ⟨c.selection, by simp [travel, found, Sheet.travelled, setSheet_self]⟩
    | some history =>
      cases moved : move (history.replaceCurrent live) with
      | none => exact ⟨c.selection, by simp [travel, found, Sheet.travelled, moved, setSheet]⟩
      | some h =>
        rcases current : h.current? with _ | failure | restored
        · exact ⟨c.selection, by simp [travel, found, Sheet.travelled, moved, current, setSheet]⟩
        · exact ⟨c.selection, by simp [travel, found, Sheet.travelled, moved, current, setSheet]⟩
        · simp only [travel, found, Sheet.travelled, moved, current]
          split
          · exact ⟨_, rfl⟩
          · exact ⟨_, rfl⟩

theorem canvas_answer (o : Option Canvas) : (c.answer o).canvas = o.getD c := by
  cases o <;> rfl

theorem canvas_creation (o : Option Canvas) : (c.creation id o).canvas = o.getD c := by
  cases o <;> rfl

theorem undergoes_remove (fresh : Nat → String) (c : Canvas) (id : String) :
    c.Undergoes (.drop id) (c.perform fresh (.removeWorkflow id)).canvas := by
  cases found : c.sheet? id with
  | none =>
    have kept : c.sheets.eraseP (·.workflow.id = id) = c.sheets :=
      List.eraseP_of_forall_not fun s member => List.find?_eq_none.1 found s member
    exact ⟨c.selection, by simp [perform, removeWorkflow?, found, Act.onSheets, kept]⟩
  | some s => exact ⟨_, by simp [perform, removeWorkflow?, found, Act.onSheets]; rfl⟩

theorem undergoes_select (fresh : Nat → String) (c : Canvas) (workflow node : String) :
    c.Undergoes .rest (c.perform fresh (.selectNode workflow node)).canvas := by
  rw [perform, canvas_answer]
  cases found : c.node? workflow node with
  | none => exact ⟨c.selection, by simp [select?, found, Act.onSheets]⟩
  | some n => exact ⟨some ⟨workflow, node⟩, by simp [select?, found, Act.onSheets]⟩

theorem canvas_toggle (fresh : Nat → String) (c : Canvas) (workflow node : String) :
    (c.perform fresh (.toggleBreakpoint workflow node)).canvas
      = (c.revise? workflow (·.modifyNode? node Node.toggle)).getD c := by
  rw [perform, toggleBreakpoint?]
  cases found : c.node? workflow node with
  | none =>
    have refused : c.revise? workflow (·.modifyNode? node Node.toggle) = none := by
      cases sheet : c.sheet? workflow <;>
        simp_all [node?, workflow?, revise?, Workflow.modifyNode?, Workflow.hasNode]
    simp [refused]
  | some n => cases c.revise? workflow (·.modifyNode? node Node.toggle) <;> rfl

theorem undergoes_toggle (fresh : Nat → String) (c : Canvas) (workflow node : String) :
    c.Undergoes (.revise workflow (·.modifyNode? node Node.toggle))
      (c.perform fresh (.toggleBreakpoint workflow node)).canvas := by
  rw [canvas_toggle]
  exact c.undergoes_revise? _ _

theorem undergoes_removeNode (fresh : Nat → String) (c : Canvas) (workflow node : String) :
    c.Undergoes (.restructure workflow (·.removeNode? node))
      (c.perform fresh (.removeNode workflow node)).canvas := by
  obtain ⟨selection, same⟩ := c.undergoes_restructure? workflow (·.removeNode? node)
  rw [perform, canvas_answer, removeNode?]
  cases done : c.restructure? workflow (·.removeNode? node) with
  | none =>
    rw [done] at same
    exact ⟨selection, same⟩
  | some removed =>
    rw [done] at same
    cases (same : removed = _)
    exact ⟨_, rfl⟩

/-- Every edit is its act. -/
theorem undergoes_perform (fresh : Nat → String) (c : Canvas) (e : Edit) :
    c.Undergoes (e.act c.layout fresh) (c.perform fresh e).canvas := by
  cases e with
  | createWorkflow name scope => exact c.undergoes_insertWorkflow _
  | insertWorkflow w => exact c.undergoes_insertWorkflow w
  | removeWorkflow w => exact c.undergoes_remove fresh w
  | selectNode w n => exact c.undergoes_select fresh w n
  | clearSelection => exact ⟨none, rfl⟩
  | toggleBreakpoint w n => exact c.undergoes_toggle fresh w n
  | removeNode w n => exact c.undergoes_removeNode fresh w n
  | updateWorkflow | updateNode | configureNode | moveNode =>
    rw [perform, canvas_answer]
    exact c.undergoes_revise? _ _
  | connect | disconnect | updateParameter | removeParameter =>
    rw [perform, canvas_answer]
    exact c.undergoes_restructure? _ _
  | addNode | duplicateNode | insertBetween | insertSuggested | addParameter =>
    rw [perform, canvas_creation]
    exact c.undergoes_restructure? _ _
  | undo w => exact c.undergoes_travel w History.back?
  | redo w => exact c.undergoes_travel w History.forward?

theorem sheets_perform (fresh : Nat → String) (c : Canvas) (e : Edit) :
    (c.perform fresh e).canvas.sheets = (e.act c.layout fresh).onSheets c.retention c.sheets := by
  obtain ⟨selection, same⟩ := c.undergoes_perform fresh e
  rw [same]

theorem retention_perform (fresh : Nat → String) (c : Canvas) (e : Edit) :
    (c.perform fresh e).canvas.retention = c.retention := by
  obtain ⟨selection, same⟩ := c.undergoes_perform fresh e
  rw [same]

/-- Canvases after a sequence of edits that are admitted, each where it is made. -/
inductive Reachable (admits : Canvas → (Nat → String) → Edit → Prop) (s : Settings) :
    Canvas → Prop where
  | empty : Reachable admits s (.empty s)
  | perform {c : Canvas} (fresh : Nat → String) (e : Edit) (before : Reachable admits s c)
      (admitted : admits c fresh e) : Reachable admits s (c.perform fresh e).canvas

end Canvas

/-- Edits never change the id of a workflow, and move a history within its snapshots. -/
def Act.Proper : Act → Prop
  | .revise _ f | .restructure _ f => ∀ w v, f w = some v → v.id = w.id
  | .travel _ move => ∀ h h' : History, move h = some h' →
    ∃ i, h' = { h with cursor := i } ∧ (h.cursor < h.snapshots.length → i < h.snapshots.length)
  | _ => True

theorem Act.Proper.within {id : String} {move : History → Option History}
    (proper : (Act.travel id move).Proper) {h h' : History} (moved : move h = some h') :
    h'.snapshots = h.snapshots := by
  obtain ⟨i, rfl, -⟩ := proper h h' moved
  rfl

open Workflow in
theorem Edit.proper_act (layout : Layout) (fresh : Nat → String) (e : Edit) :
    (e.act layout fresh).Proper := by
  cases e with
  | createWorkflow | insertWorkflow | removeWorkflow | selectNode | clearSelection => trivial
  | updateWorkflow | addNode =>
    intro w v done
    cases done
    rfl
  | updateNode | configureNode | moveNode | toggleBreakpoint =>
    intro w v done
    obtain ⟨-, rfl⟩ := modifyNode?_eq_some.1 done
    rfl
  | removeNode =>
    intro w v done
    obtain ⟨-, rfl⟩ := removeNode?_eq_some.1 done
    rfl
  | duplicateNode =>
    intro w v done
    obtain ⟨n, -, rfl⟩ := duplicateNode?_eq_some.1 done
    rfl
  | connect =>
    intro w v done
    obtain ⟨-, -, n, -, -, rfl⟩ := connect?_eq_some.1 done
    rfl
  | disconnect =>
    intro w v done
    obtain ⟨n, -, -, rfl⟩ := disconnect?_eq_some.1 done
    rfl
  | insertBetween | insertSuggested =>
    intro w v done
    obtain ⟨s, t, shifted, x, y, -, -, -, rfl⟩ := of_insertBetween? done
    rfl
  | addParameter =>
    intro w v done
    cases done
    exact id_modifyParameters w _ _
  | updateParameter =>
    intro w v done
    obtain ⟨-, rfl⟩ := updateParameter?_eq_some.1 done
    exact id_modifyParameters w _ _
  | removeParameter =>
    intro w v done
    obtain ⟨-, rfl⟩ := removeParameter?_eq_some.1 done
    exact id_modifyParameters w _ _
  | undo =>
    intro h h' moved
    simp only [History.back?] at moved
    split at moved
    · cases moved
      exact ⟨_, rfl, by omega⟩
    · cases moved
  | redo =>
    intro h h' moved
    simp only [History.forward?] at moved
    split at moved
    · rename_i room
      cases moved
      exact ⟨_, rfl, fun _ => by simpa [History.canRedo] using room⟩
    · cases moved

end Stepflow
