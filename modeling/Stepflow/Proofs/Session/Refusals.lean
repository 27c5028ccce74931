import Stepflow.Proofs.Canvas.Lookups
import Stepflow.Proofs.Workflow.Changes
import Stepflow.Session.Basic

/-!
# Refused calls

An edit that names something unknown, or that would break an edge rule, is refused, and so is a
control call out of turn. Nothing is left of a refused call.

* `Edit.Applies`, `Canvas.isRefusal_perform`: what an edit needs, and that it is refused exactly
  for want of that;
* `Canvas.perform_refused`: a refused edit leaves the canvas as it was and draws no id;
* `Session.refusals_change_nothing`: so refused calls leave the whole session as it was.

Undo and redo are no part of this: one that leads to a snapshot that cannot be read has moved the
cursor all the same.
-/

namespace Stepflow

namespace Workflow

variable {w : Workflow} {id node source target : String}

theorem isSome_modifyNode? {f : Node → Node} :
    (w.modifyNode? id f).isSome = true ↔ w.hasNode id = true := by
  simp [Option.isSome_iff_exists, modifyNode?_eq_some]

theorem isSome_removeNode? : (w.removeNode? id).isSome = true ↔ w.hasNode id = true := by
  simp [Option.isSome_iff_exists, removeNode?_eq_some]

theorem isSome_duplicateNode? {offset : Double} :
    (w.duplicateNode? node id offset).isSome = true ↔ w.hasNode node = true := by
  cases found : w.node? node <;> simp [duplicateNode?, hasNode, found]

theorem isSome_connect? {port : Port} :
    (w.connect? source target port).isSome = true ↔ source ≠ target ∧ w.hasNode source = true ∧
      w.hasNode target = true ∧ ¬w.Leads source target := by
  simp only [Option.isSome_iff_exists, connect?_eq_some, hasNode, Leads]
  constructor
  · rintro ⟨-, apart, known, n, found, fresh, -⟩
    refine ⟨apart, ⟨n, found⟩, known, ?_⟩
    rintro ⟨m, found', leads⟩
    cases found.symm.trans found'
    exact fresh leads
  · rintro ⟨apart, ⟨n, found⟩, known, fresh⟩
    exact ⟨_, apart, known, n, found, fun leads => fresh ⟨n, found, leads⟩, rfl⟩

theorem isSome_disconnect? :
    (w.disconnect? source target).isSome = true ↔
      w.Leads source target ∨ w.Ported source target := by
  simp only [Option.isSome_iff_exists, disconnect?_eq_some, Leads, Ported]
  constructor
  · rintro ⟨-, n, found, leads | ported, -⟩
    · exact .inl ⟨n, found, leads⟩
    · exact .inr ⟨n, found, ported⟩
  · rintro (⟨n, found, leads⟩ | ⟨n, found, ported⟩)
    · exact ⟨_, n, found, .inl leads, rfl⟩
    · exact ⟨_, n, found, .inr ported, rfl⟩

theorem isSome_updateParameter? {list : ParameterList} {change : ParameterChange} :
    (w.updateParameter? list id change).isSome = true ↔ w.hasParameter list id = true := by
  simp [Option.isSome_iff_exists, updateParameter?_eq_some]

theorem isSome_removeParameter? {list : ParameterList} :
    (w.removeParameter? list id).isSome = true ↔ w.hasParameter list id = true := by
  simp [Option.isSome_iff_exists, removeParameter?_eq_some]

theorem isSome_insertBetween? {layout : Layout} {kind : NodeKind} {x y : Double} :
    (w.insertBetween? layout id source target kind x y).isSome = true ↔
      w.hasNode target = true ∧ w.Leads source target := by
  simp only [Option.isSome_iff_exists, insertBetween?_eq_some, hasNode, Leads]
  constructor
  · rintro ⟨-, s, t, foundSource, foundTarget, leads, -⟩
    exact ⟨⟨t, foundTarget⟩, s, foundSource, leads⟩
  · rintro ⟨⟨t, foundTarget⟩, s, foundSource, leads⟩
    exact ⟨_, s, t, foundSource, foundTarget, leads, rfl⟩

end Workflow

/-- Moves through a history. -/
def Edit.isTravel : Edit → Bool
  | .undo _ | .redo _ => true
  | _ => false

/-- The edit names what there is and breaks no rule. A move through a history has nothing to
break. -/
def Edit.Applies (c : Canvas) : Edit → Prop
  | .createWorkflow _ _ | .insertWorkflow _ | .clearSelection | .undo _ | .redo _ => True
  | .updateWorkflow id _ | .removeWorkflow id | .addNode id _ _ _ | .addParameter id _ =>
    c.Has id fun _ => True
  | .selectNode id node | .updateNode id node _ | .configureNode id node _ _
  | .moveNode id node _ _ | .toggleBreakpoint id node | .removeNode id node
  | .duplicateNode id node => c.Has id (·.hasNode node = true)
  | .connect id source target _ => c.Has id fun w =>
    source ≠ target ∧ w.hasNode source = true ∧ w.hasNode target = true ∧ ¬w.Leads source target
  | .disconnect id source target => c.Has id fun w =>
    w.Leads source target ∨ w.Ported source target
  | .insertBetween id source target _ _ _ | .insertSuggested id source target _ _ _ =>
    c.Has id fun w => w.hasNode target = true ∧ w.Leads source target
  | .updateParameter id list parameter _ | .removeParameter id list parameter =>
    c.Has id (·.hasParameter list parameter = true)

namespace Canvas

variable {c : Canvas} {id : String}

theorem isSome_toggleBreakpoint? {node : String} :
    (c.toggleBreakpoint? id node).isSome = true ↔ c.Has id (·.hasNode node = true) := by
  have flips : (c.revise? id (·.modifyNode? node Node.toggle)).isSome = true ↔
      (c.node? id node).isSome = true :=
    isSome_revise?.trans ((has_congr fun w => Workflow.isSome_modifyNode?).trans isSome_node?.symm)
  rw [← isSome_node?]
  cases found : c.node? id node with
  | none => simp [toggleBreakpoint?, found]
  | some n =>
    rw [found] at flips
    obtain ⟨d, done⟩ := Option.isSome_iff_exists.1 (flips.2 rfl)
    simp [toggleBreakpoint?, found, done]

theorem isSome_removeNode? {node : String} :
    (c.removeNode? id node).isSome = true ↔ c.Has id (·.hasNode node = true) := by
  rw [← has_congr fun w => Workflow.isSome_removeNode?, ← isSome_restructure?]
  cases done : c.restructure? id (·.removeNode? node) <;> simp [removeNode?, done]

theorem isRefusal_answer (o : Option Canvas) :
    (c.answer o).reply.isRefusal = true ↔ ¬o.isSome = true := by
  cases o <;> simp [answer, Reply.isRefusal]

theorem isRefusal_creation (o : Option Canvas) :
    (c.creation id o).reply.isRefusal = true ↔ ¬o.isSome = true := by
  cases o <;> simp [creation, Reply.isRefusal]

open Workflow in
/-- An edit is refused exactly when it does not apply. -/
theorem isRefusal_perform (fresh : Nat → String) (c : Canvas) {e : Edit}
    (stays : e.isTravel = false) :
    (c.perform fresh e).reply.isRefusal = true ↔ ¬e.Applies c := by
  cases e with
  | createWorkflow | insertWorkflow | clearSelection =>
    simp [perform, Reply.isRefusal, Edit.Applies]
  | updateWorkflow =>
    rw [perform, isRefusal_answer]
    exact not_congr (isSome_revise?.trans (has_congr fun w => by simp))
  | removeWorkflow id =>
    cases found : c.sheet? id <;>
      simp [perform, removeWorkflow?, found, Reply.isRefusal, Edit.Applies, Has, workflow?]
  | selectNode id node =>
    rw [perform, isRefusal_answer, Edit.Applies, ← isSome_node?]
    cases found : c.node? id node <;> simp [select?, found]
  | toggleBreakpoint id node =>
    rw [Edit.Applies, ← isSome_toggleBreakpoint?]
    cases done : c.toggleBreakpoint? id node <;> simp [perform, done, Reply.isRefusal]
  | updateNode | configureNode | moveNode =>
    rw [perform, isRefusal_answer]
    exact not_congr (isSome_revise?.trans (has_congr fun w => isSome_modifyNode?))
  | removeNode =>
    rw [perform, isRefusal_answer]
    exact not_congr isSome_removeNode?
  | addNode | addParameter =>
    rw [perform, isRefusal_creation]
    exact not_congr (isSome_restructure?.trans (has_congr fun w => by simp))
  | duplicateNode =>
    rw [perform, isRefusal_creation]
    exact not_congr (isSome_restructure?.trans (has_congr fun w => isSome_duplicateNode?))
  | connect =>
    rw [perform, isRefusal_answer]
    exact not_congr (isSome_restructure?.trans (has_congr fun w => isSome_connect?))
  | disconnect =>
    rw [perform, isRefusal_answer]
    exact not_congr (isSome_restructure?.trans (has_congr fun w => isSome_disconnect?))
  | insertBetween | insertSuggested =>
    rw [perform, isRefusal_creation]
    exact not_congr (isSome_restructure?.trans (has_congr fun w => isSome_insertBetween?))
  | updateParameter =>
    rw [perform, isRefusal_answer]
    exact not_congr (isSome_restructure?.trans (has_congr fun w => isSome_updateParameter?))
  | removeParameter =>
    rw [perform, isRefusal_answer]
    exact not_congr (isSome_restructure?.trans (has_congr fun w => isSome_removeParameter?))
  | undo | redo => cases stays

theorem refused_answer {o : Option Canvas} (refused : (c.answer o).reply.isRefusal = true) :
    (c.answer o).canvas = c ∧ (c.answer o).drawn = 0 := by
  cases o with
  | none => exact ⟨rfl, rfl⟩
  | some d => cases refused

theorem refused_creation {o : Option Canvas} (refused : (c.creation id o).reply.isRefusal = true) :
    (c.creation id o).canvas = c ∧ (c.creation id o).drawn = 0 := by
  cases o with
  | none => exact ⟨rfl, rfl⟩
  | some d => cases refused

/-- A refused edit leaves the canvas as it was, with all histories, and draws no id. -/
theorem perform_refused {fresh : Nat → String} {e : Edit} (stays : e.isTravel = false)
    (refused : (c.perform fresh e).reply.isRefusal = true) :
    (c.perform fresh e).canvas = c ∧ (c.perform fresh e).drawn = 0 := by
  cases e with
  | createWorkflow | insertWorkflow | clearSelection => cases refused
  | removeWorkflow id =>
    rw [perform] at refused ⊢
    split at refused
    · cases refused
    · exact ⟨rfl, rfl⟩
  | toggleBreakpoint id node =>
    rw [perform] at refused ⊢
    split at refused
    · cases refused
    · exact ⟨rfl, rfl⟩
  | updateWorkflow | selectNode | updateNode | configureNode | moveNode | removeNode | connect
  | disconnect | updateParameter | removeParameter => exact refused_answer refused
  | addNode | duplicateNode | insertBetween | insertSuggested | addParameter =>
    exact refused_creation refused
  | undo | redo => cases stays

end Canvas

namespace Debugger

variable {d : Debugger} {c : Canvas} {id : String}

/-- A run can begin where the workflow has a start node. -/
theorem isSome_start? :
    (d.start? c id).isSome = true ↔ c.Has id fun w => w.start?.isSome = true := by
  cases found : c.workflow? id with
  | none => simp [start?, Canvas.Has, found]
  | some w =>
    cases first : w.start? <;> simp [start?, RunState.begin?, Canvas.Has, found, first]

theorem isSome_step? :
    (d.step? c id).isSome = true ↔
      (d.state.status = .idle → c.Has id fun w => w.start?.isSome = true) := by
  rw [← isSome_start? (d := d)]
  by_cases idle : d.state.status = .idle
  · cases started : d.start? c id <;> simp [step?, idle, started]
  · simp [step?, idle]

theorem isSome_resume? : d.resume?.isSome = true ↔ d.state.status = .paused := by
  simp [resume?]

theorem isSome_runPending? : (d.runPending? c).isSome = true ↔ d.pending.isSome = true := by
  simp [runPending?]

end Debugger

namespace Session

variable {s : Session}

/-- A control call is answered by whether it was carried out, and one that was not leaves no
trace. -/
theorem controlled_iff (o : Option Emission) {p : Prop} (accepted : o.isSome = true ↔ p) :
    ((s.controlled o).1 = true ↔ p) ∧ ((s.controlled o).1 = false → (s.controlled o).2 = s) := by
  rw [← accepted]
  cases o with
  | none => exact ⟨by simp [controlled], fun _ => rfl⟩
  | some e => exact ⟨by simp [controlled], nofun⟩

theorem edit_refused {e : Edit} (stays : e.isTravel = false)
    (refused : (s.edit e).1.isRefusal = true) : (s.edit e).2 = s := by
  obtain ⟨canvas, drawn⟩ := Canvas.perform_refused stays refused
  simp only [edit, canvas, drawn, Nat.add_zero]

/-- **Refused calls change nothing.** An edit is refused exactly when it names something that is
not there or breaks an edge rule, and then the canvas with all its histories, the ids that are still
to be drawn, the debugger and its events stay as they were. So they do when a run cannot begin for
want of a start node, when there is no pause to end, and when nothing is pending. -/
theorem refusals_change_nothing (s : Session) :
    (∀ e : Edit, e.isTravel = false →
      ((s.edit e).1.isRefusal = true ↔ ¬e.Applies s.canvas) ∧
      ((s.edit e).1.isRefusal = true → (s.edit e).2 = s)) ∧
    (∀ id source target port,
      (s.edit (.connect id source target port)).1.isRefusal = true ↔
        s.canvas.workflow? id = none ∨ ∃ w, s.canvas.workflow? id = some w ∧
          (w.hasNode source = false ∨ w.hasNode target = false ∨ source = target ∨
            w.Leads source target)) ∧
    (∀ id, ((s.start id).1 = true ↔ ∃ w, s.canvas.workflow? id = some w ∧ w.start?.isSome = true) ∧
      ((s.start id).1 = false → (s.start id).2 = s)) ∧
    (∀ id, ((s.step id).1 = true ↔ (s.debugger.state.status = .idle →
        ∃ w, s.canvas.workflow? id = some w ∧ w.start?.isSome = true)) ∧
      ((s.step id).1 = false → (s.step id).2 = s)) ∧
    ((s.resume.1 = true ↔ s.debugger.state.status = .paused) ∧
      (s.resume.1 = false → s.resume.2 = s)) ∧
    ((s.runPending.1 = true ↔ s.debugger.pending.isSome = true) ∧
      (s.runPending.1 = false → s.runPending.2 = s)) := by
  refine ⟨?_, ?_, ?_, ?_, ?_, ?_⟩
  · intro e stays
    exact ⟨s.canvas.isRefusal_perform s.fresh stays, edit_refused stays⟩
  · intro id source target port
    refine (s.canvas.isRefusal_perform s.fresh rfl).trans ?_
    cases found : s.canvas.workflow? id with
    | none => simp [Edit.Applies, Canvas.Has, found]
    | some w =>
      simp only [Edit.Applies, Canvas.Has, found, Option.some.injEq, exists_eq_left']
      grind
  · exact fun id => controlled_iff _ Debugger.isSome_start?
  · exact fun id => controlled_iff _ Debugger.isSome_step?
  · apply controlled_iff
    rw [Option.isSome_map]
    exact Debugger.isSome_resume?
  · exact controlled_iff _ Debugger.isSome_runPending?

end Session

end Stepflow
