import Stepflow.Proofs.Canvas.DeadEnds
import Stepflow.Proofs.Canvas.Lookups

/-!
# Workflows side by side

The workflows of a canvas share one list, one selection and the supply of ids, and edits of several
may be mixed in any order. What becomes of a workflow with its history, and what its edits answer,
depends on the edits of that workflow alone.

* `Edit.addressee?`: the workflow that an edit is addressed to;
* `Act.onSheet`, `Canvas.sheet?_perform_own`: what an edit makes of that workflow;
* `Canvas.Agree`, `Canvas.agree_after`: canvases that agree about one workflow go on to do so,
  though one of them undergoes edits of others in between;
* `Canvas.workflows_isolated`: so a workflow is as if it were alone on its canvas.
-/

namespace Stepflow

/-- Edits of the selection, which all workflows share. -/
def Edit.isSelection : Edit → Bool
  | .selectNode _ _ | .clearSelection => true
  | _ => false

/-- The workflow that an edit is addressed to. One that is created is addressed by its new id. -/
def Edit.addressee? (fresh : Nat → String) : Edit → Option String
  | .createWorkflow _ _ => some (fresh 0)
  | .insertWorkflow w => some w.id
  | .clearSelection => none
  | .updateWorkflow id _ | .removeWorkflow id | .selectNode id _ | .addNode id _ _ _
  | .updateNode id _ _ | .configureNode id _ _ _ | .moveNode id _ _ _ | .toggleBreakpoint id _
  | .removeNode id _ | .duplicateNode id _ | .connect id _ _ _ | .disconnect id _ _
  | .insertBetween id _ _ _ _ _ | .insertSuggested id _ _ _ _ _ | .addParameter id _
  | .updateParameter id _ _ _ | .removeParameter id _ _ | .undo id | .redo id => some id

theorem Edit.target?_act (layout : Layout) (fresh : Nat → String) (e : Edit) :
    (e.act layout fresh).target? = if e.isSelection then none else e.addressee? fresh := by
  cases e <;> rfl

/-- An edit with the ids that it may draw. -/
structure Stroke where
  fresh : Nat → String
  edit : Edit

/-- The stroke is not addressed to another workflow. -/
def Stroke.concerns (id : String) (s : Stroke) : Bool :=
  (s.edit.addressee? s.fresh).all (· = id)

namespace Act

variable {r : Retention} {sheets : List Sheet} {act : Act} {id : String}

/-- What an act makes of the sheet that it is about. -/
def onSheet (r : Retention) : Act → Option Sheet → Option Sheet
  | .rest, s => s
  | .put w, _ => some (.fresh r w)
  | .drop _, _ => none
  | .revise _ f, s => s.map (·.revised f)
  | .restructure _ f, s => s.map (·.restructured f)
  | .travel _ move, s => s.map (·.travelled move)

/-- An act does to the workflow that it is about what it would do if there were no others. -/
theorem find?_onSheets_own (proper : act.Proper) (kept : ∀ s ∈ sheets, s.Kept r)
    (distinct : (sheets.map (·.workflow.id)).Nodup) (own : act.target? = some id) :
    (act.onSheets r sheets).find? (·.workflow.id = id)
      = act.onSheet r (sheets.find? (·.workflow.id = id)) := by
  -- the sheet keeps its id
  have changed {f : Sheet → Sheet} (named : ∀ s ∈ sheets, (f s).workflow.id = s.workflow.id) :
      (modifyFirst (·.workflow.id = id) f sheets).find? (·.workflow.id = id)
        = (sheets.find? (·.workflow.id = id)).map f := by
    refine find?_modifyFirst_kept fun s found => decide_eq_true ?_
    have here : s.workflow.id = id := by simpa using List.find?_some found
    exact (named s (List.mem_of_find?_eq_some found)).trans here
  cases act with
  | rest => cases own
  | put w =>
    cases own
    rw [onSheets]
    split
    · rename_i known
      obtain ⟨s, found⟩ := Option.isSome_iff_exists.1 known
      rw [find?_modifyFirst_found found (decide_eq_true rfl)]
      rfl
    · rename_i unknown
      have absent : sheets.find? (·.workflow.id = w.id) = none := by simpa using unknown
      rw [List.find?_append, absent, Option.none_or]
      exact List.find?_cons_of_pos (decide_eq_true rfl)
  | drop own' =>
    cases own
    exact find?_eraseP_own distinct
  | revise own' f =>
    cases own
    exact changed fun s _ => Sheet.id_revised proper s
  | restructure own' f =>
    cases own
    exact changed fun s _ => Sheet.id_restructured proper s
  | travel own' move =>
    cases own
    exact changed fun s member => Sheet.id_travelled (kept s member) proper (.inl rfl)

end Act

namespace Canvas

variable {c d : Canvas} {id : String}

theorem layout_perform (fresh : Nat → String) (c : Canvas) (e : Edit) :
    (c.perform fresh e).canvas.layout = c.layout := by
  obtain ⟨selection, same⟩ := c.undergoes_perform fresh e
  rw [same]

theorem sheet?_perform_own (kept : c.Kept) (fresh : Nat → String) (e : Edit)
    (own : (e.act c.layout fresh).target? = some id) :
    (c.perform fresh e).canvas.sheet? id
      = (e.act c.layout fresh).onSheet c.retention (c.sheet? id) := by
  rw [sheet?, sheets_perform]
  exact Act.find?_onSheets_own (e.proper_act c.layout fresh) kept.sheets kept.distinct own

/-- Both canvases have the same settings, and the workflow `id` with the same history. -/
structure Agree (id : String) (c d : Canvas) : Prop where
  kept : c.Kept ∧ d.Kept
  layout : d.layout = c.layout
  retention : d.retention = c.retention
  sheet : d.sheet? id = c.sheet? id

theorem Agree.refl (kept : c.Kept) (id : String) : Agree id c c := ⟨⟨kept, kept⟩, rfl, rfl, rfl⟩

/-- Both undergo the same edit. -/
theorem Agree.both (agree : Agree id c d) (fresh : Nat → String) (e : Edit) :
    Agree id (c.perform fresh e).canvas (d.perform fresh e).canvas where
  kept := ⟨kept_perform agree.kept.1 fresh e, kept_perform agree.kept.2 fresh e⟩
  layout := by rw [layout_perform, layout_perform, agree.layout]
  retention := by rw [retention_perform, retention_perform, agree.retention]
  sheet := by
    by_cases own : (e.act c.layout fresh).target? = some id
    · have own' : (e.act d.layout fresh).target? = some id := agree.layout ▸ own
      rw [sheet?_perform_own agree.kept.1 fresh e own, sheet?_perform_own agree.kept.2 fresh e own',
        agree.layout, agree.retention, agree.sheet]
    · have other : (e.act d.layout fresh).target? ≠ some id := agree.layout ▸ own
      rw [sheet?_perform_other agree.kept.1 fresh e own,
        sheet?_perform_other agree.kept.2 fresh e other, agree.sheet]

/-- One undergoes an edit of another workflow. -/
theorem Agree.apart (agree : Agree id c d) {s : Stroke} (apart : s.concerns id = false) :
    Agree id (c.perform s.fresh s.edit).canvas d where
  kept := ⟨kept_perform agree.kept.1 s.fresh s.edit, agree.kept.2⟩
  layout := by rw [layout_perform, agree.layout]
  retention := by rw [retention_perform, agree.retention]
  sheet := by
    have other : (s.edit.act c.layout s.fresh).target? ≠ some id := by
      rw [Edit.target?_act]
      intro own
      split at own
      · cases own
      · simp [Stroke.concerns, own] at apart
    rw [sheet?_perform_other agree.kept.1 s.fresh s.edit other, agree.sheet]

/-- The canvas after some strokes. -/
def after (c : Canvas) (strokes : List Stroke) : Canvas :=
  strokes.foldl (fun c s => (c.perform s.fresh s.edit).canvas) c

theorem agree_after (agree : Agree id c d) (strokes : List Stroke) :
    Agree id (c.after strokes) (d.after (strokes.filter (·.concerns id))) := by
  induction strokes generalizing c d with
  | nil => exact agree
  | cons s rest ih =>
    by_cases concerns : s.concerns id = true
    · rw [List.filter_cons_of_pos concerns]
      exact ih (agree.both s.fresh s.edit)
    · rw [List.filter_cons_of_neg concerns]
      exact ih (agree.apart (by simpa using concerns))

/-! Replies -/

theorem reply_answer (c : Canvas) (o : Option Canvas) :
    (c.answer o).reply = .accepted o.isSome := by
  cases o <;> rfl

theorem reply_toggle (fresh : Nat → String) (c : Canvas) (id node : String) :
    (c.perform fresh (.toggleBreakpoint id node)).reply = .flagged (
      if (c.revise? id (·.modifyNode? node Node.toggle)).isSome
      then (c.node? id node).map (!·.breakpoint) else none) := by
  rw [perform, toggleBreakpoint?]
  cases c.node? id node <;> cases c.revise? id (·.modifyNode? node Node.toggle) <;> rfl

theorem Agree.workflow?_eq (agree : Agree id c d) : d.workflow? id = c.workflow? id := by
  rw [workflow?, workflow?, agree.sheet]

theorem Agree.has_iff (agree : Agree id c d) (p : Workflow → Prop) : d.Has id p ↔ c.Has id p := by
  rw [Has, Has, agree.workflow?_eq]

theorem Agree.isSome_revise? (agree : Agree id c d) (f : Workflow → Option Workflow) :
    (d.revise? id f).isSome = (c.revise? id f).isSome := by
  rw [Bool.eq_iff_iff, Canvas.isSome_revise?, Canvas.isSome_revise?, agree.has_iff]

theorem Agree.isSome_restructure? (agree : Agree id c d) (f : Workflow → Option Workflow) :
    (d.restructure? id f).isSome = (c.restructure? id f).isSome := by
  rw [Bool.eq_iff_iff, Canvas.isSome_restructure?, Canvas.isSome_restructure?, agree.has_iff]

theorem Agree.reply_creation (agree : Agree id c d) (new : String)
    (f : Workflow → Option Workflow) :
    (d.creation new (d.restructure? id f)).reply
      = (c.creation new (c.restructure? id f)).reply := by
  have answer (c : Canvas) (o : Option Canvas) :
      (c.creation new o).reply = .created (if o.isSome then some new else none) := by
    cases o <;> rfl
  rw [answer, answer, agree.isSome_restructure?]

theorem Agree.travel_fst (agree : Agree id c d) (move : History → Option History) :
    (d.travel id move).1 = (c.travel id move).1 := by
  rw [travel, travel, agree.sheet]
  rcases c.sheet? id with _ | ⟨live, _ | history⟩
  · rfl
  · rfl
  · cases moved : move (history.replaceCurrent live) with
    | none => simp only [moved]
    | some h => rcases current : h.current? with _ | _ | v <;> simp only [moved, current]

/-- A workflow answers for itself, except that nothing but the selection knows what is selected. -/
theorem Agree.reply_perform (agree : Agree id c d) {fresh : Nat → String} {e : Edit}
    (own : e.addressee? fresh = some id) (apart : e.isSelection = false) :
    (d.perform fresh e).reply = (c.perform fresh e).reply := by
  cases e with
  | createWorkflow | insertWorkflow => rfl
  | selectNode | clearSelection => cases apart
  | removeWorkflow =>
    cases own
    rw [perform, perform, removeWorkflow?, removeWorkflow?, agree.sheet]
    cases c.sheet? id <;> rfl
  | toggleBreakpoint _ node =>
    cases own
    rw [reply_toggle, reply_toggle, node?, node?, agree.workflow?_eq, agree.isSome_revise?]
  | removeNode _ node =>
    cases own
    have removal (c : Canvas) :
        (c.removeNode? id node).isSome = (c.restructure? id (·.removeNode? node)).isSome := by
      rw [removeNode?]
      cases c.restructure? id (·.removeNode? node) <;> rfl
    rw [perform, perform, reply_answer, reply_answer, removal, removal, agree.isSome_restructure?]
  | updateWorkflow | updateNode | configureNode | moveNode =>
    cases own
    rw [perform, perform, reply_answer, reply_answer]
    exact congrArg Reply.accepted (agree.isSome_revise? _)
  | connect | disconnect | updateParameter | removeParameter =>
    cases own
    rw [perform, perform, reply_answer, reply_answer]
    exact congrArg Reply.accepted (agree.isSome_restructure? _)
  | addNode | addParameter =>
    cases own
    exact agree.reply_creation _ _
  | duplicateNode =>
    cases own
    rw [perform, perform, duplicateNode?, duplicateNode?, agree.layout]
    exact agree.reply_creation _ _
  | insertBetween | insertSuggested =>
    cases own
    rw [perform, perform, insertBetween?, insertBetween?, agree.layout]
    exact agree.reply_creation _ _
  | undo | redo =>
    cases own
    exact congrArg Reply.accepted (agree.travel_fst _)

/-! Isolation -/

/-- A move through a history neither adds nor drops a workflow, nor puts one in place of
another. -/
theorem ids_travel (kept : c.Kept) {move : History → Option History}
    (proper : (Act.travel id move).Proper) :
    (c.travel id move).2.workflows.map (·.id) = c.workflows.map (·.id) := by
  obtain ⟨selection, after⟩ := undergoes_travel c id move
  rw [after, workflows, workflows, List.map_map, List.map_map]
  refine map_modifyFirst_found fun s found => ?_
  exact Sheet.id_travelled (kept.sheets s (List.mem_of_find?_eq_some found)) proper (.inl rfl)

theorem unmoved_fresh (r : Retention) (w : Workflow) :
    (Sheet.fresh r w).canUndo = false ∧ (Sheet.fresh r w).canRedo = false := by
  unfold Sheet.fresh Sheet.canUndo Sheet.canRedo
  cases r.enabled with
  | false => exact ⟨rfl, rfl⟩
  | true =>
    have one : ((History.empty r.maxSnapshots.toNat).record w).snapshots.length ≤ 1 := by
      simp [History.record, History.empty]
    have first : ((History.empty r.maxSnapshots.toNat).record w).cursor = 0 := by
      simp [History.record, History.empty]
    simp only [if_pos, Option.any_some, History.canUndo, History.canRedo, first]
    exact ⟨rfl, decide_eq_false (by omega)⟩

/-- A workflow that is put on the canvas is all that is known under its id. -/
theorem sheet?_insert (kept : c.Kept) (fresh : Nat → String) (w : Workflow) :
    (c.perform fresh (.insertWorkflow w)).canvas.sheet? w.id = some (.fresh c.retention w) :=
  sheet?_perform_own kept fresh (.insertWorkflow w) rfl

theorem sheet?_remove (kept : c.Kept) (fresh : Nat → String) (id : String) :
    (c.perform fresh (.removeWorkflow id)).canvas.sheet? id = none :=
  sheet?_perform_own kept fresh (.removeWorkflow id) rfl

/-- **Workflows are isolated from each other.** Leave out of a session all edits that are addressed
to other workflows: the workflow `id` is the same in the end, as much of it can be undone and
redone, and its edits are answered the same, those of the shared selection apart. Its moves through
its history touch no other workflow and put it back under its own id, and once it is removed nothing
of its history is left for one that is inserted under the same id. -/
theorem workflows_isolated (settings : Settings) (strokes : List Stroke) (id : String) :
    let c := (empty settings).after strokes
    let alone := (empty settings).after (strokes.filter (·.concerns id))
    alone.workflow? id = c.workflow? id ∧
    alone.canUndo id = c.canUndo id ∧ alone.canRedo id = c.canRedo id ∧
    (∀ fresh e, e.addressee? fresh = some id → e.isSelection = false →
      (alone.perform fresh e).reply = (c.perform fresh e).reply) ∧
    (∀ fresh (way : Way), let moved := (c.perform fresh (way.edit id)).canvas
      (∀ other ≠ id, moved.sheet? other = c.sheet? other) ∧
      moved.workflows.map (·.id) = c.workflows.map (·.id)) ∧
    (∀ h v, c.history? id = some h → h.Restores v → v.id = id) ∧
    (∀ fresh, (c.perform fresh (.removeWorkflow id)).canvas.sheet? id = none) ∧
    ∀ fresh w, w.id = id → let inserted := (c.perform fresh (.insertWorkflow w)).canvas
      inserted.workflow? id = some w ∧ inserted.canUndo id = false ∧
        inserted.canRedo id = false := by
  intro c alone
  have reached : Reachable (fun _ _ _ => True) settings (empty settings) := .empty
  have start := reachable_kept reached
  have agree : Agree id c alone := agree_after (.refl start id) strokes
  have kept := agree.kept.1
  refine ⟨agree.workflow?_eq, ?_, ?_, ?_, ?_, ?_, ?_, ?_⟩
  · rw [canUndo, canUndo, agree.sheet]
  · rw [canRedo, canRedo, agree.sheet]
  · intro fresh e own apart
    exact agree.reply_perform own apart
  · intro fresh way moved
    have travelled : moved = (c.travel id way.move).2 := (perform_way fresh c id way).2
    have proper : (Act.travel id way.move).Proper := by
      cases way with
      | back => exact (Edit.undo id).proper_act c.layout fresh
      | forward => exact (Edit.redo id).proper_act c.layout fresh
    constructor
    · intro other apart
      refine sheet?_perform_other kept fresh (way.edit id) ?_
      cases way <;> exact fun own => apart (Option.some.inj own).symm
    · rw [travelled]
      exact ids_travel kept proper
  · intro h v had restores
    obtain ⟨s, found, has⟩ := Option.bind_eq_some_iff.1 had
    obtain ⟨member, named⟩ := sheet?_eq_some found
    exact ((kept.sheets s member).named v (.inr ⟨h, has, restores⟩)).trans named
  · intro fresh
    exact sheet?_remove kept fresh id
  · intro fresh w named inserted
    have found : inserted.sheet? id = some (.fresh c.retention w) :=
      named ▸ sheet?_insert kept fresh w
    obtain ⟨noUndo, noRedo⟩ := unmoved_fresh c.retention w
    rw [workflow?, canUndo, canRedo, found]
    exact ⟨rfl, noUndo, noRedo⟩

end Canvas

end Stepflow
