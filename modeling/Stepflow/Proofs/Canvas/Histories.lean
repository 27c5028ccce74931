import Stepflow.Proofs.Canvas.Acts
import Stepflow.Proofs.Workflow.Restoring

/-!
# Histories of a canvas

What every canvas that edits lead to has in common, whatever ids they draw: workflows have distinct
ids, and a sheet has a history as the settings say, with its cursor on a snapshot, out of which
only workflows with the id of the sheet are restored.

* `Sheet.Holds`: the workflows of a sheet, live or to be restored, and what an act adds to them;
* `Sheet.Kept`, `Canvas.Kept`: the invariant;
* `Canvas.kept_perform`, `Canvas.reachable_kept`: a step keeps it, so it holds of every run;
* `Canvas.sheet?_perform_other` and its siblings: an edit leaves all workflows alone but the one it
  is about, and does to that what its act says.
-/

namespace Stepflow

namespace History

variable {h : History} {w v : Workflow}

/-- A workflow that is restored from one of the snapshots. -/
def Restores (h : History) (v : Workflow) : Prop :=
  ∃ text ∈ h.snapshots, Workflow.restore text = .ok v

theorem mem_record {text : String} (member : text ∈ (h.record w).snapshots) :
    text ∈ h.snapshots ∨ text = w.snapshot := by
  rcases List.mem_append.1 (List.mem_of_mem_drop member) with old | new
  · exact .inl (List.mem_of_mem_take old)
  · exact .inr (List.mem_singleton.1 new)

theorem mem_replaceCurrent {text : String} (member : text ∈ (h.replaceCurrent w).snapshots) :
    text ∈ h.snapshots ∨ text = w.snapshot := by
  unfold replaceCurrent at member
  split at member
  · exact List.mem_or_eq_of_mem_set member
  · exact (List.mem_append.1 member).imp_right List.mem_singleton.1

theorem restores_record (restores : (h.record w).Restores v) :
    h.Restores v ∨ Workflow.restore w.snapshot = .ok v := by
  obtain ⟨text, member, read⟩ := restores
  rcases mem_record member with old | rfl
  · exact .inl ⟨text, old, read⟩
  · exact .inr read

theorem restores_replaceCurrent (restores : (h.replaceCurrent w).Restores v) :
    h.Restores v ∨ Workflow.restore w.snapshot = .ok v := by
  obtain ⟨text, member, read⟩ := restores
  rcases mem_replaceCurrent member with old | rfl
  · exact .inl ⟨text, old, read⟩
  · exact .inr read

theorem restores_current? (current : h.current? = some (.ok v)) : h.Restores v := by
  obtain ⟨text, found, read⟩ := Option.map_eq_some_iff.1 current
  exact ⟨text, List.mem_of_getElem? found, read⟩

/-- The cursor is on a snapshot, and `limit` snapshots are kept. -/
structure Shaped (limit : Nat) (h : History) : Prop where
  inside : h.cursor < h.snapshots.length
  limit : h.limit = max 1 limit

theorem shaped_record {limit : Nat} (same : h.limit = max 1 limit) (w : Workflow) :
    (h.record w).Shaped limit := by
  refine ⟨?_, same⟩
  simp only [record, List.length_drop, List.length_append, List.length_take, List.length_singleton]
  omega

theorem Shaped.replaceCurrent {limit : Nat} (shaped : h.Shaped limit) (w : Workflow) :
    (h.replaceCurrent w).Shaped limit := by
  unfold History.replaceCurrent
  rw [if_pos shaped.inside]
  exact ⟨by simpa using shaped.inside, shaped.limit⟩

end History

namespace Sheet

variable {s : Sheet} {v w : Workflow} {f : Workflow → Option Workflow}
  {move : History → Option History}

/-- The live workflow, or one to be restored. -/
def Holds (s : Sheet) (v : Workflow) : Prop := v = s.workflow ∨ ∃ h ∈ s.history, h.Restores v

theorem holds_fresh {r : Retention} (holds : (fresh r w).Holds v) :
    v = w ∨ Workflow.restore w.snapshot = .ok v := by
  rcases holds with live | ⟨h, has, restores⟩
  · exact .inl live
  · unfold fresh at has
    split at has
    · cases has
      rcases History.restores_record restores with ⟨text, none, -⟩ | read
      · cases none
      · exact .inr read
    · cases has

theorem holds_revised (holds : (s.revised f).Holds v) : s.Holds v ∨ f s.workflow = some v := by
  unfold revised at holds
  split at holds
  · rename_i w done
    rcases holds with rfl | restored
    · exact .inr done
    · exact .inl (.inr restored)
  · exact .inl holds

theorem holds_restructured (holds : (s.restructured f).Holds v) :
    s.Holds v ∨ ∃ w, f s.workflow = some w ∧ (v = w ∨ Workflow.restore w.snapshot = .ok v) := by
  unfold restructured at holds
  split at holds
  · rename_i w done
    rcases holds with rfl | ⟨h, has, restores⟩
    · exact .inr ⟨_, done, .inl rfl⟩
    · obtain ⟨old, had, rfl⟩ := Option.map_eq_some_iff.1 has
      rcases History.restores_record restores with restored | read
      · exact .inl (.inr ⟨old, had, restored⟩)
      · exact .inr ⟨w, done, .inr read⟩
  · exact .inl holds

/-- What a move through the history holds was in it, or was live and is now in it. -/
theorem holds_travelled {id : String} (proper : (Act.travel id move).Proper)
    (holds : (s.travelled move).Holds v) :
    s.Holds v ∨ Workflow.restore s.workflow.snapshot = .ok v := by
  have synced {h : History} (has : s.history = some h)
      (restores : (h.replaceCurrent s.workflow).Restores v) :
      s.Holds v ∨ Workflow.restore s.workflow.snapshot = .ok v := by
    rcases History.restores_replaceCurrent restores with old | read
    · exact .inl (.inr ⟨h, has, old⟩)
    · exact .inr read
  have same {h h' : History} (moved : move h = some h') (restores : h'.Restores v) :
      h.Restores v := by
    rwa [History.Restores, proper.within moved] at restores
  have travel := travel_travelled move s
  generalize s.travelled move = t at travel holds
  cases travel with
  | missing none => exact .inl holds
  | stays has stuck =>
    rcases holds with live | ⟨k, held, restores⟩
    · exact .inl (.inl live)
    · cases held
      exact synced has restores
  | fails has moved unread =>
    rcases holds with live | ⟨k, held, restores⟩
    · exact .inl (.inl live)
    · cases held
      exact synced has (same moved restores)
  | lands has moved current =>
    rcases holds with rfl | ⟨k, held, restores⟩
    · exact synced has (same moved (History.restores_current? current))
    · cases held
      exact synced has (same moved restores)

/-- A sheet as edits leave it. -/
structure Kept (r : Retention) (s : Sheet) : Prop where
  named : ∀ v, s.Holds v → v.id = s.workflow.id
  shaped : ∀ h ∈ s.history, h.Shaped r.maxSnapshots.toNat
  enabled : s.history.isSome = r.enabled

theorem kept_fresh (r : Retention) (w : Workflow) : (fresh r w).Kept r := by
  constructor
  · intro v holds
    rcases holds_fresh holds with rfl | read
    · rfl
    · exact Workflow.id_of_restore read
  · intro h has
    unfold fresh at has
    split at has
    · cases has
      exact History.shaped_record rfl w
    · cases has
  · unfold fresh
    cases r.enabled <;> rfl

theorem id_revised (same : ∀ w v, f w = some v → v.id = w.id) (s : Sheet) :
    (s.revised f).workflow.id = s.workflow.id := by
  unfold revised
  split
  · exact same _ _ ‹_›
  · rfl

theorem history_revised (s : Sheet) : (s.revised f).history = s.history := by
  unfold revised
  split <;> rfl

theorem workflow_revised (s : Sheet) :
    (s.revised f).workflow = (f s.workflow).getD s.workflow := by
  unfold revised
  split <;> simp [*]

theorem workflow_restructured (s : Sheet) :
    (s.restructured f).workflow = (f s.workflow).getD s.workflow := by
  unfold restructured
  split <;> simp [*, recorded]

theorem id_restructured (same : ∀ w v, f w = some v → v.id = w.id) (s : Sheet) :
    (s.restructured f).workflow.id = s.workflow.id := by
  unfold restructured
  split
  · exact same _ _ ‹_›
  · rfl

theorem Kept.revised {r : Retention} (kept : s.Kept r)
    (same : ∀ w v, f w = some v → v.id = w.id) : (s.revised f).Kept r := by
  constructor
  · intro v holds
    rw [id_revised same]
    rcases holds_revised holds with old | done
    · exact kept.named v old
    · exact same _ _ done
  · rw [history_revised]
    exact kept.shaped
  · rw [history_revised]
    exact kept.enabled

theorem Kept.restructured {r : Retention} (kept : s.Kept r)
    (same : ∀ w v, f w = some v → v.id = w.id) : (s.restructured f).Kept r := by
  cases done : f s.workflow with
  | none =>
    have unchanged : s.restructured f = s := by simp only [Sheet.restructured, done]
    rw [unchanged]
    exact kept
  | some w =>
    have changed : s.restructured f = { s with workflow := w }.recorded := by
      simp only [Sheet.restructured, done]
    constructor
    · intro v holds
      rw [id_restructured same]
      rcases holds_restructured holds with old | ⟨w', done', rfl | read⟩
      · exact kept.named v old
      · exact same _ _ done'
      · exact (Workflow.id_of_restore read).trans (same _ _ done')
    · intro h has
      rw [changed] at has
      obtain ⟨old, had, rfl⟩ := Option.map_eq_some_iff.1 has
      exact History.shaped_record (kept.shaped old had).limit w
    · rw [changed]
      exact Option.isSome_map.trans kept.enabled

theorem id_travelled {r : Retention} (kept : s.Kept r) {id : String}
    (proper : (Act.travel id move).Proper) {v : Workflow} (holds : (s.travelled move).Holds v) :
    v.id = s.workflow.id := by
  rcases holds_travelled proper holds with old | read
  · exact kept.named v old
  · exact Workflow.id_of_restore read

/-- A sheet that had a history has another one now. -/
theorem Kept.of_history {r : Retention} {h k : History} (kept : s.Kept r)
    (has : s.history = some h) (shaped : k.Shaped r.maxSnapshots.toNat)
    (named : ∀ v, Holds ⟨w, some k⟩ v → v.id = w.id) : Kept r ⟨w, some k⟩ := by
  refine ⟨named, ?_, (congrArg Option.isSome has).symm.trans kept.enabled⟩
  intro h held
  cases held
  exact shaped

theorem Kept.travelled {r : Retention} (kept : s.Kept r) {id : String}
    (proper : (Act.travel id move).Proper) : (s.travelled move).Kept r := by
  have named : ∀ v, (s.travelled move).Holds v → v.id = (s.travelled move).workflow.id :=
    fun v holds => (id_travelled kept proper holds).trans
      (id_travelled kept proper (.inl rfl)).symm
  have synced {h : History} (has : s.history = some h) :
      (h.replaceCurrent s.workflow).Shaped r.maxSnapshots.toNat :=
    (kept.shaped h has).replaceCurrent s.workflow
  have moves {h h' : History} (has : s.history = some h)
      (moved : move (h.replaceCurrent s.workflow) = some h') :
      h'.Shaped r.maxSnapshots.toNat := by
    obtain ⟨i, rfl, inside⟩ := proper _ _ moved
    exact ⟨inside (synced has).inside, (synced has).limit⟩
  have travel := travel_travelled move s
  generalize s.travelled move = t at travel named
  cases travel with
  | missing none => exact kept
  | stays has stuck => exact kept.of_history has (synced has) named
  | fails has moved unread => exact kept.of_history has (moves has moved) named
  | lands has moved current => exact kept.of_history has (moves has moved) named

end Sheet

/-! Canvases -/

namespace Canvas

/-- A canvas as edits leave it. -/
structure Kept (c : Canvas) : Prop where
  distinct : (c.sheets.map (·.workflow.id)).Nodup
  sheets : ∀ s ∈ c.sheets, s.Kept c.retention

end Canvas

namespace Act

variable {r : Retention} {sheets : List Sheet} {act : Act}

theorem kept_makes (proper : act.Proper) (kept : ∀ s ∈ sheets, s.Kept r) {t : Sheet}
    (makes : act.Makes r sheets t) : t.Kept r := by
  cases makes with
  | put w => exact Sheet.kept_fresh r w
  | revise f found => exact (kept _ (List.mem_of_find?_eq_some found)).revised proper
  | restructure f found => exact (kept _ (List.mem_of_find?_eq_some found)).restructured proper
  | travel move found => exact (kept _ (List.mem_of_find?_eq_some found)).travelled proper

theorem distinct_onSheets (proper : act.Proper) (kept : ∀ s ∈ sheets, s.Kept r)
    (distinct : (sheets.map (·.workflow.id)).Nodup) :
    ((act.onSheets r sheets).map (·.workflow.id)).Nodup := by
  cases act with
  | rest => exact distinct
  | put w =>
    rw [onSheets]
    split
    · rw [map_modifyFirst_found]
      · exact distinct
      · intro s found
        have same : s.workflow.id = w.id := by simpa using List.find?_some found
        exact same.symm
    · rename_i unknown
      rw [List.map_append]
      refine distinct.append (List.nodup_singleton _) (List.disjoint_singleton.2 ?_)
      intro member
      obtain ⟨s, old, same⟩ := List.mem_map.1 member
      exact unknown (List.find?_isSome.2 ⟨s, old, decide_eq_true same⟩)
  | drop id => exact distinct.sublist ((List.eraseP_sublist).map _)
  | revise id f =>
    rw [onSheets, map_modifyFirst (Sheet.id_revised proper)]
    exact distinct
  | restructure id f =>
    rw [onSheets, map_modifyFirst (Sheet.id_restructured proper)]
    exact distinct
  | travel id move =>
    rw [onSheets, map_modifyFirst_found]
    · exact distinct
    · intro s found
      exact Sheet.id_travelled (kept s (List.mem_of_find?_eq_some found)) proper (.inl rfl)

/-- The workflow that an act is about. -/
def target? : Act → Option String
  | .rest => none
  | .put w => some w.id
  | .drop id | .revise id _ | .restructure id _ | .travel id _ => some id

/-- An act leaves all other workflows alone. -/
theorem find?_onSheets_other (proper : act.Proper) (kept : ∀ s ∈ sheets, s.Kept r) {id : String}
    (other : act.target? ≠ some id) :
    (act.onSheets r sheets).find? (·.workflow.id = id) = sheets.find? (·.workflow.id = id) := by
  -- the sheet that is changed has another id, before and after
  have apart {own : String} {f : Sheet → Sheet} (elsewhere : own ≠ id)
      (same : ∀ s, sheets.find? (·.workflow.id = own) = some s → (f s).workflow.id = own) :
      (modifyFirst (·.workflow.id = own) f sheets).find? (·.workflow.id = id)
        = sheets.find? (·.workflow.id = id) := by
    refine find?_modifyFirst_apart fun s found => ?_
    have named : s.workflow.id = own := by simpa using List.find?_some found
    exact ⟨by simpa [named] using elsewhere, by simpa [same s found] using elsewhere⟩
  have named {own : String} {s : Sheet} (found : sheets.find? (·.workflow.id = own) = some s) :
      s.workflow.id = own := by simpa using List.find?_some found
  cases act with
  | rest => rfl
  | put w =>
    have elsewhere : w.id ≠ id := fun same => other (congrArg some same)
    rw [onSheets]
    split
    · exact apart elsewhere fun _ _ => rfl
    · have absent : [Sheet.fresh r w].find? (·.workflow.id = id) = none := by
        simpa [Sheet.fresh] using elsewhere
      rw [List.find?_append, absent, Option.or_none]
  | drop own =>
    have elsewhere : own ≠ id := fun same => other (congrArg some same)
    refine find?_eraseP_apart (fun s here => ?_) sheets
    have named : s.workflow.id = own := by simpa using here
    simpa [named] using elsewhere
  | revise own f =>
    refine apart (fun same => other (congrArg some same)) fun s found => ?_
    exact (Sheet.id_revised proper s).trans (named found)
  | restructure own f =>
    refine apart (fun same => other (congrArg some same)) fun s found => ?_
    exact (Sheet.id_restructured proper s).trans (named found)
  | travel own move =>
    refine apart (fun same => other (congrArg some same)) fun s found => ?_
    have here := kept s (List.mem_of_find?_eq_some found)
    exact (Sheet.id_travelled here proper (.inl rfl)).trans (named found)

end Act

namespace Canvas

variable {c : Canvas}

theorem sheet?_perform_other (kept : c.Kept) (fresh : Nat → String) (e : Edit) {id : String}
    (other : (e.act c.layout fresh).target? ≠ some id) :
    (c.perform fresh e).canvas.sheet? id = c.sheet? id := by
  rw [sheet?, sheets_perform]
  exact Act.find?_onSheets_other (e.proper_act c.layout fresh) kept.sheets other

theorem sheet?_perform_revise {fresh : Nat → String} {e : Edit} {id : String}
    {f : Workflow → Option Workflow} {s : Sheet} (act : e.act c.layout fresh = .revise id f)
    (found : c.sheet? id = some s) :
    (c.perform fresh e).canvas.sheet? id = some (s.revised f) := by
  have proper := e.proper_act c.layout fresh
  rw [act] at proper
  rw [sheet?, sheets_perform, act]
  exact find?_modifyFirst_found found
    (decide_eq_true ((Sheet.id_revised proper s).trans (sheet?_eq_some found).2))

theorem sheet?_perform_restructure {fresh : Nat → String} {e : Edit} {id : String}
    {f : Workflow → Option Workflow} {s : Sheet} (act : e.act c.layout fresh = .restructure id f)
    (found : c.sheet? id = some s) :
    (c.perform fresh e).canvas.sheet? id = some (s.restructured f) := by
  have proper := e.proper_act c.layout fresh
  rw [act] at proper
  rw [sheet?, sheets_perform, act]
  exact find?_modifyFirst_found found
    (decide_eq_true ((Sheet.id_restructured proper s).trans (sheet?_eq_some found).2))

theorem sheet?_travelled (kept : c.Kept) {id : String} {move : History → Option History}
    (proper : (Act.travel id move).Proper) {s : Sheet} (found : c.sheet? id = some s) :
    (c.travel id move).2.sheet? id = some (s.travelled move) := by
  obtain ⟨selection, after⟩ := undergoes_travel c id move
  obtain ⟨member, own⟩ := sheet?_eq_some found
  rw [after, sheet?]
  exact find?_modifyFirst_found found
    (decide_eq_true ((Sheet.id_travelled (kept.sheets s member) proper (.inl rfl)).trans own))

theorem kept_perform (kept : c.Kept) (fresh : Nat → String) (e : Edit) :
    (c.perform fresh e).canvas.Kept := by
  have proper := e.proper_act c.layout fresh
  constructor
  · rw [sheets_perform]
    exact Act.distinct_onSheets proper kept.sheets kept.distinct
  · intro s member
    rw [sheets_perform] at member
    rw [retention_perform]
    rcases Act.mem_onSheets member with old | makes
    · exact kept.sheets s old
    · exact Act.kept_makes proper kept.sheets makes

theorem reachable_kept {admits : Canvas → (Nat → String) → Edit → Prop} {s : Settings}
    (reachable : Reachable admits s c) : c.Kept := by
  induction reachable with
  | empty => exact ⟨List.nodup_nil, fun s member => nomatch member⟩
  | perform fresh e before admitted ih => exact kept_perform ih fresh e

end Canvas

end Stepflow
