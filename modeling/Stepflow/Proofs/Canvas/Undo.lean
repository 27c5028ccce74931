import Stepflow.Proofs.Canvas.Histories

/-!
# What undo takes back

A structural edit leaves a snapshot of its result behind the snapshot under the cursor, so undoing
it puts back what that earlier snapshot is read as. It is the workflow that the edit found only as
long as no unrecorded edit came between.

* `Canvas.Settled`: the snapshot under the cursor stands for the live workflow;
* `Canvas.undo_takes_back_iff`: undo takes back exactly the last structural edit if and only if the
  workflow was settled before it;
* `Canvas.settled_record`, `Canvas.settled_travel`: what settles a workflow;
* `Canvas.undo_takes_back_revisions`: what undo takes back after unrecorded edits.
-/

namespace Stepflow

namespace History

variable {h : History} {limit : Nat}

/-- Behind the cursor of a new snapshot is the one it was put behind, if two are kept. -/
theorem getElem?_behind_record (shaped : h.Shaped limit) (room : 2 ≤ limit) (w : Workflow) :
    0 < (h.record w).cursor ∧
      (h.record w).snapshots[(h.record w).cursor - 1]? = h.snapshots[h.cursor]? := by
  have inside := shaped.inside
  have limit := shaped.limit
  have kept : (h.snapshots.take (h.cursor + 1)).length = h.cursor + 1 := by
    rw [List.length_take]
    omega
  simp only [record, List.length_drop, List.length_append, kept, List.length_singleton,
    List.getElem?_drop]
  refine ⟨by omega, ?_⟩
  have place : h.cursor + 1 + 1 - h.limit
      + (h.cursor + 1 + 1 - (h.cursor + 1 + 1 - h.limit) - 1 - 1) = h.cursor := by omega
  rw [place, List.getElem?_append_left (by omega), List.getElem?_take_of_lt (by omega)]

/-- Going back from a new snapshot leads to the one it was put behind, if two are kept. -/
theorem back?_record (shaped : h.Shaped limit) (room : 2 ≤ limit) (w : Workflow) :
    ∃ h', ((h.record w).replaceCurrent w).back? = some h' ∧ h'.current? = h.current? := by
  obtain ⟨above, behind⟩ := getElem?_behind_record shaped room w
  have inside := (shaped_record shaped.limit w).inside
  rw [replaceCurrent, if_pos inside]
  refine ⟨_, if_pos (decide_eq_true above), ?_⟩
  have other : (h.record w).cursor ≠ (h.record w).cursor - 1 := by omega
  rw [current?, current?, List.getElem?_set_ne other, behind]

end History

/-- The workflow whose structure an edit changes. -/
def Edit.structure? : Edit → Option String
  | .addNode w _ _ _ | .removeNode w _ | .duplicateNode w _ => some w
  | .connect w _ _ _ | .disconnect w _ _ => some w
  | .insertBetween w _ _ _ _ _ | .insertSuggested w _ _ _ _ _ => some w
  | .addParameter w _ | .updateParameter w _ _ _ | .removeParameter w _ _ => some w
  | _ => none

/-- The snapshot under the cursor is read as `w`. -/
def Sheet.StandsFor (s : Sheet) (w : Workflow) : Prop :=
  ∃ h, s.history = some h ∧ h.current? = some (.ok w)

namespace Canvas

variable {c : Canvas} {id : String} {s : Sheet}

/-- The snapshot under the cursor is read as the live workflow. -/
def Settled (c : Canvas) (id : String) : Prop :=
  ∃ s, c.sheet? id = some s ∧ s.StandsFor s.workflow

theorem of_restructure? {f : Workflow → Option Workflow} {edited : Canvas}
    (done : c.restructure? id f = some edited) :
    ∃ s w, c.sheet? id = some s ∧ f s.workflow = some w := by
  simp only [restructure?, Option.bind_eq_bind, Option.bind_eq_some_iff] at done
  obtain ⟨s, found, w, changed, -⟩ := done
  exact ⟨s, w, found, changed⟩

/-- An accepted edit of the structure has changed the workflow. -/
theorem restructure_of_accepted {fresh : Nat → String} {e : Edit}
    (structural : e.structure? = some id) (accepted : (c.perform fresh e).reply.isRefusal = false) :
    ∃ f s w, e.act c.layout fresh = .restructure id f ∧ c.sheet? id = some s ∧
      f s.workflow = some w := by
  have answered (o : Option Canvas) (yes : (c.answer o).reply.isRefusal = false) :
      ∃ edited, o = some edited := by
    cases o with
    | none => cases yes
    | some edited => exact ⟨edited, rfl⟩
  have created (new : String) (o : Option Canvas)
      (yes : (c.creation new o).reply.isRefusal = false) : ∃ edited, o = some edited := by
    cases o with
    | none => cases yes
    | some edited => exact ⟨edited, rfl⟩
  cases e with
  | addNode | duplicateNode | insertBetween | insertSuggested | addParameter =>
    cases structural
    obtain ⟨edited, done⟩ := created _ _ accepted
    exact ⟨_, _, _, rfl, (of_restructure? done).choose_spec.choose_spec⟩
  | connect | disconnect | updateParameter | removeParameter =>
    cases structural
    obtain ⟨edited, done⟩ := answered _ accepted
    exact ⟨_, _, _, rfl, (of_restructure? done).choose_spec.choose_spec⟩
  | removeNode w n =>
    cases structural
    obtain ⟨edited, done⟩ := answered _ accepted
    obtain ⟨removed, done, -⟩ := Option.bind_eq_some_iff.1 done
    exact ⟨_, _, _, rfl, (of_restructure? done).choose_spec.choose_spec⟩
  | _ => cases structural

theorem sheet?_travel {live u : Workflow} {h h' : History} {move : History → Option History}
    (found : c.sheet? id = some ⟨live, some h⟩) (moved : move (h.replaceCurrent live) = some h')
    (current : h'.current? = some (.ok u)) (named : u.id = id) :
    (c.travel id move).1 = true ∧ (c.travel id move).2.sheet? id = some ⟨u, some h'⟩ := by
  have put : (c.setSheet id ⟨u, some h'⟩).sheet? id = some ⟨u, some h'⟩ := by
    rw [sheet?_setSheet c named, if_pos rfl, found]
    rfl
  simp only [travel, found, moved, current]
  split
  · exact ⟨trivial, put⟩
  · exact ⟨trivial, put⟩

/-- A move that leads to a snapshot puts back what it is read as, and nothing else. -/
theorem travel_puts_back {live : Workflow} {h h' : History} {move : History → Option History}
    (found : c.sheet? id = some ⟨live, some h⟩) (moved : move (h.replaceCurrent live) = some h')
    (named : ∀ v, h'.current? = some (.ok v) → v.id = id) (v : Workflow) :
    (c.travel id move).1 = true ∧ (c.travel id move).2.workflow? id = some v ↔
      h'.current? = some (.ok v) := by
  rcases current : h'.current? with _ | failure | u
  · simp [travel, found, moved, current]
  · simp [travel, found, moved, current]
  · obtain ⟨yes, back⟩ := sheet?_travel found moved current (named u current)
    rw [workflow?, back]
    simp [yes]

theorem reachable_retention {admits : Canvas → (Nat → String) → Edit → Prop} {settings : Settings}
    (reachable : Reachable admits settings c) : c.retention = settings.retention := by
  induction reachable with
  | empty => rfl
  | perform fresh e before admitted ih => rw [retention_perform, ih]

/-- What an accepted edit of the structure leaves: its result, with a snapshot behind the others. -/
theorem sheet?_of_accepted {admits : Canvas → (Nat → String) → Edit → Prop} {settings : Settings}
    (reachable : Reachable admits settings c) (enabled : settings.retention.enabled = true)
    {fresh : Nat → String} {e : Edit} (structural : e.structure? = some id)
    (accepted : (c.perform fresh e).reply.isRefusal = false) :
    ∃ s h w, c.sheet? id = some s ∧ s.history = some h ∧
      h.Shaped settings.retention.maxSnapshots.toNat ∧
      (c.perform fresh e).canvas.sheet? id = some ⟨w, some (h.record w)⟩ := by
  obtain ⟨f, s, w, act, found, done⟩ := restructure_of_accepted structural accepted
  have kept := (reachable_kept reachable).sheets s (sheet?_eq_some found).1
  rw [reachable_retention reachable] at kept
  obtain ⟨h, has⟩ := Option.isSome_iff_exists.1 (kept.enabled.trans enabled)
  have changed : s.restructured f = ⟨w, some (h.record w)⟩ := by
    simp only [Sheet.restructured, done, Sheet.recorded, has, Option.map_some]
  refine ⟨s, h, w, found, has, kept.shaped h has, ?_⟩
  rw [sheet?_perform_restructure act found, changed]

/-- Undoing a structural edit puts back what the snapshot before it stands for. -/
theorem undo_puts_back {admits : Canvas → (Nat → String) → Edit → Prop} {settings : Settings}
    (reachable : Reachable admits settings c) (enabled : settings.retention.enabled = true)
    (room : 2 ≤ settings.retention.maxSnapshots) (found : c.sheet? id = some s)
    {fresh : Nat → String} {e : Edit} (structural : e.structure? = some id)
    (accepted : (c.perform fresh e).reply.isRefusal = false) (v : Workflow) :
    let edited := (c.perform fresh e).canvas
    (edited.undo id).1 = true ∧ (edited.undo id).2.workflow? id = some v ↔ s.StandsFor v := by
  intro edited
  obtain ⟨t, h, w, found', has, shaped, now⟩ :=
    sheet?_of_accepted reachable enabled structural accepted
  cases found.symm.trans found'
  obtain ⟨h', gone, same⟩ := History.back?_record shaped (UInt64.le_iff_toNat_le.1 room) w
  have kept := (reachable_kept reachable).sheets s (sheet?_eq_some found).1
  have own := (sheet?_eq_some found).2
  have named : ∀ v, h'.current? = some (.ok v) → v.id = id := by
    intro v current
    rw [same] at current
    exact (kept.named v (.inr ⟨h, has, History.restores_current? current⟩)).trans own
  rw [undo, travel_puts_back now gone named, same]
  constructor
  · intro current
    exact ⟨h, has, current⟩
  · rintro ⟨k, has', current⟩
    cases has.symm.trans has'
    exact current

/-- **Undo takes back exactly the last structural edit if and only if the workflow was settled
before it.** -/
theorem undo_takes_back_iff {admits : Canvas → (Nat → String) → Edit → Prop} {settings : Settings}
    (reachable : Reachable admits settings c) (enabled : settings.retention.enabled = true)
    (room : 2 ≤ settings.retention.maxSnapshots) {before : Workflow}
    (live : c.workflow? id = some before) {fresh : Nat → String} {e : Edit}
    (structural : e.structure? = some id)
    (accepted : (c.perform fresh e).reply.isRefusal = false) :
    let edited := (c.perform fresh e).canvas
    (edited.undo id).1 = true ∧ (edited.undo id).2.workflow? id = some before ↔ c.Settled id := by
  intro edited
  obtain ⟨s, found, rfl⟩ := Option.map_eq_some_iff.1 live
  have puts := undo_puts_back reachable enabled room found structural accepted s.workflow
  constructor
  · intro back
    exact ⟨s, found, puts.1 back⟩
  · rintro ⟨t, found', stands⟩
    cases found.symm.trans found'
    exact puts.2 stands

def created (settings : Settings) : Canvas :=
  ((empty settings).perform (["w", "s"].getD · "") (.createWorkflow "A" .server)).canvas

def renamed (settings : Settings) : Canvas :=
  ((created settings).perform (fun _ => "") (.updateWorkflow "w" ⟨some "B", none⟩)).canvas

/-- Undoing a first node leaves a new workflow as it was. After a name was changed, the old name
comes back. -/
theorem renamed_undo :
    let node := Edit.addNode "w" .action (.ofInt 0) (.ofInt 0)
    let first := ((created {}).perform (fun _ => "a") node).canvas
    let second := ((renamed {}).perform (fun _ => "a") node).canvas
    ((first.undo "w").1 = true ∧
      (first.undo "w").2.workflow? "w" = some (.blank "w" "s" "A" .server)) ∧
    ¬((second.undo "w").1 = true ∧
      (second.undo "w").2.workflow? "w" = some (.blank "w" "s" "B" .server)) := by
  intro node first second
  have reachable : Reachable (fun _ _ _ => True) {} (created {}) := .perform _ _ .empty trivial
  have snapshot : ((History.empty 100).record (.blank "w" "s" "A" .server)).current?
      = some (Workflow.restore (Workflow.snapshot (.blank "w" "s" "A" .server))) := by
    rw [History.current?, History.getElem?_record _ _ (by decide), Option.map_some]
  have settled : (created {}).Settled "w" := by
    refine ⟨_, rfl, _, rfl, snapshot.trans ?_⟩
    exact congrArg some (Workflow.restore_legible (Workflow.legible_blank "w" "s" "A" .server))
  have unsettled : ¬(renamed {}).Settled "w" := by
    rintro ⟨s, found, h, has, current⟩
    cases (rfl : (renamed {}).sheet? "w" = _).symm.trans found
    cases has
    have read := Option.some.inj (snapshot.symm.trans current)
    have name := congrArg Workflow.name (Workflow.of_restore read).1
    exact absurd name (by decide)
  constructor
  · exact (undo_takes_back_iff reachable rfl (by decide) rfl rfl rfl).2 settled
  · intro back
    have again := reachable.perform (fun _ => "") (.updateWorkflow "w" ⟨some "B", none⟩) trivial
    exact unsettled ((undo_takes_back_iff again rfl (by decide) rfl rfl rfl).1 back)

/-- A structural edit settles its result, if the result can be read. -/
theorem settled_record {admits : Canvas → (Nat → String) → Edit → Prop} {settings : Settings}
    (reachable : Reachable admits settings c) (enabled : settings.retention.enabled = true)
    {fresh : Nat → String} {e : Edit} (structural : e.structure? = some id)
    (accepted : (c.perform fresh e).reply.isRefusal = false)
    (legible : ∀ w, (c.perform fresh e).canvas.workflow? id = some w → w.Legible) :
    (c.perform fresh e).canvas.Settled id := by
  obtain ⟨s, h, w, found, has, shaped, now⟩ :=
    sheet?_of_accepted reachable enabled structural accepted
  have readable := legible w (by rw [workflow?, now]; rfl)
  have positive : 0 < h.limit := by
    have := shaped.limit
    omega
  refine ⟨_, now, _, rfl, ?_⟩
  rw [History.current?, h.getElem?_record w positive]
  exact congrArg some (Workflow.restore_legible readable)

/-- Moving through the history settles the workflow that is put back. -/
theorem settled_travel {move : History → Option History} (kept : c.Kept)
    (proper : (Act.travel id move).Proper) (moved : (c.travel id move).1 = true) :
    (c.travel id move).2.Settled id := by
  cases found : c.sheet? id with
  | none => simp [travel, found] at moved
  | some s =>
    obtain ⟨member, own⟩ := sheet?_eq_some found
    have named := (Sheet.id_travelled (kept.sheets s member) proper (.inl rfl)).trans own
    obtain ⟨live, history⟩ := s
    cases history with
    | none => simp [travel, found] at moved
    | some h =>
      cases gone : move (h.replaceCurrent live) with
      | none => simp [travel, found, gone] at moved
      | some h' =>
        rcases current : h'.current? with _ | failure | u
        · simp [travel, found, gone, current] at moved
        · simp [travel, found, gone, current] at moved
        · simp only [Sheet.travelled, gone, current] at named
          exact ⟨_, (sheet?_travel found gone current named).2, h', rfl, current⟩

/-! Unrecorded edits -/

/-- Edits that neither leave a snapshot nor move to one. -/
inductive Revised (c : Canvas) : Canvas → Prop where
  | refl : Revised c c
  | rest {d : Canvas} (fresh : Nat → String) (e : Edit) (before : Revised c d)
      (act : e.act d.layout fresh = .rest) : Revised c (d.perform fresh e).canvas
  | revise {d : Canvas} (fresh : Nat → String) (e : Edit) {id : String}
      {f : Workflow → Option Workflow} (before : Revised c d)
      (act : e.act d.layout fresh = .revise id f) : Revised c (d.perform fresh e).canvas

theorem reachable_revised {settings : Settings} {d : Canvas}
    (reachable : Reachable (fun _ _ _ => True) settings c) (revised : Revised c d) :
    Reachable (fun _ _ _ => True) settings d := by
  induction revised with
  | refl => exact reachable
  | rest fresh e before act ih => exact ih.perform fresh e trivial
  | revise fresh e before act ih => exact ih.perform fresh e trivial

/-- They leave the history of every workflow as it is. -/
theorem history_revised {d : Canvas} (revised : Revised c d) (found : c.sheet? id = some s) :
    ∃ t, d.sheet? id = some t ∧ t.history = s.history := by
  induction revised with
  | refl => exact ⟨s, found, rfl⟩
  | @rest d fresh e before act ih =>
    obtain ⟨t, present, same⟩ := ih
    refine ⟨t, ?_, same⟩
    rw [sheet?, sheets_perform, act]
    exact present
  | @revise d fresh e id' f before act ih =>
    obtain ⟨t, present, same⟩ := ih
    have proper := e.proper_act d.layout fresh
    rw [act] at proper
    have key : ∀ u : Sheet, decide ((u.revised f).workflow.id = id) = decide (u.workflow.id = id) :=
      fun u => by rw [Sheet.id_revised proper]
    rw [sheet?, sheets_perform, act, Act.onSheets]
    rcases find?_modifyFirst_other (p := (·.workflow.id = id')) key present with kept | changed
    · exact ⟨t, kept, same⟩
    · exact ⟨t.revised f, changed, (Sheet.history_revised t).trans same⟩

/-- Undo takes back unrecorded edits together with the structural one: it goes back to where the
workflow was settled last. -/
theorem undo_takes_back_revisions {settings : Settings}
    (reachable : Reachable (fun _ _ _ => True) settings c)
    (enabled : settings.retention.enabled = true) (room : 2 ≤ settings.retention.maxSnapshots)
    {w : Workflow} (live : c.workflow? id = some w) (settled : c.Settled id) {d : Canvas}
    (revised : Revised c d) {fresh : Nat → String} {e : Edit} (structural : e.structure? = some id)
    (accepted : (d.perform fresh e).reply.isRefusal = false) :
    let edited := (d.perform fresh e).canvas
    (edited.undo id).1 = true ∧ (edited.undo id).2.workflow? id = some w := by
  obtain ⟨s, found, h, has, current⟩ := settled
  obtain ⟨s', found', rfl⟩ := Option.map_eq_some_iff.1 live
  cases found.symm.trans found'
  obtain ⟨t, present, same⟩ := history_revised revised found
  have still := reachable_revised reachable revised
  exact (undo_puts_back still enabled room present structural accepted _).2
    ⟨h, same.trans has, current⟩

end Canvas

end Stepflow
