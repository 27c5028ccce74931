import Mathlib.Data.List.Induction
import Stepflow.Proofs.Canvas.Isolation
import Stepflow.Proofs.Json.RoundTrip

/-!
# Where snapshots come from

Snapshots are written over, cut off, dropped and read in many orders, and a cursor may have moved to
one that could not be read. Through all of this each of them is the text of a workflow that was live
under the same id, since a workflow was last put there.

* `Sheet.Saves`, `Canvas.saves_perform`: the snapshots of a sheet, and what one edit adds to them;
* `Canvas.Lived`: what has been live since a workflow was last put there;
* `Canvas.Remembers`, `Canvas.remembers_stroke`: one stroke keeps snapshots the texts of what lived;
* `Canvas.moves_never_invent`: so undo and redo put back only what has been live.
-/

namespace Stepflow

/-- The stroke puts a workflow on the canvas under the id, in place of another if there is one. -/
def Stroke.founds (id : String) (s : Stroke) : Bool :=
  match s.edit with
  | .createWorkflow _ _ => s.fresh 0 = id
  | .insertWorkflow w => w.id = id
  | _ => false

theorem Stroke.founds_of_put {id : String} {s : Stroke} {layout : Layout} {w : Workflow}
    (act : s.edit.act layout s.fresh = .put w) (own : w.id = id) : s.founds id = true := by
  obtain ⟨fresh, edit⟩ := s
  cases edit with
  | createWorkflow name scope =>
    cases act
    exact decide_eq_true own
  | insertWorkflow v =>
    cases act
    exact decide_eq_true own
  | _ => cases act

theorem Stroke.put_of_founds {id : String} {s : Stroke} (founds : s.founds id = true)
    (layout : Layout) : ∃ w, s.edit.act layout s.fresh = .put w ∧ w.id = id := by
  obtain ⟨fresh, edit⟩ := s
  cases edit with
  | createWorkflow name scope => exact ⟨_, rfl, of_decide_eq_true founds⟩
  | insertWorkflow w => exact ⟨w, rfl, of_decide_eq_true founds⟩
  | _ => cases founds

/-! Snapshots of a sheet -/

namespace Sheet

variable {s : Sheet} {text : String} {f : Workflow → Option Workflow}
  {move : History → Option History}

def Saves (s : Sheet) (text : String) : Prop := ∃ h ∈ s.history, text ∈ h.snapshots

theorem saves_fresh {r : Retention} {w : Workflow} (saves : (fresh r w).Saves text) :
    text = w.snapshot := by
  obtain ⟨h, has, member⟩ := saves
  unfold fresh at has
  split at has
  · cases has
    exact (History.mem_record member).resolve_left List.not_mem_nil
  · cases has

theorem saves_revised (saves : (s.revised f).Saves text) : s.Saves text := by
  rwa [Saves, history_revised] at saves

theorem saves_restructured (saves : (s.restructured f).Saves text) :
    s.Saves text ∨ text = (s.restructured f).workflow.snapshot := by
  unfold restructured at saves ⊢
  split at saves
  · rename_i w done
    obtain ⟨h, has, member⟩ := saves
    obtain ⟨old, had, rfl⟩ := Option.map_eq_some_iff.1 has
    rcases History.mem_record member with before | now
    · exact .inl ⟨old, had, before⟩
    · exact .inr now
  · exact .inl saves

/-- A move through the history writes what is live over a snapshot, and adds none. -/
theorem saves_travelled {id : String} (proper : (Act.travel id move).Proper)
    (saves : (s.travelled move).Saves text) : s.Saves text ∨ text = s.workflow.snapshot := by
  have synced {h : History} (has : s.history = some h)
      (member : text ∈ (h.replaceCurrent s.workflow).snapshots) :
      s.Saves text ∨ text = s.workflow.snapshot :=
    (History.mem_replaceCurrent member).imp_left fun old => ⟨h, has, old⟩
  have travel := travel_travelled move s
  generalize s.travelled move = t at travel saves
  cases travel with
  | missing none => exact .inl saves
  | stays has stuck =>
    obtain ⟨k, held, member⟩ := saves
    cases held
    exact synced has member
  | fails has moved | lands has moved =>
    obtain ⟨k, held, member⟩ := saves
    cases held
    rw [proper.within moved] at member
    exact synced has member

end Sheet

namespace Canvas

variable {settings : Settings} {id : String} {strokes : List Stroke} {v : Workflow}

theorem kept_after {c : Canvas} (kept : c.Kept) (strokes : List Stroke) :
    (c.after strokes).Kept := by
  induction strokes generalizing c with
  | nil => exact kept
  | cons s rest ih => exact ih (kept_perform kept s.fresh s.edit)

/-- A snapshot after an edit is of what is live then, or it was there before, or it is of what was
live before. In a workflow that was put there it is the first. -/
theorem saves_perform {c : Canvas} (kept : c.Kept) {stroke : Stroke} {t : Sheet} {text : String}
    (found : (c.perform stroke.fresh stroke.edit).canvas.sheet? id = some t)
    (saves : t.Saves text) :
    text = t.workflow.snapshot ∨ stroke.founds id = false ∧
      ∃ s, c.sheet? id = some s ∧ (s.Saves text ∨ text = s.workflow.snapshot) := by
  have proper := stroke.edit.proper_act c.layout stroke.fresh
  by_cases founds : stroke.founds id = true
  · obtain ⟨w, act, own⟩ := stroke.put_of_founds founds c.layout
    rw [sheet?_perform_own kept _ _ (by rw [act, ← own]; rfl), act] at found
    cases found
    exact .inl (Sheet.saves_fresh saves)
  · have other : stroke.founds id = false := by simpa using founds
    by_cases own : (stroke.edit.act c.layout stroke.fresh).target? = some id
    · rw [sheet?_perform_own kept _ _ own] at found
      generalize same : stroke.edit.act c.layout stroke.fresh = act at own found proper
      cases act with
      | rest => cases own
      | put w => exact absurd (Stroke.founds_of_put same (Option.some.inj own)) founds
      | drop => cases found
      | revise _ f =>
        obtain ⟨s, known, rfl⟩ := Option.map_eq_some_iff.1 found
        exact .inr ⟨other, s, known, .inl (Sheet.saves_revised saves)⟩
      | restructure _ f =>
        obtain ⟨s, known, rfl⟩ := Option.map_eq_some_iff.1 found
        rcases Sheet.saves_restructured saves with before | new
        · exact .inr ⟨other, s, known, .inl before⟩
        · exact .inl new
      | travel _ move =>
        obtain ⟨s, known, rfl⟩ := Option.map_eq_some_iff.1 found
        exact .inr ⟨other, s, known, Sheet.saves_travelled proper saves⟩
    · rw [sheet?_perform_other kept _ _ own] at found
      exact .inr ⟨other, t, found, .inl saves⟩

/-- The canvas of a session that begins with none. -/
def session (settings : Settings) (strokes : List Stroke) : Canvas :=
  (empty settings).after strokes

theorem session_append (settings : Settings) (strokes : List Stroke) (s : Stroke) :
    session settings (strokes ++ [s])
      = ((session settings strokes).perform s.fresh s.edit).canvas :=
  List.foldl_append

theorem kept_session (settings : Settings) (strokes : List Stroke) :
    (session settings strokes).Kept := by
  have none : Reachable (fun _ _ _ => True) settings (empty settings) := .empty
  exact kept_after (reachable_kept none) strokes

/-- The workflow was live under the id at some moment, after which none was put there. -/
def Lived (settings : Settings) (id : String) (strokes : List Stroke) (v : Workflow) : Prop :=
  ∃ before since, strokes = before ++ since ∧ (∀ s ∈ since, s.founds id = false) ∧
    (session settings before).workflow? id = some v

theorem lived_now {s : Sheet} (live : (session settings strokes).sheet? id = some s) :
    Lived settings id strokes s.workflow :=
  ⟨strokes, [], (List.append_nil _).symm, by simp, by rw [workflow?, live]; rfl⟩

theorem Lived.later (lived : Lived settings id strokes v) {s : Stroke}
    (other : s.founds id = false) : Lived settings id (strokes ++ [s]) v := by
  obtain ⟨before, since, rfl, unfounded, live⟩ := lived
  refine ⟨before, since ++ [s], List.append_assoc .., ?_, live⟩
  intro t member
  rcases List.mem_append.1 member with earlier | last
  · exact unfounded t earlier
  · rw [List.mem_singleton.1 last]
    exact other

/-- Every snapshot of the workflow `id` is the text of one that has been live there. -/
def Remembers (settings : Settings) (id : String) (strokes : List Stroke) : Prop :=
  ∀ s, (session settings strokes).sheet? id = some s → ∀ text, s.Saves text →
    ∃ v, Lived settings id strokes v ∧ text = v.snapshot

theorem remembers_stroke (remembers : Remembers settings id strokes) (stroke : Stroke) :
    Remembers settings id (strokes ++ [stroke]) := by
  intro t found text saves
  have now : Lived settings id (strokes ++ [stroke]) t.workflow := lived_now found
  rw [session_append] at found
  rcases saves_perform (kept_session settings strokes) found saves with
    new | ⟨other, s, known, saved | live⟩
  · exact ⟨t.workflow, now, new⟩
  · obtain ⟨v, lived, same⟩ := remembers s known text saved
    exact ⟨v, lived.later other, same⟩
  · exact ⟨s.workflow, (lived_now known).later other, live⟩

theorem remembers_session (settings : Settings) (id : String) (strokes : List Stroke) :
    Remembers settings id strokes := by
  induction strokes using List.reverseRecOn with
  | nil => exact fun s found => nomatch found
  | append_singleton earlier s ih => exact remembers_stroke ih s

/-- A move that succeeds leads to a snapshot that can be read. -/
theorem travel_lands {c : Canvas} {move : History → Option History}
    (moved : (c.travel id move).1 = true) :
    ∃ s h h' v, c.sheet? id = some s ∧ s.history = some h ∧
      move (h.replaceCurrent s.workflow) = some h' ∧ h'.current? = some (.ok v) ∧
      s.travelled move = ⟨v, some h'⟩ := by
  cases found : c.sheet? id with
  | none => simp [travel, found] at moved
  | some s =>
    obtain ⟨live, history⟩ := s
    cases history with
    | none => simp [travel, found] at moved
    | some h =>
      cases led : move (h.replaceCurrent live) with
      | none => simp [travel, found, led] at moved
      | some h' =>
        rcases current : h'.current? with _ | failure | v
        · simp [travel, found, led, current] at moved
        · simp [travel, found, led, current] at moved
        · exact ⟨_, h, h', v, rfl, rfl, led, current, by simp [Sheet.travelled, led, current]⟩

/-- **Undo and redo never invent a state.** After any edits, whatever became of snapshots and of
moves that failed: a move that is answered with true puts in place what the snapshot of a workflow
is read as that was live under the id since one was last put there, and that workflow itself, if its
doubles are read as they were written. -/
theorem moves_never_invent (settings : Settings) (strokes : List Stroke) (id : String) (way : Way)
    (fresh : Nat → String) :
    let moved := (session settings strokes).perform fresh (way.edit id)
    moved.reply = .accepted true →
      ∃ u, Lived settings id strokes u ∧
        (∃ v, moved.canvas.workflow? id = some v ∧ Workflow.restore u.snapshot = .ok v) ∧
        ((∀ x ∈ u.encode.doubles, x.ReadsBack) → moved.canvas.workflow? id = some u) := by
  intro moved accepted
  have kept := kept_session settings strokes
  have proper : (Act.travel id way.move).Proper := by
    cases way with
    | back => exact (Edit.undo id).proper_act (session settings strokes).layout fresh
    | forward => exact (Edit.redo id).proper_act (session settings strokes).layout fresh
  obtain ⟨answer, canvas⟩ := perform_way fresh (session settings strokes) id way
  have travelled : ((session settings strokes).travel id way.move).1 = true := by
    have answer : moved.reply.isRefusal = _ := answer
    rw [accepted] at answer
    simpa [Reply.isRefusal] using answer
  obtain ⟨s, h, h', v, found, has, led, current, lands⟩ := travel_lands travelled
  -- the snapshot was there before the move, or is the one that the move has written
  obtain ⟨text, there, read⟩ := Option.map_eq_some_iff.1 current
  have member : text ∈ (h.replaceCurrent s.workflow).snapshots := by
    rw [← proper.within led]
    exact List.mem_of_getElem? there
  obtain ⟨u, lived, rfl⟩ : ∃ u, Lived settings id strokes u ∧ text = u.snapshot := by
    rcases History.mem_replaceCurrent member with old | live
    · exact remembers_session settings id strokes s found text ⟨h, has, old⟩
    · exact ⟨s.workflow, lived_now found, live⟩
  have result : moved.canvas.workflow? id = some v := by
    change ((session settings strokes).perform fresh (way.edit id)).canvas.workflow? id = some v
    rw [canvas, workflow?, sheet?_travelled kept proper found, lands]
    rfl
  refine ⟨u, lived, ⟨v, result, read⟩, fun doubles => ?_⟩
  rw [result, Workflow.restore_self read doubles]

/-- The name was changed without a snapshot, and undo of the next edit puts back the old one. -/
theorem renamed_undo_not_invented :
    let strokes : List Stroke := [
      ⟨(["w", "s"].getD · ""), .createWorkflow "A" .server⟩,
      ⟨fun _ => "", .updateWorkflow "w" ⟨some "B", none⟩⟩,
      ⟨fun _ => "a", .addNode "w" .action (.ofInt 0) (.ofInt 0)⟩]
    let moved := (session {} strokes).perform (fun _ => "") (.undo "w")
    moved.reply = .accepted true ∧ ∃ u, Lived {} "w" strokes u ∧
      (∃ v, moved.canvas.workflow? "w" = some v ∧ Workflow.restore u.snapshot = .ok v) ∧
      ((∀ x ∈ u.encode.doubles, x.ReadsBack) → moved.canvas.workflow? "w" = some u) := by
  intro strokes
  have reachable : Reachable (fun _ _ _ => True) {} (renamed {}) :=
    .perform _ _ (.perform _ _ .empty trivial) trivial
  have snapshot : ((History.empty 100).record (.blank "w" "s" "A" .server)).current?
      = some (Workflow.restore (Workflow.snapshot (.blank "w" "s" "A" .server))) := by
    rw [History.current?, History.getElem?_record _ _ (by decide), Option.map_some]
  have stands : Sheet.StandsFor ⟨.blank "w" "s" "B" .server,
      some ((History.empty 100).record (.blank "w" "s" "A" .server))⟩
      (.blank "w" "s" "A" .server) := by
    refine ⟨_, rfl, snapshot.trans ?_⟩
    exact congrArg some (Workflow.restore_legible (Workflow.legible_blank "w" "s" "A" .server))
  let node := Edit.addNode "w" .action (.ofInt 0) (.ofInt 0)
  have back (v : Workflow) : let edited := ((renamed {}).perform (fun _ => "a") node).canvas
      (edited.undo "w").1 = true ∧ (edited.undo "w").2.workflow? "w" = some v ↔
        Sheet.StandsFor _ v := undo_puts_back reachable rfl (by decide) rfl rfl rfl v
  have same : session {} strokes = ((renamed {}).perform (fun _ => "a") node).canvas := rfl
  have answers (c : Canvas) :
      (c.perform (fun _ => "") (.undo "w")).reply = .accepted (c.undo "w").1 := rfl
  have accepted : ((session {} strokes).perform (fun _ => "") (.undo "w")).reply
      = .accepted true := by
    rw [answers, same, ((back _).2 stands).1]
  exact ⟨accepted, moves_never_invent {} strokes "w" .back (fun _ => "") accepted⟩

end Canvas

end Stepflow
