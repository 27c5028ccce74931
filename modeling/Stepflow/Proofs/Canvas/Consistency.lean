import Stepflow.Proofs.Canvas.Histories
import Stepflow.Proofs.Workflow.Issues

/-!
# Edges stay consistent

Edits keep every workflow well formed, live or to be restored, as long as the ids they draw are
new and the workflows they bring along are well formed.

* `Sheet.Sound`: everything that a sheet holds is well formed;
* `Act.Sound`, `Canvas.sound_act`: what is asked of an act, and that orderly edits provide it;
* `Canvas.sessions_wellFormed`: the workflows of a canvas at the end of a session.
-/

namespace Stepflow

def Sheet.Sound (s : Sheet) : Prop := ∀ v, s.Holds v → v.WellFormed

/-- What an act makes of well-formed workflows is well formed. -/
def Act.Sound (sheets : List Sheet) : Act → Prop
  | .put w => w.WellFormed
  | .revise id f | .restructure id f => ∀ s v, sheets.find? (·.workflow.id = id) = some s →
    s.workflow.WellFormed → f s.workflow = some v → v.WellFormed
  | _ => True

theorem Act.sound_makes {r : Retention} {sheets : List Sheet} {act : Act} (proper : act.Proper)
    (sound : act.Sound sheets) (all : ∀ s ∈ sheets, s.Sound) {t : Sheet}
    (makes : act.Makes r sheets t) : t.Sound := by
  intro v holds
  cases makes with
  | put w =>
    rcases Sheet.holds_fresh holds with rfl | read
    · exact sound
    · exact Workflow.WellFormed.restored sound read
  | @revise id s f found =>
    have old := all s (List.mem_of_find?_eq_some found)
    rcases Sheet.holds_revised holds with held | done
    · exact old v held
    · exact sound s v found (old _ (.inl rfl)) done
  | @restructure id s f found =>
    have old := all s (List.mem_of_find?_eq_some found)
    rcases Sheet.holds_restructured holds with held | ⟨w, done, rfl | read⟩
    · exact old v held
    · exact sound s _ found (old _ (.inl rfl)) done
    · exact (sound s w found (old _ (.inl rfl)) done).restored read
  | @travel id s move found =>
    have old := all s (List.mem_of_find?_eq_some found)
    rcases Sheet.holds_travelled proper holds with held | read
    · exact old v held
    · exact (old _ (.inl rfl)).restored read

namespace Canvas

variable {c : Canvas} {id : String} {s : Sheet}

/-- The ids of all workflows, nodes and parameters. -/
def usedIds (c : Canvas) : List String :=
  c.workflows.flatMap fun w => w.id :: w.ids ++
    (Lexicon.members : List ParameterList).flatMap fun list => (w.parameters list).map (·.id)

/-- The ids that an edit draws are new, and a workflow that it brings along is well formed. -/
structure Orderly (c : Canvas) (fresh : Nat → String) (e : Edit) : Prop where
  fresh : ∀ i < (c.perform fresh e).drawn, fresh i ∉ c.usedIds
  inserted : ∀ w, e = .insertWorkflow w → w.WellFormed

theorem mem_usedIds (found : c.sheet? id = some s) {node : String}
    (member : node ∈ s.workflow.ids) : node ∈ c.usedIds := by
  have listed : s.workflow ∈ c.workflows :=
    List.mem_map_of_mem (List.mem_of_find?_eq_some found)
  exact List.mem_flatMap.2 ⟨_, listed, List.mem_append_left _ (.tail _ member)⟩

/-- An accepted edit that creates something draws an id for it. -/
theorem drawn_creation {f : Workflow → Option Workflow} {v : Workflow} (new : String)
    (found : c.sheet? id = some s) (done : f s.workflow = some v) :
    (c.creation new (c.restructure? id f)).drawn = 1 := by
  simp [restructure?, found, done, creation]

theorem drawn_answer (o : Option Canvas) : (c.answer o).drawn = 0 := by
  cases o <;> rfl

theorem drawn_undo (fresh : Nat → String) (c : Canvas) (id : String) :
    (c.perform fresh (.undo id)).drawn = 0 := rfl

/-- An edit that neither creates nor brings along anything asks for nothing. -/
theorem orderly_of_undrawn {fresh : Nat → String} {e : Edit}
    (undrawn : (c.perform fresh e).drawn = 0) (nothing : ∀ w, e ≠ .insertWorkflow w) :
    c.Orderly fresh e where
  fresh i drawn := absurd (undrawn ▸ drawn) (Nat.not_lt_zero i)
  inserted w same := absurd same (nothing w)

theorem sound_act {fresh : Nat → String} {e : Edit} (orderly : c.Orderly fresh e) :
    (e.act c.layout fresh).Sound c.sheets := by
  -- The id of a new node is drawn only when the edit is accepted, so it is new only then.
  have new {id : String} {s : Sheet} {v : Workflow} {f : Workflow → Option Workflow}
      (found : c.sheet? id = some s) (done : f s.workflow = some v)
      (same : (c.perform fresh e).drawn = (c.creation (fresh 0) (c.restructure? id f)).drawn) :
      fresh 0 ∉ s.workflow.ids := by
    intro used
    have drawn : 0 < (c.perform fresh e).drawn := by
      rw [same, drawn_creation _ found done]
      exact Nat.one_pos
    exact orderly.fresh 0 drawn (mem_usedIds found used)
  cases e with
  | createWorkflow name scope => exact Workflow.wellFormed_blank _ _ name scope
  | insertWorkflow w => exact orderly.inserted w rfl
  | removeWorkflow | selectNode | clearSelection | undo | redo => trivial
  | updateWorkflow w change =>
    intro s v found old done
    cases done
    have same : (change.apply s.workflow).nodes = s.workflow.nodes := rfl
    exact old.congr (by rw [same])
  | addNode w kind x y =>
    intro s v found old done
    have unused := new found done rfl
    cases done
    exact old.addNode unused rfl rfl
  | updateNode | configureNode | moveNode | toggleBreakpoint =>
    intro s v found old done
    obtain ⟨-, rfl⟩ := Workflow.modifyNode?_eq_some.1 done
    exact old.modifyNode _ fun _ => rfl
  | removeNode w n =>
    intro s v found old done
    obtain ⟨-, rfl⟩ := Workflow.removeNode?_eq_some.1 done
    exact old.removeNode n
  | duplicateNode w n =>
    intro s v found old done
    have unused := new found done rfl
    obtain ⟨m, -, rfl⟩ := Workflow.duplicateNode?_eq_some.1 done
    exact old.addNode unused rfl rfl
  | connect w source target port => exact fun s v found old done => old.connect? done
  | disconnect w source target => exact fun s v found old done => old.disconnect? done
  | insertBetween | insertSuggested =>
    intro s v found old done
    exact old.insertBetween? (new found done rfl) done
  | addParameter =>
    intro s v found old done
    cases done
    exact old.congr (by rw [Workflow.addParameter, Workflow.nodes_modifyParameters])
  | updateParameter =>
    intro s v found old done
    obtain ⟨-, rfl⟩ := Workflow.updateParameter?_eq_some.1 done
    exact old.congr (by rw [Workflow.nodes_modifyParameters])
  | removeParameter =>
    intro s v found old done
    obtain ⟨-, rfl⟩ := Workflow.removeParameter?_eq_some.1 done
    exact old.congr (by rw [Workflow.nodes_modifyParameters])

theorem sound_perform {fresh : Nat → String} {e : Edit} (orderly : c.Orderly fresh e)
    (sound : ∀ s ∈ c.sheets, s.Sound) : ∀ s ∈ (c.perform fresh e).canvas.sheets, s.Sound := by
  intro s member
  rw [sheets_perform] at member
  rcases Act.mem_onSheets member with old | makes
  · exact sound s old
  · exact Act.sound_makes (e.proper_act c.layout fresh) (sound_act orderly) sound makes

theorem reachable_sound {settings : Settings} (reachable : Reachable Orderly settings c) :
    ∀ s ∈ c.sheets, s.Sound := by
  induction reachable with
  | empty => exact fun s member => nomatch member
  | perform fresh e before orderly ih => exact sound_perform orderly ih

/-- **After every session all workflows are well formed, under distinct ids.** So at most their
start nodes and the names of their parameters are reported. -/
theorem sessions_wellFormed {settings : Settings} (reachable : Reachable Orderly settings c) :
    (c.workflows.map (·.id)).Nodup ∧ ∀ w ∈ c.workflows, w.WellFormed ∧
      ∀ i ∈ w.issues, i = .noStart ∨ (∃ count, i = .severalStarts count) ∨
        ∃ list name, i = .repeatedName list name := by
  constructor
  · have distinct := (reachable_kept reachable).distinct
    rwa [workflows, List.map_map]
  · intro w member
    obtain ⟨s, onCanvas, rfl⟩ := List.mem_map.1 member
    have wellFormed := reachable_sound reachable s onCanvas _ (.inl rfl)
    exact ⟨wellFormed, fun i reported => wellFormed.of_mem_issues reported⟩

/-- A workflow with an edge from its start to a new node. -/
def sketch (settings : Settings) : Canvas :=
  let drawn := (empty settings).perform (["w", "s"].getD · "") (.createWorkflow "W" .server)
  let added := drawn.canvas.perform (fun _ => "a") (.addNode "w" .action (.ofInt 0) (.ofInt 0))
  (added.canvas.perform (fun _ => "") (.connect "w" "s" "a" .right)).canvas

theorem sketch_wellFormed :
    let c := ((sketch {}).perform (fun _ => "") (.undo "w")).canvas
    Reachable Orderly {} c ∧ (c.workflows.map (·.id)).Nodup ∧
      ∀ w ∈ c.workflows, w.WellFormed ∧ ∀ i ∈ w.issues, i = .noStart ∨
        (∃ count, i = .severalStarts count) ∨ ∃ list name, i = .repeatedName list name := by
  intro c
  have drawn : Reachable Orderly {} (sketch {}) := by
    refine .perform _ _ (.perform _ _ (.perform _ _ .empty ?_) ?_) ?_
    · exact ⟨fun _ _ => List.not_mem_nil, nofun⟩
    · exact ⟨fun _ _ => by decide +kernel, nofun⟩
    · exact orderly_of_undrawn (drawn_answer _) nofun
  have undone : Reachable Orderly {} c :=
    drawn.perform _ _ (orderly_of_undrawn (drawn_undo _ _ _) nofun)
  exact ⟨undone, sessions_wellFormed undone⟩

end Canvas

end Stepflow
