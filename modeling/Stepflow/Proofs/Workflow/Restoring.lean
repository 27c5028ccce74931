import Mathlib.Data.List.Forall2
import Stepflow.History
import Stepflow.Proofs.Json.Documents
import Stepflow.Proofs.Workflow.WellFormed

/-!
# Restoring workflows

A snapshot is restored to the workflow it was taken of, but for the numbers in it: places and
config come back as they are read.

* `Node.Encoded`, `Workflow.Encoded`: the trees that a document may be written as;
* `Workflow.restore_snapshot`, `Workflow.restore_encoded`: what a snapshot is restored to, in
  whatever order its ports are listed;
* `Workflow.restore_legible`: the same workflow, when its numbers are read as they were written
  and its config is not nested too deep;
* `Workflow.of_restore`: the same but for places and config in any case.
-/

namespace Stepflow

open Json

/-- Levels of nesting that a snapshot leaves to a value in the config of a node. -/
def configRoom : Nat := 123

namespace Node

/-- What is read from the text of a node. -/
def reread? (n : Node) : Option Node := do
  let x ← rereadDouble? n.x
  let y ← rereadDouble? n.y
  let config ← Value.rereadTable? configRoom n.config
  return { n with x := x, y := y, config := config }

/-- A tree that a node may be written as: its ports in any order. -/
def Encoded (n : Node) (t : Plain) : Prop :=
  ∃ ports, ports.Perm n.ports.entries ∧ t = n.encodeWith ports

theorem encoded_encode (n : Node) : n.Encoded n.encode := ⟨_, .refl _, rfl⟩

/-- Where a node may be nested deeper or less deep, so may its config. -/
theorem decode_within (room : Nat) {n : Node} {t : Plain} (encoded : n.Encoded t) :
    decoder (room + 2) t.reread = (do
      let x ← rereadDouble? n.x
      let y ← rereadDouble? n.y
      let config ← Value.rereadTable? room n.config
      return { n with x := x, y := y, config := config }) := by
  obtain ⟨ports, listed, rfl⟩ := encoded
  unfold decoder encodeWith
  rw [Record.decoder_object (by simp) (by simp)]
  simp [Record.required, Record.withDefault, Record.find?, List.lookup_cons, Decoder.text_string,
    Decoder.flag_bool, Decoder.coordinate_reread, Decoder.enumeration_word, Decoder.list_text,
    Decoder.listing_word _ listed, Decoder.table_tree]

theorem decode_encoded {n : Node} {t : Plain} (encoded : n.Encoded t) :
    decoder (configRoom + 2) t.reread = n.reread? := decode_within configRoom encoded

/-- Both coordinates are finite. -/
def Placed (n : Node) : Prop := n.x.IsFinite ∧ n.y.IsFinite

instance (n : Node) : Decidable n.Placed := inferInstanceAs (Decidable (_ ∧ _))

/-- A coordinate that is not finite is written as null, which is none. -/
theorem decode_unplaced (room : Nat) {n : Node} {t : Plain} (encoded : n.Encoded t)
    (unplaced : ¬n.Placed) : decoder (room + 2) t.reread = none := by
  rw [decode_within room encoded]
  rcases not_and_or.1 unplaced with left | top
  · simp [rereadDouble?_of_not_finite left]
  · simp [rereadDouble?_of_not_finite top]

theorem reread?_unplaced {n : Node} (unplaced : ¬n.Placed) : n.reread? = none := by
  rw [← decode_encoded n.encoded_encode]
  exact decode_unplaced configRoom n.encoded_encode unplaced

/-- The numbers of a node are read as they were written, and its config is no deeper than can be
read. -/
structure Legible (n : Node) : Prop where
  x : ExactDouble n.x
  y : ExactDouble n.y
  config : ∀ e ∈ n.config.entries, e.2.tree.depth ≤ configRoom ∧ e.2.tree.Exact

theorem reread?_legible {n : Node} (legible : n.Legible) : n.reread? = some n := by
  have x := rereadDouble?_exact legible.x
  have y := rereadDouble?_exact legible.y
  have config := Value.rereadTable?_exact legible.config
  simp [reread?, x, y, config]

theorem wiring_reread? {n m : Node} (read : n.reread? = some m) : m.wiring = n.wiring := by
  simp only [reread?, Option.bind_eq_bind, Option.bind_eq_some_iff, Option.pure_def,
    Option.some.injEq] at read
  obtain ⟨x, -, y, -, config, -, rfl⟩ := read
  rfl

end Node

theorem Parameter.decode_encode (room : Nat) (p : Parameter) :
    decoder (room + 1) p.encode.reread = some p := by
  unfold decoder encode
  rw [Record.decoder_object (by simp) (by simp)]
  simp [Record.required, Record.find?, List.lookup_cons, Decoder.text_string,
    Decoder.enumeration_word]

namespace Workflow

/-- A tree that a workflow may be written as: the ports of each node in any order. -/
def Encoded (w : Workflow) (t : Plain) : Prop :=
  ∃ nodes, List.Forall₂ Node.Encoded w.nodes nodes ∧ t = w.encodeWith nodes

theorem encoded_encode (w : Workflow) : w.Encoded w.encode := by
  refine ⟨w.nodes.map Node.encode, ?_, rfl⟩
  rw [List.forall₂_map_right_iff, List.forall₂_same]
  intro n _
  exact n.encoded_encode

/-- What is read from the text of a workflow. -/
def reread? (w : Workflow) : Option Workflow :=
  (w.nodes.mapM Node.reread?).map fun nodes => { w with nodes := nodes }

theorem list_parameters (room : Nat) (ps : List Parameter) :
    Decoder.list Parameter.decoder (room + 2) (Encoder.list Parameter.encode ps).reread
      = some ps := by
  rw [Decoder.list_reread]
  exact mapM_some fun p _ => p.decode_encode room

theorem list_nodes {nodes : List Node} {trees : List Plain}
    (encoded : List.Forall₂ Node.Encoded nodes trees) :
    Decoder.list Node.decoder (configRoom + 3) (Tree.reread (.array trees))
      = nodes.mapM Node.reread? := by
  rw [Tree.reread_array, Decoder.list, List.mapM_map]
  induction encoded with
  | nil => rfl
  | cons first _ ih =>
    rw [List.mapM_cons, List.mapM_cons, Function.comp_apply, Node.decode_encoded first, ih]

theorem decode_encoded {w : Workflow} {t : Plain} (encoded : w.Encoded t) :
    decoder (configRoom + 4) t.reread = w.reread? := by
  obtain ⟨nodes, each, rfl⟩ := encoded
  unfold decoder encodeWith
  rw [Record.decoder_object (by simp) (by simp)]
  simp [Record.required, Record.withDefault, Record.find?, List.lookup_cons, Decoder.text_string,
    Decoder.enumeration_word, list_parameters, list_nodes each, reread?, Option.map_eq_bind]

theorem reread?_unplaced {w : Workflow} {n : Node} (member : n ∈ w.nodes) (unplaced : ¬n.Placed) :
    w.reread? = none := by
  rw [reread?, mapM_none member (Node.reread?_unplaced unplaced)]
  rfl

/-- It is the same whatever order the ports are listed in. -/
theorem restore_encoded {w : Workflow} {t : Plain} (encoded : w.Encoded t) :
    restore t.render = w.reread?.elim (.error .undecodable) .ok := by
  have read : Decoder.decode? decoder t.render = w.reread? := by
    rw [Decoder.decode?, Raw.parse?_render]
    exact decode_encoded encoded
  rw [restore, read]
  cases w.reread? <;> rfl

/-- **A snapshot is restored to the workflow as its numbers are read.** -/
theorem restore_snapshot (w : Workflow) :
    restore w.snapshot = w.reread?.elim (.error .undecodable) .ok :=
  restore_encoded w.encoded_encode

def Legible (w : Workflow) : Prop := ∀ n ∈ w.nodes, n.Legible

theorem legible_blank (id start name : String) (scope : Scope) :
    (blank id start name scope).Legible := by
  intro n member
  cases List.mem_singleton.1 member
  constructor
  · simp only [Node.ofKind]
    decide +kernel
  · simp only [Node.ofKind]
    decide +kernel
  · intro e absent
    cases absent

theorem restore_legible {w : Workflow} (legible : w.Legible) : restore w.snapshot = .ok w := by
  have nodes : w.nodes.mapM Node.reread? = some w.nodes :=
    mapM_some fun n member => Node.reread?_legible (legible n member)
  rw [restore_snapshot, reread?, nodes]
  rfl

theorem map_of_mapM {α β : Type} {f : α → Option α} {g : α → β}
    (same : ∀ a b, f a = some b → g b = g a) {l l' : List α} (mapped : l.mapM f = some l') :
    l'.map g = l.map g := by
  induction l generalizing l' with
  | nil =>
    cases mapped
    rfl
  | cons a rest ih =>
    rw [List.mapM_cons] at mapped
    simp only [Option.bind_eq_bind, Option.bind_eq_some_iff, Option.pure_def,
      Option.some.injEq] at mapped
    obtain ⟨b, first, others, later, rfl⟩ := mapped
    rw [List.map_cons, List.map_cons, same a b first, ih later]

/-- What is restored differs from what was saved in its nodes only, and there not in the edges. -/
theorem of_restore {w v : Workflow} (read : restore w.snapshot = .ok v) :
    v = { w with nodes := v.nodes } ∧ v.nodes.map Node.wiring = w.nodes.map Node.wiring := by
  rw [restore_snapshot, reread?] at read
  cases nodes : w.nodes.mapM Node.reread? with
  | none =>
    rw [nodes] at read
    cases read
  | some restored =>
    rw [nodes] at read
    cases read
    exact ⟨rfl, map_of_mapM (fun n m => Node.wiring_reread?) nodes⟩

theorem id_of_restore {w v : Workflow} (read : restore w.snapshot = .ok v) : v.id = w.id := by
  have same := congrArg Workflow.id (of_restore read).1
  exact same

theorem WellFormed.restored {w v : Workflow} (h : w.WellFormed)
    (read : restore w.snapshot = .ok v) : v.WellFormed :=
  h.congr (of_restore read).2

end Workflow

end Stepflow
