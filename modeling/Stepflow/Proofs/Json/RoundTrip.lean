import Stepflow.Proofs.Json.Doubles
import Stepflow.Proofs.Workflow.Restoring
import Stepflow.Run.Event
import Stepflow.Run.State
import Stepflow.Settings

/-!
# Round trips of documents

A document is decoded from its text as the same, whatever is written in its strings and under its
keys, as far as its doubles are read as they were written and it is nested no deeper than a reader
may go.

* `Node.decode_readable`, `Workflow.decode_readable`, `RunState.decode_readable`,
  `Event.decode_encode`, `Settings.decode_readable`: the round trip of each type;
* `Workflow.decode_unplaced`, `Settings.decode_infinite`: none with a double that is not finite;
* `documents_come_back`: all of these, for whole texts.
-/

namespace Stepflow

open Json

namespace Json.Decoder

theorem unsigned_reread (room : Nat) (n : UInt64) :
    unsigned room (Encoder.unsigned n).reread = some n := by
  have same : (Number.ofUInt64 n).reread? = some (Number.ofUInt64 n) :=
    Number.exact_integer _ _
  have read : (Encoder.unsigned n).reread = .number (Number.ofUInt64 n).reread? := rfl
  rw [read, same]
  exact congrArg some UInt64.ofNat_toNat

theorem nullable_text (room : Nat) (name : Option String) :
    nullable text room (Encoder.nullable .string name).reread = some name := by
  cases name <;> rfl

end Json.Decoder

variable {room : Nat}

/-! Nodes and workflows -/

theorem Node.decode_readable {n : Node} {t : Plain} (encoded : n.Encoded t) (placed : n.Placed)
    (readable : t.Readable (room + 2)) : decoder (room + 2) t.reread = some n := by
  rw [decode_within room encoded]
  obtain ⟨ports, -, rfl⟩ := encoded
  have left : (Encoder.coordinate n.x).Readable (room + 1) := readable.field "x" (by simp)
  have top : (Encoder.coordinate n.y).Readable (room + 1) := readable.field "y" (by simp)
  have config : (Encoder.table Value.tree n.config).Readable (room + 1) :=
    readable.field "config" (by simp)
  have sameConfig : Value.rereadTable? room n.config = some n.config := by
    rw [← Decoder.table_tree]
    exact config.listing (.refl _)
  rw [left.coordinate placed.1, top.coordinate placed.2, sameConfig]
  rfl

theorem Workflow.mapM_readable {nodes : List Node} {trees : List Plain}
    (encoded : List.Forall₂ Node.Encoded nodes trees) (placed : ∀ n ∈ nodes, n.Placed)
    (readable : ∀ t ∈ trees, t.Readable (configRoom + 2)) :
    nodes.mapM Node.reread? = some nodes := by
  induction encoded with
  | nil => rfl
  | @cons n t _ _ first _ ih =>
    have same : n.reread? = some n := by
      rw [← Node.decode_encoded first]
      exact Node.decode_readable first (placed n (.head _)) (readable t (.head _))
    have others := ih (fun n member => placed n (.tail _ member))
      fun t member => readable t (.tail _ member)
    rw [List.mapM_cons, same, others]
    rfl

theorem Workflow.decode_readable {w : Workflow} {t : Plain} (encoded : w.Encoded t)
    (placed : ∀ n ∈ w.nodes, n.Placed) (readable : t.Readable Decoder.nesting) :
    decoder Decoder.nesting t.reread = some w := by
  change decoder (configRoom + 4) t.reread = some w
  rw [decode_encoded encoded]
  obtain ⟨trees, each, rfl⟩ := encoded
  have listed : Tree.Readable (configRoom + 3) (.array trees) := readable.field "nodes" (by simp)
  rw [reread?, mapM_readable each placed fun t written => listed.item written]
  rfl

theorem Workflow.decode_unplaced {w : Workflow} {t : Plain} {n : Node} (encoded : w.Encoded t)
    (member : n ∈ w.nodes) (unplaced : ¬n.Placed) :
    decoder Decoder.nesting t.reread = none := by
  change decoder (configRoom + 4) t.reread = none
  rw [decode_encoded encoded]
  exact reread?_unplaced member unplaced

/-! What is read at all -/

theorem exactDouble_of_reread? {x y : Double} (read : rereadDouble? x = some y)
    (doubles : ∀ z ∈ (Encoder.coordinate x).doubles, z.ReadsBack) : ExactDouble x := by
  cases x with
  | finite z => exact z.readsBack_iff.1 (doubles z (.head _))
  | infinite negative => cases read
  | nan => cases read

theorem Value.exact_of_rereadTable? {m m' : KeyMap Value}
    (read : Value.rereadTable? room m = some m')
    (doubles : ∀ x ∈ (Encoder.table Value.tree m).doubles, x.ReadsBack) :
    ∀ e ∈ m.entries, e.2.tree.depth ≤ room ∧ e.2.tree.Exact := by
  obtain ⟨entries, each, -⟩ := Option.map_eq_some_iff.1 read
  intro e member
  constructor
  · by_cases flat : e.2.tree.depth ≤ room
    · exact flat
    · have unread : Value.rereadField? room e = none := by
        rw [Value.rereadField?, Value.reread?, if_neg flat]
        rfl
      rw [mapM_none member unread] at each
      cases each
  · refine e.2.tree.exact_iff.2 fun x found => doubles x ?_
    exact Tree.mem_doubles_field e.1 (List.mem_map.2 ⟨e, member, rfl⟩) found

/-- A node whose text is read at all is legible, as far as its doubles are. -/
theorem Node.legible_of_reread? {n m : Node} (read : n.reread? = some m)
    (doubles : ∀ x ∈ n.encode.doubles, x.ReadsBack) : n.Legible := by
  simp only [reread?, Option.bind_eq_bind, Option.bind_eq_some_iff] at read
  obtain ⟨x, left, y, top, config, fields, -⟩ := read
  constructor
  · exact exactDouble_of_reread? left fun z found =>
      doubles z (Tree.mem_doubles_field "x" (by simp) found)
  · exact exactDouble_of_reread? top fun z found =>
      doubles z (Tree.mem_doubles_field "y" (by simp) found)
  · exact Value.exact_of_rereadTable? fields fun z found =>
      doubles z (Tree.mem_doubles_field "config" (by simp) found)

/-- What a snapshot is restored to is the workflow it was taken of, as far as its doubles are read
as they were written. -/
theorem Workflow.restore_self {w v : Workflow} (read : restore w.snapshot = .ok v)
    (doubles : ∀ x ∈ w.encode.doubles, x.ReadsBack) : v = w := by
  have legible : w.Legible := by
    intro n member
    rw [restore_snapshot, reread?] at read
    cases alone : n.reread? with
    | none =>
      rw [mapM_none member alone] at read
      cases read
    | some m =>
      refine Node.legible_of_reread? alone fun x found => doubles x ?_
      have listed : x ∈ Tree.doubles (.array (w.nodes.map Node.encode)) :=
        Tree.mem_doubles_item (List.mem_map_of_mem member) found
      exact Tree.mem_doubles_field "nodes" (by simp) listed
  rw [restore_legible legible] at read
  cases read
  rfl

/-! States and events of a run -/

/-- A tree that a state may be written as: its variables in any order. -/
def RunState.Encoded (s : RunState) (t : Plain) : Prop :=
  ∃ values, values.Perm s.values.entries ∧ t = s.encodeWith values

theorem RunState.encoded_encode (s : RunState) : s.Encoded s.encode := ⟨_, .refl _, rfl⟩

theorem RunState.decode_readable {s : RunState} {t : Plain} (encoded : s.Encoded t)
    (readable : t.Readable (room + 2)) : decoder (room + 2) t.reread = some s := by
  obtain ⟨values, listed, rfl⟩ := encoded
  have written : (Encoder.listing Value.tree values).Readable (room + 1) :=
    readable.field "variables" (by simp)
  unfold decoder encodeWith
  rw [Record.decoder_object (by simp) (by simp)]
  simp [Record.required, Record.optional, Record.find?, List.lookup_cons, Decoder.enumeration_word,
    Decoder.nullable_text, written.listing listed, Decoder.list_text]

namespace Event

theorem isSome_value (room : Nat) (e : Event) :
    (Decoder.value (room + 1) e.encode.reread).isSome = true := by
  cases e with
  | nodeEvaluated execution node next message | paused execution next =>
    cases next <;> simp [encode, Encoder.nullable, Tree.reread, Json.Tree.map, Tree.mapFields,
      Decoder.value, Tree.depth, Tree.depthFields, Value.ofRaw?, Value.ofFields?]
  | _ => simp [encode, Tree.reread, Json.Tree.map, Tree.mapFields, Decoder.value, Tree.depth,
      Tree.depthFields, Value.ofRaw?, Value.ofFields?]

/-- The type is told from the fields by its key. -/
theorem split?_object {fields : List (String × Plain)} (untyped : ∀ f ∈ fields, f.1 ≠ "type")
    (type : String) :
    split? (Tree.reread (.object (("type", .string type) :: fields)))
      = some (type, Tree.reread (.object fields)) := by
  have others : ∀ f ∈ fields.map (fun e => (some e.1, e.2.reread)), f.1 ≠ some "type" := by
    intro f member
    obtain ⟨e, written, rfl⟩ := List.mem_map.1 member
    simpa using untyped e written
  have typed : (fields.map fun e => (some e.1, e.2.reread)).filter (·.1 = some "type") = [] := by
    rw [List.filter_eq_nil_iff]
    simpa using others
  have rest : (fields.map fun e => (some e.1, e.2.reread)).filter (·.1 ≠ some "type")
      = fields.map fun e => (some e.1, e.2.reread) := by
    rw [List.filter_eq_self]
    simpa using others
  rw [Tree.reread_object, Tree.reread_object, List.map_cons, split?]
  simp only [List.filter_cons, typed, rest]
  rfl

/-- An event holds nothing but text, and so its text is always read as that event. -/
theorem decode_encode (room : Nat) (e : Event) :
    decoder (room + 1) e.encode.reread = some e := by
  obtain ⟨value, read⟩ := Option.isSome_iff_exists.1 (e.isSome_value room)
  rw [decoder, read]
  -- each type has its own fields, read in the same way
  cases e
  all_goals
    unfold encode
    rw [Option.bind_eq_bind, Option.bind_some, split?_object (by simp)]
    simp only [Option.bind_eq_bind, Option.bind_some, body]
    rw [Record.decoder_object (by simp) (by simp)]
    simp [Record.required, Record.optional, Record.find?, List.lookup_cons, Decoder.text_string,
      Decoder.nullable_text]

end Event

/-! Settings -/

/-- All distances are finite. -/
def Layout.IsFinite (l : Layout) : Prop :=
  l.insertGap.IsFinite ∧ l.crampedMargin.IsFinite ∧ l.duplicateOffset.IsFinite

instance (l : Layout) : Decidable l.IsFinite := inferInstanceAs (Decidable (_ ∧ _ ∧ _))

theorem Layout.decode_encode (room : Nat) (l : Layout) :
    decoder (room + 1) l.encode.reread = (do
      let gap ← rereadDouble? l.insertGap
      let margin ← rereadDouble? l.crampedMargin
      let offset ← rereadDouble? l.duplicateOffset
      return { l with insertGap := gap, crampedMargin := margin, duplicateOffset := offset }) := by
  unfold decoder encode
  rw [Record.decoder_object (by simp) (by simp)]
  simp [Record.withDefault, Record.find?, List.lookup_cons, Decoder.unsigned_reread,
    Decoder.coordinate_reread]

theorem Layout.decode_readable {l : Layout} (finite : l.IsFinite)
    (readable : l.encode.Readable (room + 1)) :
    decoder (room + 1) l.encode.reread = some l := by
  have gap : (Encoder.coordinate l.insertGap).Readable room :=
    readable.field "insertGap" (by simp)
  have margin : (Encoder.coordinate l.crampedMargin).Readable room :=
    readable.field "crampedMargin" (by simp)
  have offset : (Encoder.coordinate l.duplicateOffset).Readable room :=
    readable.field "duplicateOffset" (by simp)
  rw [decode_encode, gap.coordinate finite.1, margin.coordinate finite.2.1,
    offset.coordinate finite.2.2]
  rfl

theorem Layout.decode_infinite {l : Layout} (beyond : ¬l.IsFinite) :
    decoder (room + 1) l.encode.reread = none := by
  rw [decode_encode]
  by_cases gap : l.insertGap.IsFinite
  · by_cases margin : l.crampedMargin.IsFinite
    · have offset : ¬l.duplicateOffset.IsFinite := fun finite => beyond ⟨gap, margin, finite⟩
      simp [rereadDouble?_of_not_finite offset]
    · simp [rereadDouble?_of_not_finite margin]
  · simp [rereadDouble?_of_not_finite gap]

theorem Pace.decode_encode (room : Nat) (p : Pace) :
    decoder (room + 1) p.encode.reread = some p := by
  unfold decoder encode
  rw [Record.decoder_object (by simp) (by simp)]
  simp [Record.withDefault, Record.find?, List.lookup_cons, Decoder.unsigned_reread]

theorem Retention.decode_encode (room : Nat) (r : Retention) :
    decoder (room + 1) r.encode.reread = some r := by
  unfold decoder encode
  rw [Record.decoder_object (by simp) (by simp)]
  simp [Record.withDefault, Record.find?, List.lookup_cons, Decoder.unsigned_reread,
    Decoder.flag_bool]

theorem Settings.decode_encode (room : Nat) (s : Settings) :
    decoder (room + 2) s.encode.reread
      = (Layout.decoder (room + 1) s.layout.encode.reread).map ({ s with layout := · }) := by
  unfold decoder encode
  rw [Record.decoder_object (by simp) (by simp)]
  simp [Record.withDefault, Record.find?, List.lookup_cons, Pace.decode_encode,
    Retention.decode_encode, Option.map_eq_bind]

/-- Settings are never nested deep. -/
theorem Settings.decode_readable {s : Settings} (finite : s.layout.IsFinite)
    (doubles : ∀ x ∈ s.encode.doubles, x.ReadsBack) :
    decoder (room + 2) s.encode.reread = some s := by
  have flat : s.encode.depth ≤ room + 2 := by
    simp [encode, Layout.encode, Pace.encode, Retention.encode, Encoder.unsigned, Tree.depth,
      Tree.depthFields, Tree.depth_coordinate]
  have readable : s.encode.Readable (room + 2) := ⟨flat, doubles⟩
  have layout : s.layout.encode.Readable (room + 1) := readable.field "layout" (by simp)
  rw [decode_encode, Layout.decode_readable finite layout]
  rfl

theorem Settings.decode_infinite {s : Settings} (beyond : ¬s.layout.IsFinite) :
    decoder (room + 2) s.encode.reread = none := by
  rw [decode_encode, Layout.decode_infinite beyond]
  rfl

/-! Texts -/

theorem Json.Decoder.decode?_render {α : Type} (decode : Decoder α) (t : Plain) :
    decode? decode t.render = decode nesting t.reread := by
  rw [decode?, Raw.parse?_render]
  rfl

/-- **Every document comes back from its text as it was**: workflows and nodes whose coordinates are
finite, states and events of runs, and settings whose distances are finite, with any text in their
strings and under their keys, if their doubles are read as they were written and values are nested
no deeper than a reader may go. Ports and variables may be listed in any order. A node with a
coordinate that is infinite or NaN does not come back, nor do a workflow with such a node and
settings with such a distance. -/
theorem documents_come_back :
    (∀ (w : Workflow) (t : Plain), w.Encoded t → (∀ n ∈ w.nodes, n.Placed) →
      t.Readable Decoder.nesting → Decoder.decode? Workflow.decoder t.render = some w) ∧
    (∀ (n : Node) (t : Plain), n.Encoded t → n.Placed →
      t.Readable Decoder.nesting → Decoder.decode? Node.decoder t.render = some n) ∧
    (∀ (s : RunState) (t : Plain), s.Encoded t →
      t.Readable Decoder.nesting → Decoder.decode? RunState.decoder t.render = some s) ∧
    (∀ e : Event, Decoder.decode? Event.decoder e.encode.render = some e) ∧
    (∀ s : Settings, s.layout.IsFinite → (∀ x ∈ s.encode.doubles, x.ReadsBack) →
      Decoder.decode? Settings.decoder s.encode.render = some s) ∧
    (∀ (n : Node) (t : Plain), n.Encoded t → ¬n.Placed →
      Decoder.decode? Node.decoder t.render = none) ∧
    (∀ (w : Workflow) (t : Plain), w.Encoded t → (∃ n ∈ w.nodes, ¬n.Placed) →
      Decoder.decode? Workflow.decoder t.render = none) ∧
    ∀ s : Settings, ¬s.layout.IsFinite →
      Decoder.decode? Settings.decoder s.encode.render = none := by
  simp only [Decoder.decode?_render]
  refine ⟨?_, ?_, ?_, ?_, ?_, ?_, ?_, ?_⟩
  · exact fun w t encoded placed readable => Workflow.decode_readable encoded placed readable
  · exact fun n t encoded placed readable => Node.decode_readable encoded placed readable
  · exact fun s t encoded readable => RunState.decode_readable encoded readable
  · exact fun e => e.decode_encode _
  · exact fun s finite doubles => Settings.decode_readable finite doubles
  · exact fun n t encoded unplaced => Node.decode_unplaced _ encoded unplaced
  · rintro w t encoded ⟨n, member, unplaced⟩
    exact Workflow.decode_unplaced encoded member unplaced
  · exact fun s beyond => Settings.decode_infinite beyond

/-- Quotes, backslashes and control characters in texts and keys, and numbers of all three classes;
ports and variables in descending order; a node that is nowhere. -/
theorem awkward_documents_come_back :
    let config : Value := .object (.ofList [
      ("", .array [.number (.double (.zero true)), .number (.ofUInt64 18446744073709551615)]),
      ("\"\\\n", .object (.ofList [("ключ", .string "\t\"\u0001"), ("null", .null)])),
      ("-1", .number (.integer (-1) (by decide)))])
    let n : Node := { Node.ofKind "n\\" .switch (.finite (.zero false)) (.finite (.zero true)) with
      label := "\"", connections := ["n\\", ""], ports := .ofList [("n\\", .top), ("", .left)],
      config := .ofList [("\u001f", config)] }
    let w : Workflow := ⟨"w\r", "", .client, [⟨"p", "x", .any⟩], [], [⟨"q", "x", .boolean⟩], [n, n]⟩
    let s : RunState := ⟨.paused, none, .ofList [("x", config), ("\"", .null)], ["[00:00:00] \\"]⟩
    let descending := n.encodeWith n.ports.entries.reverse
    let nowhere : Node := { n with x := .nan }
    Decoder.decode? Workflow.decoder (w.encodeWith [n.encode, descending]).render = some w ∧
      Decoder.decode? Node.decoder descending.render = some n ∧
      Decoder.decode? RunState.decoder (s.encodeWith s.values.entries.reverse).render = some s ∧
      Decoder.decode? Settings.decoder (Settings.encode {}).render = some {} ∧
      Decoder.decode? Node.decoder nowhere.encode.render = none ∧
      Decoder.decode? Workflow.decoder { w with nodes := [n, nowhere] }.encode.render = none := by
  intro config n w s descending nowhere
  obtain ⟨workflows, nodes, states, -, settings, lost, incomplete, -⟩ := documents_come_back
  have placed : n.Placed := by decide +kernel
  have unplaced : ¬nowhere.Placed := by decide +kernel
  have reordered : n.Encoded descending := ⟨_, List.reverse_perm _, rfl⟩
  have both : w.Encoded (w.encodeWith [n.encode, descending]) :=
    ⟨_, .cons n.encoded_encode (.cons reordered .nil), rfl⟩
  have finite : Layout.IsFinite {} := by decide
  refine ⟨workflows w _ both ?_ ⟨?_, ?_⟩, nodes n _ reordered placed ⟨?_, ?_⟩,
    states s _ ⟨_, List.reverse_perm _, rfl⟩ ⟨?_, ?_⟩, settings {} finite ?_,
    lost nowhere _ nowhere.encoded_encode unplaced,
    incomplete _ _ (Workflow.encoded_encode _) ⟨nowhere, .tail _ (.head _), unplaced⟩⟩
  · simpa [w] using placed
  all_goals decide +kernel

end Stepflow
