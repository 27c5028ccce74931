import Stepflow.Json.Decoder
import Stepflow.Json.Encoder
import Stepflow.Run.Expression

/-!
# The state of a run

What an editor sees of a run between two ticks.
-/

namespace Stepflow

open Json

inductive RunStatus where
  | idle
  | running
  | paused
deriving DecidableEq, Repr

instance : Lexicon RunStatus where
  members := [.idle, .running, .paused]
  word
    | .idle => "idle"
    | .running => "running"
    | .paused => "paused"
  find_word status := by cases status <;> rfl

structure RunState where
  status : RunStatus
  /-- The node that the next tick evaluates. -/
  current : Option String
  /-- The values of variables, where null stands for undefined. -/
  values : KeyMap Value
  /-- The latest lines, oldest first. -/
  logs : List String

namespace RunState

def idle : RunState := ⟨.idle, none, .empty, []⟩

def value? (s : RunState) (name : String) : Option Value := defined? s.values name

/-- Add a line to the log, of which the last `capacity` lines are kept. -/
def log (s : RunState) (capacity : Nat) (line : String) : RunState :=
  let logs := s.logs ++ [line]
  { s with logs := logs.drop (logs.length - capacity) }

theorem length_log_le (s : RunState) (capacity : Nat) (line : String) :
    (s.log capacity line).logs.length ≤ capacity := by
  simp only [log, List.length_drop]; omega

/-- The variables are listed in no particular order. -/
def encodeWith (s : RunState) (values : List (String × Value)) : Plain :=
  .object [
    ("status", Encoder.word s.status),
    ("currentNodeId", Encoder.nullable .string s.current),
    ("variables", Encoder.listing Value.tree values),
    ("logs", Encoder.list .string s.logs)]

def encode (s : RunState) : Plain := s.encodeWith s.values.entries

def decoder : Decoder RunState := fun room raw => do
  let r ← Record.decoder ["status", "currentNodeId", "variables", "logs"] room raw
  return {
    status := ← r.required "status" .enumeration
    current := ← r.optional "currentNodeId" .text
    values := ← r.required "variables" (.table .value)
    logs := ← r.required "logs" (.list .text) }

end RunState

end Stepflow
