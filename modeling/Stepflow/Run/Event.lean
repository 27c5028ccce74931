import Stepflow.Json.Decoder
import Stepflow.Json.Encoder

/-!
# Events

What a debugger reports about its run, so that a canvas can follow without looking at the state.

As a document an event is a record with its type among the fields, or an array with its type in
front. Unlike other records it is read as a whole before the type is known, so that fields it does
not know have to be proper values too.
-/

namespace Stepflow

open Json

inductive Event where
  /-- A run begins at the start node of a workflow. -/
  | started (workflow execution node : String)
  | nodeEvaluated (execution node : String) (next : Option String) (message : String)
  | breakpointHit (execution node : String)
  /-- A pause after a single step. -/
  | paused (execution : String) (node : Option String)
  | completed (execution : String)
  /-- The current node could not be resolved. -/
  | halted (execution reason : String)
  | stopped (execution : String)
deriving DecidableEq, Repr

namespace Event

def encode : Event → Plain
  | .started workflow execution node =>
    .object [("type", .string "started"), ("workflowId", .string workflow),
      ("executionId", .string execution), ("nodeId", .string node)]
  | .nodeEvaluated execution node next message =>
    .object [("type", .string "nodeEvaluated"), ("executionId", .string execution),
      ("nodeId", .string node), ("nextNodeId", Encoder.nullable .string next),
      ("message", .string message)]
  | .breakpointHit execution node =>
    .object [("type", .string "breakpointHit"), ("executionId", .string execution),
      ("nodeId", .string node)]
  | .paused execution node =>
    .object [("type", .string "paused"), ("executionId", .string execution),
      ("nodeId", Encoder.nullable .string node)]
  | .completed execution =>
    .object [("type", .string "completed"), ("executionId", .string execution)]
  | .halted execution reason =>
    .object [("type", .string "halted"), ("executionId", .string execution),
      ("reason", .string reason)]
  | .stopped execution =>
    .object [("type", .string "stopped"), ("executionId", .string execution)]

/-- The type of an event and its other fields. -/
def split? : Raw → Option (String × Raw)
  | .object fields =>
    match fields.filter (·.1 = some "type") with
    | [(_, .string (some type))] => some (type, .object (fields.filter (·.1 ≠ some "type")))
    | _ => none
  | .array (.string (some type) :: fields) => some (type, .array fields)
  | _ => none

/-- The fields of an event of a known type. -/
def body (type : String) : Decoder Event := fun room raw =>
  match type with
  | "started" => do
    let r ← Record.decoder ["workflowId", "executionId", "nodeId"] room raw
    return .started (← r.required "workflowId" .text) (← r.required "executionId" .text)
      (← r.required "nodeId" .text)
  | "nodeEvaluated" => do
    let r ← Record.decoder ["executionId", "nodeId", "nextNodeId", "message"] room raw
    return .nodeEvaluated (← r.required "executionId" .text) (← r.required "nodeId" .text)
      (← r.optional "nextNodeId" .text) (← r.required "message" .text)
  | "breakpointHit" => do
    let r ← Record.decoder ["executionId", "nodeId"] room raw
    return .breakpointHit (← r.required "executionId" .text) (← r.required "nodeId" .text)
  | "paused" => do
    let r ← Record.decoder ["executionId", "nodeId"] room raw
    return .paused (← r.required "executionId" .text) (← r.optional "nodeId" .text)
  | "completed" => do
    let r ← Record.decoder ["executionId"] room raw
    return .completed (← r.required "executionId" .text)
  | "halted" => do
    let r ← Record.decoder ["executionId", "reason"] room raw
    return .halted (← r.required "executionId" .text) (← r.required "reason" .text)
  | "stopped" => do
    let r ← Record.decoder ["executionId"] room raw
    return .stopped (← r.required "executionId" .text)
  | _ => none

def decoder : Decoder Event := fun room raw => do
  let _ ← Decoder.value room raw
  let (type, fields) ← split? raw
  body type room fields

end Event

end Stepflow
