import Stepflow.Json.Decoder
import Stepflow.Json.Encoder
import Stepflow.Workflow.Basic

/-!
# Workflows as documents

Nodes, parameters and workflows as JSON. A node needs its id, type, label and place; a workflow
its id, name and scope; everything else is empty when it is left out.

The ports of a node are listed in no particular order, so a node has as many encodings as they have
listings: `Node.encodeWith` is given one, and `Node.encode` lists the ports in ascending order. The
keys of config are always in order.
-/

namespace Stepflow

open Json

namespace Node

def encodeWith (n : Node) (ports : List (String × Port)) : Plain :=
  .object [
    ("id", .string n.id),
    ("type", Encoder.word n.kind),
    ("label", .string n.label),
    ("x", Encoder.coordinate n.x),
    ("y", Encoder.coordinate n.y),
    ("connections", Encoder.list .string n.connections),
    ("outputs", Encoder.listing Encoder.word ports),
    ("config", Encoder.table Value.tree n.config),
    ("isBreakpoint", .bool n.breakpoint)]

def encode (n : Node) : Plain := n.encodeWith n.ports.entries

def decoder : Decoder Node := fun room raw => do
  let r ← Record.decoder ["id", "type", "label", "x", "y", "connections", "outputs", "config",
    "isBreakpoint"] room raw
  return {
    id := ← r.required "id" .text
    kind := ← r.required "type" .enumeration
    label := ← r.required "label" .text
    x := ← r.required "x" .coordinate
    y := ← r.required "y" .coordinate
    connections := ← r.withDefault "connections" [] (.list .text)
    ports := ← r.withDefault "outputs" .empty (.table .enumeration)
    config := ← r.withDefault "config" .empty (.table .value)
    breakpoint := ← r.withDefault "isBreakpoint" false .flag }

end Node

namespace Parameter

def encode (p : Parameter) : Plain :=
  .object [("id", .string p.id), ("name", .string p.name), ("type", Encoder.word p.type)]

def decoder : Decoder Parameter := fun room raw => do
  let r ← Record.decoder ["id", "name", "type"] room raw
  return {
    id := ← r.required "id" .text
    name := ← r.required "name" .text
    type := ← r.required "type" .enumeration }

end Parameter

namespace Workflow

def encodeWith (w : Workflow) (nodes : List Plain) : Plain :=
  .object [
    ("id", .string w.id),
    ("name", .string w.name),
    ("scope", Encoder.word w.scope),
    ("inputs", Encoder.list Parameter.encode w.inputs),
    ("outputs", Encoder.list Parameter.encode w.outputs),
    ("locals", Encoder.list Parameter.encode w.locals),
    ("nodes", .array nodes)]

def encode (w : Workflow) : Plain := w.encodeWith (w.nodes.map Node.encode)

def decoder : Decoder Workflow := fun room raw => do
  let r ← Record.decoder ["id", "name", "scope", "inputs", "outputs", "locals", "nodes"] room raw
  return {
    id := ← r.required "id" .text
    name := ← r.required "name" .text
    scope := ← r.required "scope" .enumeration
    inputs := ← r.withDefault "inputs" [] (.list Parameter.decoder)
    outputs := ← r.withDefault "outputs" [] (.list Parameter.decoder)
    locals := ← r.withDefault "locals" [] (.list Parameter.decoder)
    nodes := ← r.withDefault "nodes" [] (.list Node.decoder) }

end Workflow

end Stepflow
