import Stepflow.Failure
import Stepflow.Text.Lexicon
import Stepflow.Json.Value

/-!
# Nodes

A node is one step of a workflow: its kind, its place on the canvas, the nodes it leads to in
order, the side each of these edges leaves from, and data that its kind gives a meaning.

`Node.attach` and `Node.detach` change an edge and its port together.
-/

namespace Stepflow

open Json

inductive NodeKind where
  | start
  | assign
  | branch
  | switch
  | foreach
  | action
  | finish
deriving DecidableEq, Repr

namespace NodeKind

instance : Lexicon NodeKind where
  members := [.start, .assign, .branch, .switch, .foreach, .action, .finish]
  word
    | .start => "start"
    | .assign => "assign"
    | .branch => "if"
    | .switch => "switch"
    | .foreach => "foreach"
    | .action => "action"
    | .finish => "return"
  find_word kind := by cases kind <;> rfl

def word (kind : NodeKind) : String := Lexicon.word kind

/-- The label of a new node. -/
def label : NodeKind → String
  | .start => "Start"
  | .assign => "Assign"
  | .branch => "If"
  | .switch => "Switch"
  | .foreach => "Foreach"
  | .action => "Action"
  | .finish => "Return"

/-- May stand between two connected nodes: neither begins nor ends a run. -/
def insertable (kind : NodeKind) : Bool := kind ≠ .start && kind ≠ .finish

def parse (text : String) : Except Failure NodeKind :=
  match Lexicon.find? text with
  | some kind => .ok kind
  | none => .error (.unknownKind text)

end NodeKind

/-- The side of a node that an edge leaves from. -/
inductive Port where
  | left
  | right
  | bottom
  | top
deriving DecidableEq, Repr

instance : Lexicon Port where
  members := [.left, .right, .bottom, .top]
  word
    | .left => "left"
    | .right => "right"
    | .bottom => "bottom"
    | .top => "top"
  find_word port := by cases port <;> rfl

structure Node where
  id : String
  kind : NodeKind
  label : String
  x : Double
  y : Double
  /-- The nodes it leads to; a branch goes to the first when its condition holds. -/
  connections : List String
  ports : KeyMap Port
  config : KeyMap Value
  breakpoint : Bool

namespace Node

/-- A node without edges, labelled after its kind. -/
def ofKind (id : String) (kind : NodeKind) (x y : Double) : Node :=
  ⟨id, kind, kind.label, x, y, [], .empty, .empty, false⟩

def configure (n : Node) (key : String) (value : Value) : Node :=
  { n with config := n.config.insert key value }

def connectsTo (n : Node) (target : String) : Bool := target ∈ n.connections

def primary? (n : Node) : Option String := n.connections.head?

/-- Add an edge to `target` behind the others. -/
def attach (n : Node) (target : String) (port : Port) : Node :=
  { n with connections := n.connections ++ [target], ports := n.ports.insert target port }

/-- Drop all edges to `target` with their port. -/
def detach (n : Node) (target : String) : Node :=
  { n with connections := n.connections.filter (· ≠ target), ports := n.ports.erase target }

def moveTo (n : Node) (x y : Double) : Node := { n with x := x, y := y }

/-- Flip the breakpoint. -/
def toggle (n : Node) : Node := { n with breakpoint := !n.breakpoint }

def moveRight (n : Node) (distance : Double) : Node := { n with x := n.x.add distance }

/-- A config field as text. Numbers and truth values read as they are written, so `5` and `"5"`
say the same; an absent field and null say nothing. -/
def configText (n : Node) (key : String) : Except Failure (Option String) :=
  match n.config.get? key with
  | none => .ok none
  | some value =>
    match value.tree with
    | .null => .ok none
    | .string s => .ok (some s)
    | .number k => .ok (some (.ofList k.write))
    | .bool true => .ok (some "true")
    | .bool false => .ok (some "false")
    | .array _ | .object _ => .error (.invalidConfig n.id key)

end Node

/-- A change to some fields of a node. Edges are not among them. -/
structure NodeChange where
  label : Option String
  kind : Option NodeKind
  x : Option Double
  y : Option Double
  config : Option (KeyMap Value)
  breakpoint : Option Bool

def NodeChange.apply (c : NodeChange) (n : Node) : Node :=
  { n with
    label := c.label.getD n.label
    kind := c.kind.getD n.kind
    x := c.x.getD n.x
    y := c.y.getD n.y
    config := c.config.getD n.config
    breakpoint := c.breakpoint.getD n.breakpoint }

end Stepflow
