import Stepflow.FirstMatch
import Stepflow.Workflow.Node

/-!
# Workflows

A workflow is one directed graph of nodes, with the parameters it declares.
-/

namespace Stepflow

/-- Where a workflow runs. -/
inductive Scope where
  | server
  | client
deriving DecidableEq, Repr

instance : Lexicon Scope where
  members := [.server, .client]
  word
    | .server => "server"
    | .client => "client"
  find_word scope := by cases scope <;> rfl

inductive ParameterType where
  | string
  | number
  | boolean
  | json
  | any
deriving DecidableEq, Repr

instance : Lexicon ParameterType where
  members := [.string, .number, .boolean, .json, .any]
  word
    | .string => "string"
    | .number => "number"
    | .boolean => "boolean"
    | .json => "json"
    | .any => "any"
  find_word type := by cases type <;> rfl

structure Parameter where
  id : String
  name : String
  type : ParameterType
deriving DecidableEq, Repr

structure ParameterChange where
  name : Option String
  type : Option ParameterType

def ParameterChange.apply (c : ParameterChange) (p : Parameter) : Parameter :=
  { p with name := c.name.getD p.name, type := c.type.getD p.type }

/-- The three lists of parameters of a workflow. -/
inductive ParameterList where
  | inputs
  | outputs
  | locals
deriving DecidableEq, Repr

instance : Lexicon ParameterList where
  members := [.inputs, .outputs, .locals]
  word
    | .inputs => "inputs"
    | .outputs => "outputs"
    | .locals => "locals"
  find_word list := by cases list <;> rfl

structure Workflow where
  id : String
  name : String
  scope : Scope
  inputs : List Parameter
  outputs : List Parameter
  locals : List Parameter
  nodes : List Node

structure WorkflowChange where
  name : Option String
  scope : Option Scope

def WorkflowChange.apply (c : WorkflowChange) (w : Workflow) : Workflow :=
  { w with name := c.name.getD w.name, scope := c.scope.getD w.scope }

namespace Workflow

/-- A workflow with nothing but a start node. -/
def blank (id start name : String) (scope : Scope) : Workflow :=
  ⟨id, name, scope, [], [], [], [.ofKind start .start (.ofInt 50) (.ofInt 100)]⟩

def node? (w : Workflow) (id : String) : Option Node := w.nodes.find? (·.id = id)

def hasNode (w : Workflow) (id : String) : Bool := (w.node? id).isSome

/-- Runs begin at the first start node. -/
def start? (w : Workflow) : Option Node := w.nodes.find? (·.kind = .start)

/-- Change the node that `node?` finds. -/
def modifyNode (w : Workflow) (id : String) (f : Node → Node) : Workflow :=
  { w with nodes := modifyFirst (·.id = id) f w.nodes }

/-- Change the node called `id`, if there is one. -/
def modifyNode? (w : Workflow) (id : String) (f : Node → Node) : Option Workflow :=
  if w.hasNode id then some (w.modifyNode id f) else none

def addNode (w : Workflow) (n : Node) : Workflow := { w with nodes := w.nodes ++ [n] }

/-- Drop the nodes called `id` and every edge to them. -/
def removeNode (w : Workflow) (id : String) : Workflow :=
  { w with nodes := (w.nodes.filter (·.id ≠ id)).map (·.detach id) }

def removeNode? (w : Workflow) (id : String) : Option Workflow :=
  if w.hasNode id then some (w.removeNode id) else none

/-- Copy a node without its edges, a little off its place. -/
def duplicateNode? (w : Workflow) (node id : String) (offset : Double) : Option Workflow := do
  let n ← w.node? node
  return w.addNode { n with
    id := id
    label := n.label ++ " (Copy)"
    x := n.x.add offset
    y := n.y.add offset
    connections := []
    ports := .empty }

/-- Connect two different nodes that are not yet connected. -/
def connect? (w : Workflow) (source target : String) (port : Port) : Option Workflow := do
  guard (source ≠ target ∧ w.hasNode target)
  let s ← w.node? source
  guard (!s.connectsTo target)
  return w.modifyNode source (·.attach target port)

/-- Drop an edge, or a port that was left without one. -/
def disconnect? (w : Workflow) (source target : String) : Option Workflow := do
  let s ← w.node? source
  guard (s.connectsTo target || s.ports.contains target)
  return w.modifyNode source (·.detach target)

def parameters (w : Workflow) : ParameterList → List Parameter
  | .inputs => w.inputs
  | .outputs => w.outputs
  | .locals => w.locals

def modifyParameters (w : Workflow) (list : ParameterList)
    (f : List Parameter → List Parameter) : Workflow :=
  match list with
  | .inputs => { w with inputs := f w.inputs }
  | .outputs => { w with outputs := f w.outputs }
  | .locals => { w with locals := f w.locals }

def hasParameter (w : Workflow) (list : ParameterList) (id : String) : Bool :=
  (w.parameters list).any (·.id = id)

def addParameter (w : Workflow) (list : ParameterList) (id : String) : Workflow :=
  w.modifyParameters list (· ++ [⟨id, "new_param", .string⟩])

def updateParameter? (w : Workflow) (list : ParameterList) (id : String)
    (change : ParameterChange) : Option Workflow :=
  if w.hasParameter list id then
    some (w.modifyParameters list (modifyFirst (·.id = id) change.apply))
  else none

def removeParameter? (w : Workflow) (list : ParameterList) (id : String) : Option Workflow :=
  if w.hasParameter list id then some (w.modifyParameters list (·.filter (·.id ≠ id))) else none

end Workflow

end Stepflow
