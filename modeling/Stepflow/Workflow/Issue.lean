import Stepflow.Workflow.Basic

/-!
# Issues

What may be wrong with the structure of a workflow. Edits keep edges consistent, but they may
remove the start node, add a second one or give two parameters one name, and a workflow built by
hand may have any issue.

`Workflow.issues` reports every occurrence: the start nodes first, then node by node and
connection by connection, then the names of parameters.
-/

namespace Stepflow

inductive Issue where
  | noStart
  | severalStarts (count : Nat)
  | unknownTarget (node target : String)
  | selfConnection (node : String)
  | repeatedConnection (node target : String)
  | missingPort (node target : String)
  | orphanedPort (node target : String)
  | repeatedName (list : ParameterList) (name : String)
deriving DecidableEq, Repr

def Issue.message : Issue → String
  | .noStart => "Workflow has no start node"
  | .severalStarts count => s!"Workflow has {count} start nodes"
  | .unknownTarget node target => s!"Node '{node}' connects to unknown node '{target}'"
  | .selfConnection node => s!"Node '{node}' connects to itself"
  | .repeatedConnection node target => s!"Node '{node}' connects to '{target}' more than once"
  | .missingPort node target => s!"Connection '{node}' -> '{target}' has no port"
  | .orphanedPort node target => s!"Node '{node}' has a port for '{target}' without a connection"
  | .repeatedName list name =>
    let listName := Lexicon.word list
    s!"Parameter name '{name}' is used twice in {listName}"

namespace Workflow

def startIssues (w : Workflow) : List Issue :=
  match w.nodes.countP (·.kind = .start) with
  | 0 => [.noStart]
  | 1 => []
  | count => [.severalStarts count]

/-- The issues of one connection; `before` are the connections listed ahead of it. -/
def connectionIssues (w : Workflow) (n : Node) (before : List String) (target : String) :
    List Issue :=
  (if target = n.id then [.selfConnection n.id] else [])
    ++ (if w.hasNode target then [] else [.unknownTarget n.id target])
    ++ (if target ∈ before then [.repeatedConnection n.id target] else [])
    ++ (if n.ports.contains target then [] else [.missingPort n.id target])

def connectionsIssues (w : Workflow) (n : Node) (before : List String) : List String → List Issue
  | [] => []
  | target :: rest =>
    w.connectionIssues n before target ++ w.connectionsIssues n (target :: before) rest

def nodeIssues (w : Workflow) (n : Node) : List Issue :=
  w.connectionsIssues n [] n.connections
    ++ (n.ports.keys.filter (· ∉ n.connections)).map (.orphanedPort n.id)

def nameIssues (list : ParameterList) (before : List String) : List Parameter → List Issue
  | [] => []
  | p :: rest =>
    (if p.name ∈ before then [.repeatedName list p.name] else [])
      ++ nameIssues list (p.name :: before) rest

def issues (w : Workflow) : List Issue :=
  w.startIssues ++ w.nodes.flatMap w.nodeIssues
    ++ (Lexicon.members : List ParameterList).flatMap fun list =>
      nameIssues list [] (w.parameters list)

end Workflow

end Stepflow
