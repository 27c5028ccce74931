import Stepflow.Settings
import Stepflow.Workflow.Basic

/-!
# Splicing a node into an edge

* `downstream`: the nodes that can be reached from a node without passing another. Workflows may
  have cycles, so the search is bounded by a number of steps;
* `Workflow.insertBetween?`: a new node between a source and its target.
-/

namespace Stepflow

/-- Where the first node called `id` leads; nowhere if there is none. -/
def successors (nodes : List Node) (id : String) : List String :=
  match nodes.find? (·.id = id) with
  | some n => n.connections
  | none => []

/-- Visit what the queue names, in breadth and at most `cap` steps, but never `exclude`. A step
that meets a node a second time counts too. -/
def search (nodes : List Node) (exclude : String) : Nat → List String → List String → List String
  | 0, visited, _ => visited
  | _ + 1, visited, [] => visited
  | cap + 1, visited, id :: queue =>
    if id = exclude ∨ id ∈ visited then search nodes exclude cap visited queue
    else
      let visited := visited ++ [id]
      search nodes exclude cap visited
        (queue ++ (successors nodes id).filter (· ∉ visited))

/-- What can be reached from `start` without passing `exclude`, in order of discovery. An id that
names no node is reached but leads nowhere. -/
def downstream (nodes : List Node) (start exclude : String) (cap : Nat) : List String :=
  search nodes exclude cap [] [start]

namespace Node

/-- The node that stands between a source and `target`. -/
def between (id target : String) (kind : NodeKind) (x y : Double) : Node :=
  { (ofKind id kind x y).attach target .right with label := kind.word }

/-- Lead to `id` wherever `n` led to `target`, from the port it used. -/
def redirect (n : Node) (target id : String) : Node :=
  { n with
    connections := n.connections.map fun c => if c = target then id else c
    ports := (n.ports.erase target).insert id ((n.ports.get? target).getD .right) }

end Node

namespace Workflow

/-- Insert a node on the edge from `source` to `target`. A target that stands no further left than
the margin leaves no room: the new node goes right behind the source, and the target with all that
is downstream of it makes way. Otherwise the new node goes to `(x, y)`. -/
def insertBetween? (w : Workflow) (layout : Layout) (id source target : String) (kind : NodeKind)
    (x y : Double) : Option Workflow := do
  let s ← w.node? source
  let t ← w.node? target
  guard (s.connectsTo target)
  let cramped := (s.x.sub layout.crampedMargin).le t.x
  let shifted := if cramped then downstream w.nodes target source layout.searchCap.toNat else []
  let node := if cramped then .between id target kind (s.x.add layout.insertGap) s.y
    else .between id target kind x y
  let change (n : Node) : Node :=
    let n := if n.id ∈ shifted then n.moveRight layout.insertGap else n
    if n.id = source then n.redirect target id else n
  return { w with nodes := w.nodes.map change ++ [node] }

end Workflow

end Stepflow
