import NodeWorkflow.Reference
import NodeWorkflow.Json.Display

/-!
# Cycles

An execution graph has an edge from a node to every input that refers to it. The sweep takes nodes
without open incoming edges away, one after the other; the graph has a cycle if some node is never
taken.
-/
namespace NodeWorkflow.Validation

def nodeIds (nodes : Entries Json) : List String :=
  nodes.map fun e => e.1.text

def edgesInto (ids : List String) (id : Scalar) (node : Json) : List (String × String) :=
  node.nodeInputs.filterMap fun input =>
    input.2.reference?.bind fun r => if ids.contains r.node then some (r.node, id.text) else none

/-- Source and target of every reference between nodes of a graph. Several references between two
nodes are several edges. -/
def edges (nodes : Entries Json) : List (String × String) :=
  let ids := nodeIds nodes
  nodes.flatMap fun e => edgesInto ids e.1 e.2

/-- The state of a sweep: the nodes to take next, the count of open edges into each node, and the
nodes that were taken, the latest first. -/
structure Sweep where
  queue : List String
  degree : List (String × Int)
  taken : List String

namespace Sweep

def start (ids : List String) (edges : List (String × String)) : Sweep :=
  let counts := ids.eraseDups.map fun id => (id, ((edges.countP fun e => e.2 == id : Nat) : Int))
  ⟨counts.filterMap fun c => if c.2 = 0 then some c.1 else none, counts, []⟩

def count? (s : Sweep) (id : String) : Option Int := s.degree.lookup id

/-- Closes one edge into a node, and queues the node if it was the last. -/
def close (s : Sweep) (id : String) : Sweep :=
  let counts := s.degree.map fun c => if c.1 == id then (c.1, c.2 - 1) else c
  let queue := if counts.lookup id = some 0 then s.queue ++ [id] else s.queue
  ⟨queue, counts, s.taken⟩

/-- Takes the first node of the queue and closes the edges out of it; `none` if no node is left. -/
def step? (edges : List (String × String)) (s : Sweep) : Option Sweep :=
  match s.queue with
  | [] => none
  | id :: rest =>
    let targets := edges.filterMap fun e => if e.1 == id then some e.2 else none
    some (targets.foldl close ⟨rest, s.degree, id :: s.taken⟩)

def run (edges : List (String × String)) : Nat → Sweep → Sweep
  | 0, s => s
  | fuel + 1, s => match s.step? edges with
    | none => s
    | some s => run edges fuel s

end Sweep

/-- The end of the sweep. No node is taken twice, so that one step per node is enough. -/
def sweep (nodes : Entries Json) : Sweep :=
  let ids := nodeIds nodes
  Sweep.run (edges nodes) ids.length (Sweep.start ids (edges nodes))

def hasCycle (nodes : Entries Json) : Bool :=
  (sweep nodes).taken.length != nodes.length

end NodeWorkflow.Validation
