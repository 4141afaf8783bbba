import NodeWorkflow.Event
import NodeWorkflow.Json.Equality
import NodeWorkflow.Validation.Workflow

/-!
# Summaries

An overview of an execution graph: how many nodes there are, which nodes belong to which class, and
what is wrong or doubtful.
-/
namespace NodeWorkflow

structure Summary where
  nodeCount : Nat
  nodesByType : Entries (List String)
  issues : List String

namespace Summary

/-- The class that nodes without one are listed under. -/
def unknownClass : String := "<unknown>"

def addTo (groups : Entries (List String)) (type : Scalar) (id : String) : Entries (List String) :=
  groups.put type ((groups.get? type).getD [] ++ [id])

def classOf (node : Json) : Json :=
  (node.field "class_type").orElse (.str unknownClass)

/-- Nodes by class. A class must be a scalar. -/
def group : Entries (List String) → Entries Json → Except Fault (Entries (List String))
  | groups, [] => .ok groups
  | groups, (id, node) :: nodes => match classOf node with
    | .scalar type => group (addTo groups type id.text) nodes
    | _ => .error .keyNotScalar

/-- The class whose clip type may be out of date. -/
def dualLoader : String := "DualCLIPLoader"

def isLegacyDual (node : Json) : Bool :=
  (node.field "class_type").same (.str dualLoader) &&
    match node.field? "inputs" with
    | some (.obj inputs) => ((Entries.get? (.str "type") inputs).getD .null).same (.str "dual")
    | _ => false

def advisory (id : String) : String :=
  s!"DualCLIPLoader (node {id}) has type=\"dual\" which may not be supported - should be \"flux\""

def advisories (nodes : Entries Json) : List String :=
  nodes.filterMap fun (id, node) => if isLegacyDual node then some (advisory id.text) else none

def ofWorkflow (workflow : Json) : Except Fault Summary :=
  match workflow with
  | .obj nodes => do
    let groups ← group [] nodes
    return ⟨nodes.length, groups, Validation.errors workflow ++ advisories nodes⟩
  | _ => .ok ⟨0, [], Validation.errors workflow⟩

def defaultLabel : String := "Workflow summary"

def report (summary : Summary) (label : String) : List Event :=
  .summaryHead label summary.nodeCount ::
    summary.nodesByType.map (fun g => .summaryClass g.1 g.2) ++
    if summary.issues.isEmpty then [.summaryClean] else summary.issues.map .summaryIssue

end Summary
end NodeWorkflow
