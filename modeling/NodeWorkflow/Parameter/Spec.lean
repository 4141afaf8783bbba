import NodeWorkflow.Parameter.Condition

/-!
# Parameter specifications

A specification says where a named parameter goes: to the nodes of a class that meet conditions, at
a first path or, where that is refused, at a second one.
-/
namespace NodeWorkflow

inductive ParameterType where
  | string
  | number
  deriving DecidableEq

def ParameterType.name : ParameterType → String
  | .string => "string"
  | .number => "number"

structure ParameterSpec where
  nodeType : Json
  primaryPath : Json
  fallbackPath : Json
  type : ParameterType
  /-- The conditions on a node, all of which must hold. -/
  conditions : Option (List Condition)
  description : Json

/-- Specifications by the names of their parameters. -/
abbrev Registry := Entries ParameterSpec

namespace ParameterSpec

def selects (nodeType : Json) (conditions : Option (List Condition)) (node : Json) :
    Except Fault Bool :=
  if (node.field "class_type").same nodeType then
    match conditions with
    | none => .ok true
    | some cs => Condition.allHold node cs
  else .ok false

def matchesNode (spec : ParameterSpec) (node : Json) : Except Fault Bool :=
  if node.isObj then selects spec.nodeType spec.conditions node else .error .notObject

/-- The type that data names; without data it is the type of text. -/
def typeOf (data : Option Json) : Except Fault ParameterType :=
  match data with
  | none | some (.str "string") => .ok .string
  | some (.str "number") => .ok .number
  | some other => .error (.value (.unsupportedType other))

/-- Reads a specification. Only the class of the nodes must be given. -/
def ofJson (data : Json) : Except Fault ParameterSpec := do
  if !data.isObj then throw .notObject
  let type ← typeOf (data.field? "type")
  let condition := data.field "when"
  let some nodeType := data.field? "node_type" | throw (.keyMissing "node_type")
  let conditions ← if condition.truthy then some <$> Condition.ofJson condition else pure none
  return ⟨nodeType, data.field "primary_path", data.field "fallback_path", type, conditions,
    (data.field? "description").getD (.str "")⟩

end ParameterSpec

def Registry.ofJson : Json → Except Fault Registry
  | .obj entries => entries.mapM fun e => return (e.1, ← ParameterSpec.ofJson e.2)
  | _ => .error .notObject

end NodeWorkflow
