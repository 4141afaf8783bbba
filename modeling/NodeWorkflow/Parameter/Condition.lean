import NodeWorkflow.Fault
import NodeWorkflow.Json.Equality

/-!
# Conditions on nodes

A condition tells nodes of one class apart by their shape: the inputs they have, or their title. A
registry that is made in code may bring tests of its own.
-/
namespace NodeWorkflow

inductive Condition where
  | hasInput (key : Json)
  | lacksInput (key : Json)
  | titled (title : Json)
  /-- A test on nodes of any kind. -/
  | custom (test : Json → Except Fault Bool)

namespace Condition

/-- Whether the inputs of a node have a key. The key must be a scalar if there are inputs. -/
def inputPresent (key node : Json) : Except Fault Bool :=
  match node.field? "inputs", key with
  | some (.obj inputs), .scalar k => .ok (Entries.has k inputs)
  | some (.obj _), _ => .error .keyNotScalar
  | _, _ => .ok false

/-- A node whose metadata lacks a title has the title null. -/
def titleAgrees (title node : Json) : Bool :=
  match node.field? "_meta" with
  | some (.obj entries) => ((Json.obj entries).field "title").same title
  | _ => false

def holds : Condition → Json → Except Fault Bool
  | .hasInput key, node => inputPresent key node
  | .lacksInput key, node => (inputPresent key node).map (!·)
  | .titled title, node => .ok (titleAgrees title node)
  | .custom test, node => test node

def allHold (node : Json) : List Condition → Except Fault Bool
  | [] => .ok true
  | c :: cs => match c.holds node with
    | .ok true => allHold node cs
    | other => other

def ofEntry (kind : Scalar) (arg : Json) : Except Fault Condition :=
  if kind = .str "has_input" then .ok (.hasInput arg)
  else if kind = .str "lacks_input" then .ok (.lacksInput arg)
  else if kind = .str "title" then .ok (.titled arg)
  else .error (.value (.unknownCondition kind.text))

def ofJson : Json → Except Fault (List Condition)
  | .obj entries => entries.mapM fun e => ofEntry e.1 e.2
  | _ => .error .notObject

end Condition
end NodeWorkflow
