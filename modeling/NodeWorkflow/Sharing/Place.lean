import NodeWorkflow.Path.Basic

/-!
# Places

A place is a way down into data, one field or item at a time.
-/
namespace NodeWorkflow

inductive Step where
  | field (key : Scalar)
  | item (index : Nat)
  deriving DecidableEq

abbrev Place := List Step

def Path.steps (path : Path) : Place :=
  path.flatMap fun s => .field (.str s.name) :: match s.index with
    | none => []
    | some i => [.item i]

namespace Json

def child? (v : Json) : Step → Option Json
  | .field key => match v with
    | .obj es => Entries.get? key es
    | _ => none
  | .item index => match v with
    | .list xs => xs[index]?
    | _ => none

def setChild (v child : Json) : Step → Json
  | .field key => match v with
    | .obj es => .obj (Entries.put key child es)
    | _ => v
  | .item index => match v with
    | .list xs => .list (xs.set index child)
    | _ => v

/-- The value at a place. -/
def atPlace? : Place → Json → Option Json
  | [], v => some v
  | step :: rest, v => (v.child? step).bind (atPlace? rest)

/-- Puts a value at a place; where there is no such place nothing changes. -/
def setPlace (new : Json) : Place → Json → Json
  | [], _ => new
  | step :: rest, v => match v.child? step with
    | some child => v.setChild (setPlace new rest child) step
    | none => v

def isContainer : Json → Bool
  | .scalar _ => false
  | _ => true

end Json
end NodeWorkflow
