import NodeWorkflow.Shell.Rendering
import NodeWorkflow.Shell.Truth

/-!
# Checks on request bodies

A check takes data to a value or to complaints, each with the location it is about. Fields are
checked independently, so that all complaints about a body are told, in the order of its fields.
-/
namespace NodeWorkflow.Shell
open Service

inductive Problem where
  | missing
  | notObject
  | notList
  | notText
  /-- No value that could stand for a truth value. -/
  | notTruth
  /-- A number or a text that stands for no truth value. -/
  | otherTruth
  /-- No object where fields are looked for. -/
  | notRecord
  | notJson

def Problem.name : Problem → String
  | .missing => "missing"
  | .notObject => "dict_type"
  | .notList => "list_type"
  | .notText => "string_type"
  | .notTruth => "bool_type"
  | .otherTruth => "bool_parsing"
  | .notRecord => "model_attributes_type"
  | .notJson => "json_invalid"

/-- A way into a body: names of fields and numbers of items. -/
abbrev Location := List Scalar

structure Complaint where
  location : Location
  problem : Problem
  /-- The data that is complained about; of what is missing, that which lacks it. -/
  input : Json

def isReserved (key : Scalar) : Bool := "_sa".toList.isPrefixOf key.text.toList

mutual

def withoutReserved : Json → Json
  | .list xs => .list (itemsUnreserved xs)
  | .obj es => .obj (entriesUnreserved es)
  | v => v

def itemsUnreserved : List Json → List Json
  | [] => []
  | x :: xs => withoutReserved x :: itemsUnreserved xs

def entriesUnreserved : List (Scalar × Json) → List (Scalar × Json)
  | [] => []
  | (k, v) :: es =>
    if isReserved k then entriesUnreserved es else (k, withoutReserved v) :: entriesUnreserved es

end

namespace Complaint

def stepData : Scalar → Json
  | .str name => .str (withoutHalves name)
  | step => .scalar step

def toJson (c : Complaint) : Json :=
  .ofFields [("loc", .list (c.location.map stepData)), ("type", .str c.problem.name)]

/-- Whether the complaint can be sent with its data. -/
def isPlain (c : Complaint) : Bool := Shell.isPlain (withoutReserved c.input)

end Complaint

def complaints (cs : List Complaint) : Response :=
  if cs.all Complaint.isPlain then refusal 422 (.list (cs.map Complaint.toJson))
  else internalError

abbrev Checked (α : Type) := Except (List Complaint) α

/-- A check of data that stands at a location. -/
abbrev Check (α : Type) := Location → Json → Checked α

namespace Check
variable {α β : Type}

def complain (here : Location) (problem : Problem) (input : Json) : Checked α :=
  .error [⟨here, problem, input⟩]

/-- Both values, or the complaints about both. -/
def both (a : Checked α) (b : Checked β) : Checked (α × β) :=
  match a, b with
  | .ok a, .ok b => .ok (a, b)
  | .error xs, .error ys => .error (xs ++ ys)
  | .error xs, _ | _, .error xs => .error xs

/-- All values, or the complaints about all. -/
def gather : List (Checked α) → Checked (List α)
  | [] => .ok []
  | a :: rest => (both a (gather rest)).map fun p => p.1 :: p.2

def any : Check Json := fun _ v => .ok v

def text : Check String := fun here v =>
  match v with
  | .str s => .ok s
  | _ => complain here .notText v

def entries : Check (Entries Json) := fun here v =>
  match v with
  | .obj es => .ok es
  | _ => complain here .notObject v

def object : Check Json := fun here v => (entries here v).map .obj

def entriesOf (check : Check α) : Check (Entries α) := fun here v => do
  let es ← entries here v
  gather (es.map fun e => (check (here ++ [e.1]) e.2).map fun a => (e.1, a))

def listOf (check : Check α) : Check (List α) := fun here v =>
  match v with
  | .list xs => gather (xs.zipIdx.map fun x => check (here ++ [.int x.2]) x.1)
  | _ => complain here .notList v

/-- Whether an integer has 64 bits at most, the sign included. -/
def isWord (n : Int) : Bool := -Nat.pow 2 63 ≤ n && n < Nat.pow 2 63

/-- The integer that a number equals, if it has 64 bits at most. A binary number must not be the
least of these. -/
def wordOf? : Scalar → Option Int
  | .int n => if isWord n then some n else none
  | .float x => match x.truncate? with
    | some n => if x.sameInt n && isWord n && n != -Nat.pow 2 63 then some n else none
    | none => none
  | _ => none

/-- A truth value: itself, the numbers 0 and 1, or a word for it. A number with a fraction or of
more than 64 bits is not tried. -/
def truth : Check Bool := fun here v =>
  match v with
  | .scalar (.bool b) => .ok b
  | .scalar (.str s) => match Text.truthOf? s with
    | some b => .ok b
    | none => complain here .otherTruth v
  | .scalar a => match wordOf? a with
    | some n =>
      if n = 0 then .ok false else if n = 1 then .ok true else complain here .otherTruth v
    | none => complain here .notTruth v
  | _ => complain here .notTruth v

def nullable (check : Check α) : Check (Option α) := fun here v =>
  if v.isNull then .ok none else (check here v).map some

def required (fields : Entries Json) (here : Location) (name : String) (check : Check α) :
    Checked α :=
  match Entries.get? (.str name) fields with
  | some v => check (here ++ [.str name]) v
  | none => complain (here ++ [.str name]) .missing (.obj fields)

def optional (fields : Entries Json) (here : Location) (name : String) (check : Check α)
    (default : α) : Checked α :=
  match Entries.get? (.str name) fields with
  | some v => check (here ++ [.str name]) v
  | none => .ok default

def record (read : Entries Json → Location → Checked α) : Check α := fun here v =>
  match v with
  | .obj fields => read fields here
  | _ => complain here .notRecord v

end Check
end NodeWorkflow.Shell
