import NodeWorkflow.Number.Binary64

/-!
# Data

The untyped data that workflows are made of: scalars, lists and objects. An object is a list of
entries in order. Its keys are scalars, which agree when they are one thing or have equal values:
`1`, `1.0` and `true` are one key.
-/
namespace NodeWorkflow
open Number

inductive Scalar where
  | null
  | bool (b : Bool)
  | int (n : Int)
  | float (x : Binary64)
  | str (s : String)
  deriving DecidableEq

inductive Json where
  | scalar (a : Scalar)
  | list (items : List Json)
  | obj (entries : List (Scalar × Json))

instance : Inhabited Json := ⟨.scalar .null⟩

namespace Scalar

/-- The integer that a truth value or an integer stands for. -/
def int? : Scalar → Option Int
  | .bool b => some (if b then 1 else 0)
  | .int n => some n
  | _ => none

/-- Equality of values. Numbers and truth values compare as numbers, without rounding. -/
def same : Scalar → Scalar → Bool
  | .null, .null => true
  | .str s, .str t => s == t
  | .float x, .float y => x.same y
  | .float x, b => match b.int? with
    | some n => x.sameInt n
    | none => false
  | a, .float y => match a.int? with
    | some n => y.sameInt n
    | none => false
  | a, b => match a.int?, b.int? with
    | some m, some n => m == n
    | _, _ => false

/-- Whether two scalars are one key: they have equal values, or they are the one thing that is not a
number in JSON text. -/
def agrees : Scalar → Scalar → Bool
  | .float (.nan true), .float (.nan true) => true
  | a, b => a.same b

def truthy : Scalar → Bool
  | .null => false
  | .bool b => b
  | .int n => n != 0
  | .float x => !x.isZero
  | .str s => !s.isEmpty

end Scalar

abbrev Entries (α : Type) := List (Scalar × α)

namespace Entries
variable {α : Type}

def get? (key : Scalar) : Entries α → Option α
  | [] => none
  | (k, v) :: es => if k.agrees key then some v else get? key es

def has (key : Scalar) (es : Entries α) : Bool :=
  (get? key es).isSome

/-- Stores a value. An entry that is there keeps its place and its spelling of the key; a new one
goes to the end. -/
def put (key : Scalar) (value : α) : Entries α → Entries α
  | [] => [(key, value)]
  | (k, v) :: es => if k.agrees key then (k, value) :: es else (k, v) :: put key value es

def erase (key : Scalar) : Entries α → Entries α
  | [] => []
  | (k, v) :: es => if k.agrees key then es else (k, v) :: erase key es

def putAll (new es : Entries α) : Entries α :=
  new.foldl (fun acc e => acc.put e.1 e.2) es

def Distinct (es : Entries α) : Prop :=
  es.Pairwise fun a b => a.1.agrees b.1 = false

end Entries

namespace Json

@[match_pattern] abbrev null : Json := .scalar .null
@[match_pattern] abbrev bool (b : Bool) : Json := .scalar (.bool b)
@[match_pattern] abbrev int (n : Int) : Json := .scalar (.int n)
@[match_pattern] abbrev float (x : Binary64) : Json := .scalar (.float x)
@[match_pattern] abbrev str (s : String) : Json := .scalar (.str s)

def ofFields (fields : List (String × Json)) : Json :=
  .obj (fields.map fun f => (.str f.1, f.2))

def field? (name : String) : Json → Option Json
  | .obj es => Entries.get? (.str name) es
  | _ => none

/-- The value under a text key; a missing one counts as null. -/
def field (name : String) (v : Json) : Json :=
  (v.field? name).getD .null

def isObj : Json → Bool
  | .obj _ => true
  | _ => false

def isNull : Json → Bool
  | .null => true
  | _ => false

def truthy : Json → Bool
  | .scalar a => a.truthy
  | .list xs => !xs.isEmpty
  | .obj es => !es.isEmpty

def orElse (v alternative : Json) : Json :=
  if v.truthy then v else alternative

end Json
end NodeWorkflow
