import NodeWorkflow.Fault

/-!
# Data where items, keys or entries are needed

What a value gives when it is gone through, when it serves as a key, and when it is taken for an
object.
-/
namespace NodeWorkflow.Json

/-- The items that a value gives when it is gone through: of a list its items, of an object its
keys, of a text its points. -/
def items : Json → Except Fault (List Json)
  | .list xs => .ok xs
  | .obj es => .ok (es.map fun e => .scalar e.1)
  | .str s => .ok ((Text.points s).map fun p => .str (Text.ofPoints [p]))
  | _ => .error .notIndexable

def key : Json → Except Fault Scalar
  | .scalar a => .ok a
  | _ => .error .keyNotScalar

/-- The entry that an item stands for: any value of two items is a key and a value. -/
def entry (index : Nat) (item : Json) : Except Fault (Scalar × Json) := do
  match ← item.items with
  | [name, v] => return (← name.key, v)
  | parts => throw (.value (.notPair index parts.length))

/-- The entries of a value that is taken for an object: its own, or those that its items stand for.
Of items with one key the first gives the place and the last the value. -/
def entries : Json → Except Fault (Entries Json)
  | .obj es => .ok es
  | v => do
    let es ← (← v.items).zipIdx.mapM fun x => entry x.2 x.1
    return Entries.putAll es []

end NodeWorkflow.Json
