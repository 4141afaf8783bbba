import NodeWorkflow.Json.Basic
import NodeWorkflow.Number.Shortest
import NodeWorkflow.Text.Quoted

/-!
# Data in messages

How messages show data: text stands as it is at the top and in quotes inside a list or an object.
-/
namespace NodeWorkflow

/-- The spelling of a scalar inside a list or an object. -/
def Scalar.quoted : Scalar → String
  | .null => "None"
  | .bool true => "True"
  | .bool false => "False"
  | .int n => toString n
  | .float x => x.toText .plain
  | .str s => Text.quoted s

/-- The spelling of a scalar on its own. -/
def Scalar.text : Scalar → String
  | .str s => s
  | a => a.quoted

namespace Json

mutual

def quoted : Json → String
  | .scalar a => a.quoted
  | .list xs => "[" ++ ", ".intercalate (quotedItems xs) ++ "]"
  | .obj es => "\x7b" ++ ", ".intercalate (quotedEntries es) ++ "\x7d"

def quotedItems : List Json → List String
  | [] => []
  | x :: xs => quoted x :: quotedItems xs

def quotedEntries : List (Scalar × Json) → List String
  | [] => []
  | (k, v) :: es => (k.quoted ++ ": " ++ quoted v) :: quotedEntries es

end

def text : Json → String
  | .scalar a => a.text
  | v => v.quoted

end Json
end NodeWorkflow
