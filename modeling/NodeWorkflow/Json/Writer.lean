import NodeWorkflow.Json.Basic
import NodeWorkflow.Number.Shortest
import NodeWorkflow.Text.Quoted

/-!
# Writing data as text

The compact JSON text of data. A key that is no text is written as a string that spells its value.
-/
namespace NodeWorkflow

def Scalar.literal : Scalar → String
  | .null => "null"
  | .bool true => "true"
  | .bool false => "false"
  | .int n => toString n
  | .float x => x.toText ⟨-4, 15, 2, "NaN", "Infinity"⟩
  | .str s => s

namespace Json

def escapeUnit (n : Nat) : List Char := '\x5c' :: 'u' :: Text.hexDigits 4 n

/-- What stands for a point in a string. A half is escaped. -/
def escapeInString : Text.Point → List Char
  | .char c =>
    if c = '\x22' || c = '\x5c' then ['\x5c', c]
    else if c.toNat < 0x20 then escapeUnit c.toNat
    else (Text.Point.char c).kept
  | .half unit => escapeUnit unit

def renderString (s : String) : String :=
  String.ofList ('\x22' :: (Text.points s).flatMap escapeInString ++ ['\x22'])

mutual

def render : Json → String
  | .str s => renderString s
  | .scalar a => a.literal
  | .list xs => "[" ++ ",".intercalate (renderItems xs) ++ "]"
  | .obj es => "\x7b" ++ ",".intercalate (renderEntries es) ++ "\x7d"

def renderItems : List Json → List String
  | [] => []
  | x :: xs => render x :: renderItems xs

def renderEntries : List (Scalar × Json) → List String
  | [] => []
  | (k, v) :: es => (renderString k.literal ++ ":" ++ render v) :: renderEntries es

end

end Json
end NodeWorkflow
