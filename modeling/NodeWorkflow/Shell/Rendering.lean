import NodeWorkflow.Json.Display
import NodeWorkflow.Service.Framework

/-!
# Data in responses

A response is text that every reader of JSON takes: its keys are texts, its numbers are finite, and
halves of surrogate pairs do not occur. Data that cannot be sent so gives no response.
-/
namespace NodeWorkflow.Shell
open Service

mutual

/-- Whether data can be sent as it is. -/
def isPlain : Json → Bool
  | .scalar (.str s) => Text.isWhole s
  | .scalar (.float x) => x.isFinite
  | .scalar _ => true
  | .list xs => arePlain xs
  | .obj es => entriesPlain es

def arePlain : List Json → Bool
  | [] => true
  | x :: xs => isPlain x && arePlain xs

def entriesPlain : List (Scalar × Json) → Bool
  | [] => true
  | (k, v) :: es => Text.isWhole k.text && isPlain v && entriesPlain es

end

/-- A text with three replacement characters for every half, one for each byte of it. -/
def withoutHalves (s : String) : String :=
  Text.ofPoints <| (Text.points s).flatMap fun p =>
    if p.isHalf then List.replicate 3 (.char Text.replacement) else [p]

def keyText : Scalar → String
  | .null => "None"
  | .bool b => if b then "true" else "false"
  | .float x => if x.isFinite then (Scalar.float x).text else "None"
  | a => a.text

mutual

/-- Data of any kind as it is sent, if it nests `levels` deep at most, a scalar being one level.
Numbers that JSON lacks are null. Of keys that become one text the last counts. -/
def openData (levels : Nat) : Json → Option Json
  | .scalar (.str s) => if levels = 0 || !Text.isWhole s then none else some (.str s)
  | .scalar (.float x) =>
    if levels = 0 then none else some (if x.isFinite then .float x else .null)
  | .scalar a => if levels = 0 then none else some (.scalar a)
  | .list xs => if levels = 0 then none else (openItems (levels - 1) xs).map .list
  | .obj es => if levels = 0 then none else (openEntries (levels - 1) es []).map .obj

def openItems (levels : Nat) : List Json → Option (List Json)
  | [] => some []
  | x :: xs => do return (← openData levels x) :: (← openItems levels xs)

def openEntries (levels : Nat) : List (Scalar × Json) → Entries Json → Option (Entries Json)
  | [], done => some done
  | (k, v) :: es, done =>
    if Text.isWhole (keyText k) then do
      openEntries levels es (done.put (.str (keyText k)) (← openData levels v))
    else none

end

def levelLimit : Nat := 255

def wholeText : Json → Option Json
  | .str s => if Text.isWhole s then some (.str s) else none
  | _ => none

/-- The entries of an object as they are sent. Other than the keys inside data of any kind, their
keys may hold halves, which are replaced. -/
def presentEntries (value : Json → Option Json) :
    List (Scalar × Json) → Entries Json → Option (Entries Json)
  | [], done => some done
  | (.str name, v) :: es, done => do
    presentEntries value es (done.put (.str (withoutHalves name)) (← value v))
  | _, _ => none

mutual

def present : Schema → Json → Option Json
  | .any, v => openData levelLimit v
  | .text, v => wholeText v
  | .truth, v => match v with
    | .scalar (.bool _) => some v
    | _ => none
  | .integer, v => match v with
    | .scalar (.int _) => some v
    | _ => none
  | .list item, v => match v with
    | .list xs => (xs.mapM (present item)).map .list
    | _ => none
  | .object value, v => match v with
    | .obj es => (presentEntries (present value) es []).map .obj
    | _ => none
  | .record fields, v => (presentFields fields v).map .ofFields

def presentFields : List (String × Schema) → Json → Option (List (String × Json))
  | [], _ => some []
  | (name, schema) :: fields, v => do
    return (name, ← present schema (← v.field? name)) :: (← presentFields fields v)

end

def internalError : Response := ⟨500, .text "Internal Server Error", none⟩

def refusal (status : Nat) (detail : Json) : Response :=
  if isPlain detail then ⟨status, .json (.ofFields [("detail", detail)]), none⟩ else internalError

def respond (schema : Schema) : Outcome → Response
  | .returned v => match present schema v with
    | some shown => .ok shown
    | none => internalError
  | .refused status detail => refusal status detail
  | .failed => internalError

end NodeWorkflow.Shell
