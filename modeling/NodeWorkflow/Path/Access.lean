import NodeWorkflow.Machine
import NodeWorkflow.Path.Basic

/-!
# Reading and writing at a path

Reading follows a path as far as objects and lists allow. Writing makes the objects and lists that
are missing, pads lists with null, and takes null for a missing value. A write is refused, and
leaves everything as it was, where something else stands in the way.
-/
namespace NodeWorkflow

namespace Json

def at? : Path → Json → Option Json
  | [], v => some v
  | ⟨name, index⟩ :: rest, v =>
    match v.field? name, index with
    | some child, none => at? rest child
    | some (.list xs), some i => match xs[i]? with
      | some item => at? rest item
      | none => none
    | _, _ => none

end Json

/-- How a write ends. -/
inductive WriteOutcome where
  | done
  | refused
  /-- A fault on the way; what was made until then stays. -/
  | stopped (fault : Fault)

namespace WriteOutcome

def isDone : WriteOutcome → Bool
  | .done => true
  | _ => false

end WriteOutcome

namespace Json

def padTo [Machine] (xs : List Json) (index : Nat) : Except Fault (List Json) :=
  let missing := index + 1 - xs.length
  if addressBound ≤ missing then .error .listTooLong
  else if Machine.memoryBound ≤ missing then .error .outOfMemory
  else .ok (xs ++ List.replicate missing .null)

/-- The object to go on with: a new one in place of null. -/
def vivified (v : Json) : Json :=
  if v.isNull then .obj [] else v

/-- The list under a name, a new one in place of null; `none` if something else is there. -/
def listUnder? (name : String) (es : Entries Json) : Option (List Json) :=
  match Entries.get? (.str name) es with
  | none | some .null => some []
  | some (.list xs) => some xs
  | some _ => none

/-- Writes `value` at a path. The result is the data afterwards, however the write ends. -/
def writeAt [Machine] (value : Json) : Path → Json → Json × WriteOutcome
  | ⟨name, none⟩ :: rest, .obj es =>
    if rest.isEmpty then (.obj (Entries.put (.str name) value es), .done)
    else
      let (child, outcome) := writeAt value rest ((Entries.get? (.str name) es).getD .null).vivified
      (.obj (Entries.put (.str name) child es), outcome)
  | ⟨name, some index⟩ :: rest, .obj es =>
    match listUnder? name es with
    | none => (.obj es, .refused)
    | some xs => match padTo xs index with
      | .error fault => (.obj (Entries.put (.str name) (.list xs) es), .stopped fault)
      | .ok xs =>
        if rest.isEmpty then (.obj (Entries.put (.str name) (.list (xs.set index value)) es), .done)
        else
          let (child, outcome) := writeAt value rest ((xs[index]?.getD .null).vivified)
          (.obj (Entries.put (.str name) (.list (xs.set index child)) es), outcome)
  | _, v => (v, .refused)

/-- Reads at a path given as data; `default` stands in for what is missing and for a malformed path.
Only an index of too many digits is a fault. -/
def getByPath (v path default : Json) : Except PathFault Json :=
  match Path.ofJson path with
  | .ok p => .ok ((v.at? p).getD default)
  | .error (.indexTooLong digits) => .error (.indexTooLong digits)
  | .error _ => .ok default

def setByPath [Machine] (v path value : Json) : Json × WriteOutcome :=
  match Path.ofJson path with
  | .ok p => writeAt value p v
  | .error (.indexTooLong digits) => (v, .stopped (.path (.indexTooLong digits)))
  | .error _ => (v, .refused)

end Json
end NodeWorkflow
