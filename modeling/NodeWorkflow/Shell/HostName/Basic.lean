import NodeWorkflow.Shell.HostName.Label
import NodeWorkflow.Shell.HostName.Small

/-!
# Host names

A host name consists of labels with dots between them, and one more dot may stand at its end. A name
with characters outside ASCII has a written form, which `encode` gives, and `decode` leads from the
written form to the name.
-/
namespace NodeWorkflow.HostName

/-- The dots between labels, some of them outside ASCII. -/
def isDot (c : Nat) : Bool := c == 0x2e || c == 0x3002 || c == 0xff0e || c == 0xff61

def splitDots : List Nat → List (List Nat)
  | [] => [[]]
  | c :: rest =>
    if isDot c then [] :: splitDots rest
    else match splitDots rest with
      | label :: labels => (c :: label) :: labels
      | [] => [[c]]

/-- The labels of a name, and whether a dot follows the last one. -/
def labels (name : List Nat) : List (List Nat) × Bool :=
  let runs := splitDots name
  if runs.getLast? = some [] then (runs.dropLast, true) else (runs, false)

def encode (name : List Nat) : Except Fault (List Nat) := do
  let name := name.flatMap small
  if nameLimit < name.length then throw .malformed
  let (labels, endsInDot) := labels name
  let written := List.intercalate [0x2e] (← labels.mapM writeLabel)
  if labels.isEmpty || nameLimit ≤ written.length then throw .malformed
  return if endsInDot then written ++ [0x2e] else written

def decode (written : List Nat) : Except Fault (List Nat) := do
  if nameLimit < written.length then throw .malformed
  let (labels, endsInDot) := labels written
  if labels.isEmpty then throw .malformed
  let name := List.intercalate [0x2e] (← labels.mapM readLabel)
  return if endsInDot then name ++ [0x2e] else name

end NodeWorkflow.HostName
