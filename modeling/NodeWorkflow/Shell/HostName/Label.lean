import NodeWorkflow.Shell.HostName.Context
import NodeWorkflow.Shell.HostName.Punycode

/-!
# Labels

A label is one of the texts between the dots of a host name, as a list of code points. A label with
characters outside ASCII has a written form in ASCII, which is marked at its start.
-/
namespace NodeWorkflow.HostName

inductive Fault where
  /-- It does not have the form of one. -/
  | malformed
  /-- A character stands in no name. -/
  | character
  /-- A character does not stand between these neighbours. -/
  | context
  /-- It is in doubt in which order its characters are shown. -/
  | direction
  deriving DecidableEq

/-- The most characters of a name, with a dot at its end. -/
def nameLimit : Nat := 254

/-- The most characters of a label that is written in ASCII. -/
def labelLimit : Nat := 63

/-- Whether hyphens stand at an end of a label, or in the third and fourth place. -/
def hasStrayHyphen (label : List Nat) : Bool :=
  (label.drop 2).take 2 == [Punycode.hyphen, Punycode.hyphen] ||
    label.head? == some Punycode.hyphen || label.getLast? == some Punycode.hyphen

def checkCharacter (before : List Nat) (c : Nat) (after : List Nat) : Except Fault Unit :=
  if (direction? c).isNone then .error .character
  else if isJoiner c then if mayJoin c before after then .ok () else .error .malformed
  else if fits c before after then .ok ()
  else .error .context

def checkCharacters (before : List Nat) : List Nat → Except Fault Unit
  | [] => .ok ()
  | c :: after => do
    checkCharacter before c after
    checkCharacters (c :: before) after

def checkLabel (label : List Nat) : Except Fault Unit := do
  if label.isEmpty || nameLimit < label.length then throw .malformed
  if !isNormal label || hasStrayHyphen label then throw .malformed
  if label.head?.any isMark then throw .malformed
  checkCharacters [] label
  if !Direction.areOrdered (label.filterMap direction?) then throw .direction

/-- What a written label starts with that stands for another one. -/
def writtenMark : List Nat := [0x78, 0x6e, Punycode.hyphen, Punycode.hyphen]

def isWritten (label : List Nat) : Bool := writtenMark.isPrefixOf label

def readLabel (label : List Nat) : Except Fault (List Nat) := do
  if !isWritten label then
    checkLabel label
    return label
  let written := label.drop writtenMark.length
  if written.getLast?.all (· == Punycode.hyphen) then throw .malformed
  match Punycode.decode? written with
  | none => throw .malformed
  | some label =>
    checkLabel label
    return label

def writeLabel (label : List Nat) : Except Fault (List Nat) := do
  let written ←
    if label.all Punycode.isBasic then
      discard (readLabel label)
      pure label
    else
      checkLabel label
      pure (writtenMark ++ Punycode.encode label)
  if labelLimit < written.length then throw .malformed
  return written

end NodeWorkflow.HostName
