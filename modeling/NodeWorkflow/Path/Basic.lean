import NodeWorkflow.Fault
import NodeWorkflow.Number.Numeral

/-!
# Paths

A path names a place inside nested objects and lists. It is written as segments between dots; a
segment is the name of a field, and an index in brackets if the field is a list and an item of it is
meant.
-/
namespace NodeWorkflow

structure Segment where
  name : String
  index : Option Nat
  deriving DecidableEq

abbrev Path := List Segment

namespace Segment

def isMark (c : Char) : Bool := c == '.' || c == '[' || c == ']'

def isDigit (c : Char) : Bool := (Text.digitValue? c).isSome

/-- An index with its closing bracket, given what follows the opening one; a line break may end the
piece. -/
def indexDigits? (cs : List Char) : Option (List Nat) :=
  let digits := cs.takeWhile isDigit
  let rest := cs.dropWhile isDigit
  if !digits.isEmpty && (rest = [']'] || rest = [']', '\n']) then
    some (digits.filterMap Text.digitValue?)
  else none

def split? (cs : List Char) : Option (String × Option (List Nat)) :=
  let name := cs.takeWhile (!isMark ·)
  if name.isEmpty then none
  else match cs.dropWhile (!isMark ·) with
    | [] => some (String.ofList name, none)
    | '[' :: rest => (indexDigits? rest).map fun ds => (String.ofList name, some ds)
    | _ => none

def parse (path : String) (cs : List Char) : Except PathFault Segment :=
  match split? cs with
  | none => .error (.badSegment (String.ofList cs) path)
  | some (name, none) => .ok ⟨name, none⟩
  | some (name, some ds) =>
    if Number.integerDigitLimit < ds.length then .error (.indexTooLong ds.length)
    else .ok ⟨name, some (Text.digitsValue ds)⟩

def print (s : Segment) : List Char :=
  s.name.toList ++ match s.index with
    | none => []
    | some i => '[' :: (Nat.toDigits 10 i ++ [']'])

end Segment

namespace Path

def pieces : List Char → List (List Char)
  | [] => [[]]
  | c :: cs =>
    if c = '.' then [] :: pieces cs
    else match pieces cs with
      | [] => [[c]]
      | p :: ps => (c :: p) :: ps

/-- Reads a path; the first piece that is no segment is at fault. -/
def parse (s : String) : Except PathFault Path :=
  if s.isEmpty then .error .noText
  else (pieces s.toList).mapM (Segment.parse s)

def ofJson : Json → Except PathFault Path
  | .str s => parse s
  | _ => .error .noText

def print : Path → List Char
  | [] => []
  | [s] => s.print
  | s :: rest => s.print ++ '.' :: print rest

end Path
end NodeWorkflow
