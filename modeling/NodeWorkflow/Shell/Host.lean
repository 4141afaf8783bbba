import NodeWorkflow.Shell.HostName.Basic
import NodeWorkflow.Shell.Percent

/-!
# Hosts

What can be the host of a target: an address of four octets, an address of eight groups in square
brackets, or a name. What looks like an address must be one, and a text with characters outside
ASCII must be a host name. Any other text in ASCII will do.
-/
namespace NodeWorkflow.Shell.Host
open Text

/-- Whether a text is a decimal number up to 255 without zeros in front. -/
def isOctet (s : String) : Bool :=
  let cs := s.toList
  !cs.isEmpty && cs.all Char.isDigit && cs.length ≤ 3 && (cs.length == 1 || cs.head? != some '0') &&
    digitsValue (cs.filterMap digitValue?) ≤ 255

def isOctets (s : String) : Bool :=
  let parts := s.splitOn "."
  parts.length == 4 && parts.all isOctet

/-- Whether a text looks like an address of octets: four runs of digits with dots between. -/
def looksLikeOctets (s : String) : Bool :=
  let runs := s.splitOn "."
  runs.length == 4 && runs.all fun run => !run.isEmpty && run.toList.all Char.isDigit

def isGroup (s : String) : Bool :=
  !s.isEmpty && s.length ≤ 4 && s.toList.all fun c => (hexValue? c).isSome

/-- The groups of an address, where an address of octets at the end counts as two groups. -/
def groups? (s : String) : Option (List String) :=
  let parts := s.splitOn ":"
  let last := parts.getLast?.getD ""
  if parts.length < 3 then none
  else if !last.contains '.' then some parts
  else if isOctets last then some (parts.dropLast ++ ["0", "0"])
  else none

/-- The groups on one side of those that are left out. There may be none on that side. -/
def sideGroups (side : List String) : List String := if side = [""] then [] else side

/-- An address of eight groups. Some may be left out at one place, where two colons stand. -/
def areGroups (parts : List String) : Bool :=
  let inner := (parts.drop 1).dropLast
  match (inner.filter String.isEmpty).length with
  | 0 => parts.length == 8 && parts.all isGroup
  | 1 =>
    let front := sideGroups (parts.take (1 + inner.idxOf ""))
    let back := sideGroups (parts.drop (2 + inner.idxOf ""))
    parts.length ≤ 9 && front.length + back.length ≤ 7 && (front ++ back).all isGroup
  | _ => false

/-- What stands between the brackets of a host: an address of groups, and the zone that it belongs
to behind a percent sign. -/
def isGrouped (s : String) : Bool :=
  match s.splitOn "%" with
  | [address] => (groups? address).any areGroups
  | [address, zone] => !zone.isEmpty && (groups? address).any areGroups
  | _ => false

def bracketed? (s : String) : Option String :=
  match s.toList with
  | '[' :: rest =>
    if rest.getLast? = some ']' then some (String.ofList rest.dropLast) else none
  | _ => none

def isAscii (s : String) : Bool := s.toList.all fun c => c.toNat < 128

def isHostChar (c : Char) : Bool :=
  c.toNat < 128 && !"\x20<>[]^".contains c

/-- A name in ASCII as it is told to the service: in small letters, and encoded where it must be. -/
def told (s : String) : String :=
  percentEncode isHostChar (String.ofList (s.toList.map Char.toLower))

def read? (ps : List Point) : Option String :=
  let s := ofPoints ps
  if s.isEmpty then some ""
  else if looksLikeOctets s then if isOctets s then some s else none
  else match bracketed? s with
    | some address => if isGrouped address then some s else none
    | none =>
      if isAscii s then some (told s)
      else (HostName.encode (ps.map Point.code)).toOption.map fun written =>
        String.ofList (written.map Char.ofNat)

/-- The name that a host which is told to the service stands for, if it is the written form of
one. -/
def nameOf? (host : String) : Option (Except HostName.Fault (List Nat)) :=
  let written := host.toList.map Char.toNat
  if HostName.isWritten written then some (HostName.decode written) else none

end NodeWorkflow.Shell.Host
