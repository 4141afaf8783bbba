import NodeWorkflow.Number.Numeral
import NodeWorkflow.Shell.Host
import NodeWorkflow.Text.Blank
import NodeWorkflow.Shell.Case
import NodeWorkflow.Shell.Percent

/-!
# Targets

The target of a request is a path on the service, with or without a scheme and an authority in
front. Only a target that has both of these, the host included, is an address of its own, whatever
the scheme; any other is told by its path alone, which starts with one slash however many are
written. The steps `.` and `..` of a path are resolved, and its percent encoding is undone once.
-/
namespace NodeWorkflow.Shell
open Text

inductive TargetFault where
  /-- It does not have the form of a target. -/
  | malformed
  /-- A half of a surrogate pair in it has no bytes. -/
  | notBytes
  /-- Its host is not the written form of a host name. -/
  | hostName (cause : HostName.Fault)
  /-- The service sends the caller on to what does not have the form of a target. -/
  | redirect

/-- The pieces of a target. Other than the path they may be empty. -/
structure Target where
  scheme : String
  authority : List Point
  path : List Point
  query : List Point
  fragment : List Point

def isOneOf (cs : List Char) : Point → Bool
  | .char c => cs.contains c
  | .half _ => false

def isControl (p : Point) : Bool := p.code < 32 || p.code == 127

def isSchemeChar : Point → Bool
  | .char c => c.isAlphanum || c == '+' || c == '.' || c == '-'
  | .half _ => false

/-- Splits off the scheme that a target starts with: a letter, further letters, digits and signs,
and a colon. The scheme may be missing in front of the colon. -/
def splitScheme (ps : List Point) : String × List Point :=
  match ps.takeWhile isSchemeChar, ps.dropWhile isSchemeChar with
  | [], .char ':' :: rest => ("", rest)
  | .char c :: scheme, .char ':' :: rest =>
    if c.isAlpha then (ofPoints (.char c :: scheme), rest) else ("", ps)
  | _, _ => ("", ps)

def splitAuthority : List Point → List Point × List Point
  | .char '/' :: .char '/' :: rest =>
    (rest.takeWhile fun p => !isOneOf ['/'] p, rest.dropWhile fun p => !isOneOf ['/'] p)
  | ps => ([], ps)

def Target.split (ps : List Point) : Target :=
  let isEnd := isOneOf ['?', '#']
  let isMark := isOneOf ['#']
  let (scheme, rest) := splitScheme (ps.takeWhile (!isEnd ·))
  let (authority, path) := splitAuthority rest
  match ps.dropWhile (!isEnd ·) with
  | .char '?' :: rest =>
    ⟨scheme, authority, path, rest.takeWhile (!isMark ·), (rest.dropWhile (!isMark ·)).drop 1⟩
  | rest => ⟨scheme, authority, path, [], rest.drop 1⟩

/-- Who a target is for: a user, a host and a port. Any of them may be missing. -/
structure Authority where
  hasUser : Bool
  /-- The host as it is told to the service. -/
  host : String
  port : Option Int

namespace Authority

def isEmpty (a : Authority) : Bool := !a.hasUser && a.host.isEmpty && a.port.isNone

/-- Splits off the user, who stands in front of the last `@`. -/
def splitUser (ps : List Point) : List Point × List Point :=
  let rest := (ps.reverse.takeWhile (!isOneOf ['@'] ·)).reverse
  ((ps.take (ps.length - rest.length)).dropLast, rest)

def bracketEnd (ps : List Point) : Nat := (ps.reverse.dropWhile (!isOneOf [']'] ·)).length

/-- Splits off the host: an address in square brackets, or what stands in front of a colon. -/
def splitHost (ps : List Point) : List Point × List Point :=
  match ps with
  | .char '[' :: _ :: _ =>
    if 0 < bracketEnd ps then (ps.take (bracketEnd ps), ps.drop (bracketEnd ps))
    else (ps.takeWhile (!isOneOf [':'] ·), ps.dropWhile (!isOneOf [':'] ·))
  | _ => (ps.takeWhile (!isOneOf [':'] ·), ps.dropWhile (!isOneOf [':'] ·))

/-- Reads what follows the host: a port, with or without a colon in front. -/
def readPort (ps : List Point) : Except TargetFault (Option Int) :=
  let digits := match ps with
    | .char ':' :: rest => rest
    | ps => ps
  if digits.isEmpty then .ok none
  else match Number.readInteger (trim (ofPoints digits).toList) with
    | .value port => .ok (some port)
    | _ => .error .malformed

def read (ps : List Point) : Except TargetFault Authority := do
  let (user, rest) := splitUser ps
  if user.any Point.isHalf then throw .notBytes
  let (host, rest) := splitHost rest
  let some host := Host.read? host | throw .malformed
  return ⟨!user.isEmpty, host, ← readPort rest⟩

end Authority

def dropDots : List String → List String → List String
  | done, [] => done.reverse
  | done, "." :: rest => dropDots done rest
  | done, ".." :: rest =>
    dropDots (if done = [""] then done else done.drop 1) rest
  | done, step :: rest => dropDots (step :: done) rest

def resolved (path : String) : String := "/".intercalate (dropDots [] (path.splitOn "/"))

/-- The most points of a target, and the most characters of its pieces when they are encoded. -/
def lengthLimit : Nat := 65536

/-- How many characters a point has when it is encoded, given the characters of ASCII that must
be. -/
def encodedLength (encoded : List Char) : Point → Nat
  | .char c =>
    if c.toNat < 128 then if c.toNat ≤ 32 || encoded.contains c then 3 else 1 else 3 * c.utf8Size
  | .half _ => 9

def encodedInQuery : List Char := ['\x22', '<', '>']

def encodedInPath : List Char := ['\x22', '<', '>', '\x60', '\x7b', '\x7d']

def isShort (path : String) (query : List Point) : Bool :=
  let total (lengths : List Nat) : Nat := lengths.foldl (· + ·) 0
  total ((points path).map (encodedLength encodedInPath)) ≤ lengthLimit &&
    total (query.map (encodedLength encodedInQuery)) ≤ lengthLimit

namespace Target

/-- Whether a path without scheme and authority looks as if it had one. -/
def isAmbiguous (t : Target) : Bool :=
  match t.path with
  | .char '/' :: .char '/' :: _ | .char ':' :: _ => true
  | _ => false

def isAddress (t : Target) (a : Authority) : Bool := !t.scheme.isEmpty && !a.host.isEmpty

def resolve (t : Target) (a : Authority) : Except TargetFault String := do
  let isBare := t.scheme.isEmpty && a.isEmpty
  if isBare && t.isAmbiguous then throw .malformed
  let path := if isBare then ofPoints t.path else resolved (ofPoints t.path)
  if (points path ++ t.query ++ t.fragment).any Point.isHalf then throw .notBytes
  if t.isAddress a then return if path.isEmpty then "/" else path
  let path := String.ofList ('/' :: path.toList.dropWhile (· == '/'))
  if !isShort path t.query then throw .malformed
  return resolved path

end Target

def servicePorts : List (String × Int) := [("http", 80), ("https", 443), ("ws", 80), ("wss", 443)]

/-- The port that is not told with a scheme, which is in small letters. -/
def standardPort? (scheme : String) : Option Int :=
  if scheme = "ftp" then some 21 else servicePorts.lookup scheme

structure Destination where
  /-- The scheme in small letters. -/
  scheme : String
  /-- The host as it is told to the service. -/
  host : String
  /-- The port, unless it is the one that the scheme stands for. -/
  port : Option Int
  /-- The steps of the path. -/
  steps : List String
  query : List Point
  fragment : List Point

namespace Destination

/-- Where a target leads that is no address of its own: to the service, which is called `test`. -/
def ofSteps (steps : List String) (query : List Point) : Destination :=
  ⟨"http", "test", none, steps, query, []⟩

/-- Reads a target. An encoded slash separates the steps of its path too. -/
def read (s : String) : Except TargetFault Destination := do
  let ps := points s
  if lengthLimit < ps.length || ps.any isControl then throw .malformed
  let t := Target.split ps
  let a ← Authority.read t.authority
  let path ← t.resolve a
  let steps := (percentDecode path).splitOn "/"
  if !t.isAddress a then return ofSteps steps t.query
  let port := if a.port = standardPort? t.scheme then none else a.port
  return ⟨lower t.scheme, a.host, port, steps, t.query, t.fragment⟩

/-- Checks that the service can be told the host. An address in brackets is told as it is written,
which must be in ASCII, and a name is read from its written form. -/
def check (d : Destination) : Except TargetFault Unit := do
  if !Host.isAscii d.host then throw .notBytes
  if let some (.error cause) := Host.nameOf? d.host then throw (.hostName cause)

end Destination
end NodeWorkflow.Shell
