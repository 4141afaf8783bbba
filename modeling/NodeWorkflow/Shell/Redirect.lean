import NodeWorkflow.Shell.Target

/-!
# Redirects

The service sends a caller on by naming an address. It takes the host from what it was told, if that
has the form of a host; otherwise it names the host and the port that it was reached by, the host
without brackets and a missing port as `None`. The caller reads the address as it reads a target.
-/
namespace NodeWorkflow.Shell
open Text

def isNameChar (c : Char) : Bool := c.isAlphanum || "-._~!$&'()*+,;=".contains c

def isName : List Char → Bool
  | [] => true
  | '%' :: a :: b :: rest => (hexValue? a).isSome && (hexValue? b).isSome && isName rest
  | c :: rest => isNameChar c && isName rest

def isAddressChar (c : Char) : Bool := c == ':' || c == '.' || (hexValue? c).isSome

def isLocationChar (c : Char) : Bool :=
  c.isAlphanum || "_.-~:/%#?=@[]!$&'()*+,".contains c

namespace Destination

/-- Whether what the service is told has the form of a host and a port. -/
def isProper (d : Destination) : Bool :=
  d.port.all (0 ≤ ·) && match Host.bracketed? d.host with
    | some address => address.toList.all isAddressChar
    | none => isName d.host.toList

def portText : Option Int → String
  | some port => toString port
  | none => "None"

def authority (d : Destination) : String :=
  match d.port with
  | some port => s!"{d.host}:{port}"
  | none => d.host

/-- The host and the port by which the service is reached, if it knows the scheme. -/
def reached? (d : Destination) : Option String := do
  let standard ← servicePorts.lookup d.scheme
  let host := (Host.bracketed? d.host).getD d.host
  return if d.port = some standard then host else host ++ ":" ++ portText d.port

def location? (d : Destination) (path : String) : Option String := do
  let authority ← if d.isProper then some d.authority else d.reached?
  let query := if d.query.isEmpty then "" else "?" ++ ofPoints d.query
  return percentEncode isLocationChar (d.scheme ++ "://" ++ authority ++ path ++ query)

/-- Checks that the caller can go on to an address. The fragment is taken over unless the address
has one. -/
def checkRedirect (d : Destination) (location : String) : Except TargetFault Unit :=
  match read location with
  | .error _ => .error .redirect
  | .ok next =>
    let fragment := points (percentDecode (ofPoints d.fragment))
    if next.fragment.isEmpty && fragment.any isControl then .error .malformed else .ok ()

end Destination
end NodeWorkflow.Shell
