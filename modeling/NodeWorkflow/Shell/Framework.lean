import NodeWorkflow.Shell.Body
import NodeWorkflow.Shell.Redirect

/-!
# A framework

How requests are taken to routes. A path that has a route without the slashes at its end leads
there.
-/
namespace NodeWorkflow.Shell
open Service

/-- The words of a path agree with a route also if a line break follows the last one. -/
def isWord (step word : String) : Bool := step == word || step == word ++ "\n"

def route? : List String → Option Route
  | ["", "api", last] =>
    if isWord last "compile" then some .compile
    else if isWord last "validate" then some .validate
    else if isWord last "inject" then some .inject
    else if isWord last "summary" then some .summary
    else if isWord last "templates" then some .templates
    else none
  | ["", "api", "templates", name] => if name.isEmpty then none else some (.template name)
  | ["", "api", "templates", name, last] =>
    if !name.isEmpty && isWord last "payload" then some (.payload name) else none
  | _ => none

def invocation [Machine] (body : Option String) : Route → Except Response Invocation
  | .compile => (readBody body checkCompile).map .compile
  | .validate => (readBody body checkWorkflow).map .validate
  | .inject => (readBody body checkInject).map .inject
  | .summary => (readBody body checkWorkflow).map .summary
  | .templates => .ok .templates
  | .template name => .ok (.template name)
  | .payload name => (readBody body checkPayload).map (.payload name)

def unslashed (steps : List String) : List String :=
  (steps.reverse.dropWhile String.isEmpty).reverse

def redirect (destination : Destination) (steps : List String) : Response :=
  match destination.location? ("/".intercalate steps) with
  | some location => ⟨307, .text "", some location⟩
  | none => internalError

/-- A response to the method `HEAD` has no body. -/
def withoutBody (method : String) (response : Response) : Response :=
  if method = "HEAD" then { response with body := .text "" } else response

def receive [Machine] (destination : Destination) (request : Request) :
    Except Response Invocation :=
  let refused (response : Response) : Except Response Invocation :=
    .error (withoutBody request.method response)
  match route? request.steps with
  | none =>
    if (route? (unslashed request.steps)).isSome then
      refused (redirect destination (unslashed request.steps))
    else refused (refusal 404 (.str "Not Found"))
  | some route =>
    if request.method = route.method then invocation request.body route
    else refused (refusal 405 (.str "Method Not Allowed"))

/-- The framework as a caller meets it who goes to a destination. -/
def framework [Machine] (destination : Destination) : Framework where
  receive := receive destination
  present := present
  renders := isPlain
  respond := respond

/-- A request by a method to where it goes. Methods are named in letters of any case. -/
def request (method : String) (destination : Destination) (body : Option String) :
    Except TargetFault Request := do
  if !body.all Text.isWhole then throw .notBytes
  destination.check
  return ⟨Text.upper method, destination.steps, body⟩

def checkResponse (destination : Destination) (response : Response) : Except TargetFault Unit :=
  match response.location with
  | some location => destination.checkRedirect location
  | none => .ok ()

end NodeWorkflow.Shell
