import NodeWorkflow.Json.Reader
import NodeWorkflow.Machine
import NodeWorkflow.Shell.Check
import NodeWorkflow.Shell.Encoding

/-!
# Request bodies

The checks of the bodies that are sent to the routes. The body of a request is checked before
anything else is looked at.
-/
namespace NodeWorkflow.Shell
open Service Check

def checkCompile : Check CompileRequest := record fun fields here => do
  let ((workflow, uiTypes), (zeroIndexOutputs, normalize)) ← both
    (both (required fields here "workflow" object)
      (optional fields here "ui_types" (nullable (listOf text)) none))
    (both (optional fields here "zero_index_outputs" (nullable truth) none)
      (optional fields here "normalize" truth true))
  return ⟨workflow, uiTypes, zeroIndexOutputs, normalize⟩

def checkWorkflow : Check Json := record fun fields here => required fields here "workflow" any

def checkSpec : Check SpecRequest := record fun fields here => do
  let ((nodeType, primary, fallback), (type, conditions, description)) ← both
    (both (required fields here "node_type" text)
      (both (optional fields here "primary_path" (nullable text) none)
        (optional fields here "fallback_path" (nullable text) none)))
    (both (optional fields here "type" text "string")
      (both (optional fields here "when" (nullable (entriesOf text)) none)
        (optional fields here "description" text "")))
  return ⟨nodeType, primary, fallback, type, conditions, description⟩

def checkInject : Check InjectRequest := record fun fields here => do
  let ((workflow, values), parameters) ← both
    (both (required fields here "workflow" object) (required fields here "values" object))
    (required fields here "parameters" (entriesOf checkSpec))
  return ⟨workflow, values, parameters⟩

def checkPayload : Check Json := record fun fields here =>
  optional fields here "parameters" object (.obj [])

def notParsed : Response := refusal 400 (.str "There was an error parsing the body")

def readBody [Machine] {α : Type} (body : Option String) (check : Check α) : Except Response α :=
  let complaint (location : Location) (problem : Problem) : Response :=
    complaints [⟨location, problem, .null⟩]
  let text := body.getD ""
  if text.isEmpty then .error (complaint [.str "body"] .missing)
  else match (Json.Encoding.read? text).map (Json.readWithin Machine.textLevels) with
    | none | some (.error (.integerTooLong _)) | some (.error .tooDeep) => .error notParsed
    | some (.error (.invalid _ place)) =>
      .error (complaint [.str "body", .int place.offset] .notJson)
    | some (.ok v) => match check [.str "body"] v with
      | .error cs => .error (complaints cs)
      | .ok a => .ok a

end NodeWorkflow.Shell
