import NodeWorkflow.Service.Request
import NodeWorkflow.Text.Half

/-!
# The framework around the service

The service is run by a framework that it does not contain: it calls a route for a request, checks
what the route gives against the type that is declared for it, and writes the response. A theorem
about responses is about every framework that keeps to its documentation.
-/
namespace NodeWorkflow.Service

/-- A type that is declared for what a route gives. -/
inductive Schema where
  | any
  | text
  | truth
  | integer
  | list (item : Schema)
  /-- An object under whose keys values of one type stand. -/
  | object (value : Schema)
  | record (fields : List (String × Schema))

namespace Schema

def workflow : Schema := .record [("workflow", .object .any), ("warnings", .list .text)]

def validity : Schema := .record [("valid", .truth), ("errors", .list .text)]

def summary : Schema :=
  .record [("node_count", .integer), ("nodes_by_type", .object (.list .text)),
    ("issues", .list .text)]

def listing : Schema :=
  .record [("name", .text), ("description", .text), ("parameters", .object (.object .any))]

def payload : Schema :=
  .record [("timestamp", .integer), ("payload", .object .any), ("warnings", .list .text)]

end Schema

/-- The type that is declared for what a route gives. -/
def Route.schema : Route → Schema
  | .compile | .inject => .workflow
  | .validate => .validity
  | .summary => .summary
  | .templates => .list .listing
  | .template _ => .listing
  | .payload _ => .payload

inductive Body where
  | json (v : Json)
  | text (s : String)

structure Response where
  status : Nat
  body : Body
  /-- The address that the caller is sent on to. -/
  location : Option String := none

def Response.ok (v : Json) : Response := ⟨200, .json v, none⟩

/-- How a call of a route ends. -/
inductive Outcome where
  | returned (v : Json)
  | refused (status : Nat) (detail : Json)
  /-- An exception that the route lets through. -/
  | failed

structure Framework where
  /-- The call that a request becomes, or the response to one that becomes none. -/
  receive : Request → Except Response Invocation
  /-- What data of a type is sent as; `none` if it is not of the type or cannot be sent. -/
  present : Schema → Json → Option Json
  /-- Whether the detail of a refusal can be sent. -/
  renders : Json → Bool
  respond : Schema → Outcome → Response

/-- The framework does what its documentation says. -/
structure Framework.Documented (F : Framework) : Prop where
  /-- A name in a path is one step of it, which is not empty. -/
  receive_template : ∀ {request name}, F.receive request = .ok (.template name) ↔
    request.method = "GET" ∧ request.steps = ["", "api", "templates", name] ∧ name ≠ ""
  receive_templates : ∀ body, F.receive ⟨"GET", ["", "api", "templates"], body⟩ = .ok .templates
  length_steps : ∀ {request}, F.receive request = .ok .templates → request.steps.length = 3
  method_eq : ∀ {request call}, F.receive request = .ok call → request.method = call.route.method
  /-- Below the routes of the service there are no others to get anything from. -/
  status_error : ∀ {request response}, F.receive request = .error response →
    request.method = "GET" → ["", "api"] <+: request.steps → response.status ≠ 200
  /-- Texts are sent in UTF-8, which has no halves of surrogate pairs. -/
  present_text : ∀ s, F.present .text (.str s) = if Text.isWhole s then some (.str s) else none
  present_not_text : ∀ {v}, (∀ s, v ≠ .str s) → F.present .text v = none
  present_list : ∀ item xs,
    F.present (.list item) (.list xs) = (xs.mapM (F.present item)).map .list
  present_record : ∀ fields : List (String × Schema × Json), (fields.map Prod.fst).Nodup →
    F.present (.record (fields.map fun f => (f.1, f.2.1)))
      (.ofFields (fields.map fun f => (f.1, f.2.2))) =
    (fields.mapM fun f => (F.present f.2.1 f.2.2).map fun shown => (f.1, shown)).map .ofFields
  renders_text : ∀ s, F.renders (.str s) = Text.isWhole s
  renders_null : F.renders .null = true
  renders_fields : ∀ fields : List (String × Json), (∀ f ∈ fields, Text.isWhole f.1) →
    F.renders (.ofFields fields) = fields.all fun f => F.renders f.2
  respond_returned : ∀ {schema v shown}, F.present schema v = some shown →
    F.respond schema (.returned v) = .ok shown
  respond_invalid : ∀ {schema v}, F.present schema v = none →
    (F.respond schema (.returned v)).status = 500
  respond_refused : ∀ {schema status detail}, F.renders detail = true →
    F.respond schema (.refused status detail) =
      ⟨status, .json (.ofFields [("detail", detail)]), none⟩
  respond_unrendered : ∀ {schema status detail}, F.renders detail = false →
    (F.respond schema (.refused status detail)).status = 500
  respond_failed : ∀ schema, (F.respond schema .failed).status = 500

end NodeWorkflow.Service
