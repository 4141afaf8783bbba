import NodeWorkflow.Compile.Depth
import NodeWorkflow.Service.Framework
import NodeWorkflow.Settings
import NodeWorkflow.Summary
import NodeWorkflow.Template.Payload

/-!
# The service

What the routes of the service do. A workflow that is not shaped like one is refused with the
reason; any other fault is a failure of the service.
-/
namespace NodeWorkflow.Service

structure Server where
  settings : Settings
  catalogue : Catalogue
  /-- The time in whole seconds; `none` if the clock shows no time. -/
  now : Option Int

/-- The end of a call and what was reported on the way to it. -/
structure Answer where
  outcome : Outcome
  events : List Event

namespace Answer

def ofFault (events : List Event) : Fault → Answer
  | .shape cause => ⟨.refused 422 (.ofFields [("message", .str cause.message),
      ("node_id", textOrNull cause.nodeId?)]), events ++ [.requestRefused cause]⟩
  | _ => ⟨.failed, events⟩

def ofTraced {α : Type} (run : Traced α) (data : α → Json) : Answer :=
  match run.result with
  | .ok a => ⟨.returned (data a), run.events⟩
  | .error fault => ofFault run.events fault

def ofExcept {α : Type} (result : Except Fault α) (data : α → Json) : Answer :=
  match result with
  | .ok a => ⟨.returned (data a), []⟩
  | .error _ => ⟨.failed, []⟩

end Answer

def texts (xs : List String) : Json := .list (xs.map .str)

def workflowData (workflow : Json) (warnings : List String) : Json :=
  .ofFields [("workflow", workflow), ("warnings", texts warnings)]

def compileOptions (settings : Settings) (request : CompileRequest) : Compile.Options :=
  let standard := settings.compileOptions
  { uiTypes := match request.uiTypes with
      | some types => types.map .str
      | none => standard.uiTypes
    normalizers := if request.normalize then standard.normalizers else []
    zeroIndex := request.zeroIndexOutputs.getD standard.zeroIndex }

def compile [Machine] (settings : Settings) (request : CompileRequest) : Answer :=
  let options := compileOptions settings request
  let run := Compile.compileWithin Machine.copyLevels options request.workflow
  Answer.ofTraced run fun workflow => workflowData workflow run.warnings

def validate (workflow : Json) : Answer :=
  ⟨.returned (.ofFields [("valid", .bool (Validation.isValid workflow)),
    ("errors", texts (Validation.errors workflow))]), []⟩

def summaryData (summary : Summary) : Json :=
  .ofFields [("node_count", .int summary.nodeCount),
    ("nodes_by_type", .obj (summary.nodesByType.map fun g => (g.1, texts g.2))),
    ("issues", texts summary.issues)]

def summary (workflow : Json) : Answer :=
  Answer.ofExcept (Summary.ofWorkflow workflow) summaryData

def inject [Machine] (request : InjectRequest) : Answer :=
  match Registry.ofJson (.obj (request.parameters.map fun e => (e.1, e.2.toJson))) with
  | .error (.value cause) => ⟨.refused 422 (.str cause.message), []⟩
  | .error _ => ⟨.failed, []⟩
  | .ok registry =>
    let run := injectInto request.workflow registry request.values
    match run.fault with
    | some _ => ⟨.failed, run.events⟩
    | none => ⟨.returned (workflowData run.state run.warnings), run.events⟩

def specData (spec : ParameterSpec) : Json :=
  .ofFields [("type", .str spec.type.name), ("node_type", spec.nodeType),
    ("primary_path", spec.primaryPath), ("fallback_path", spec.fallbackPath),
    ("description", spec.description)]

def parameterData (parameters : Registry) : Json :=
  .obj (parameters.map fun e => (e.1, specData e.2))

def listingData (listing : Listing) : Json :=
  .ofFields [("name", .scalar listing.name), ("description", listing.description),
    ("parameters", parameterData listing.parameters)]

def templates (c : Catalogue) : Answer :=
  Answer.ofExcept c.all fun listings => .list (listings.map listingData)

/-- What is done with a template, if there is one of the name. -/
def withListing {α : Type} (c : Catalogue) (name : String) (refuse : Answer → α)
    (go : Listing → α) : α :=
  match c.get (.str name) with
  | .ok listing => go listing
  | .error fault => refuse ⟨.refused 404 (textOrNull fault.message?), []⟩

def template (c : Catalogue) (name : String) : Answer :=
  withListing c name id fun listing => ⟨.returned (listingData listing), []⟩

def payloadData (payload : Payload) (graph : Json) (warnings : List String) : Json :=
  .ofFields [("timestamp", payload.timestamp), ("payload", payload.toJson graph),
    ("warnings", texts warnings)]

def payload [Machine] (server : Server) (name : String) (parameters : Json) : Server × Answer :=
  withListing server.catalogue name (fun refused => (server, refused)) fun listing =>
    match server.now with
    | none => (server, ⟨.failed, []⟩)
    | some now =>
      let (c, run) := Payload.build server.catalogue listing parameters
        server.settings.compileOptions (.int now)
      ({ server with catalogue := c }, Answer.ofTraced run fun payload =>
        payloadData payload (c.workspace.value payload.document) run.warnings)

def invoke [Machine] (server : Server) : Invocation → Server × Answer
  | .compile request => (server, compile server.settings request)
  | .validate workflow => (server, validate workflow)
  | .inject request => (server, inject request)
  | .summary workflow => (server, summary workflow)
  | .templates => (server, templates server.catalogue)
  | .template name => (server, template server.catalogue name)
  | .payload name parameters => payload server name parameters

/-- A response and what was reported on the way to it. -/
structure Reply where
  response : Response
  events : List Event

def handle [Machine] (F : Framework) (server : Server) (request : Request) : Server × Reply :=
  match F.receive request with
  | .error response => (server, ⟨response, []⟩)
  | .ok call =>
    let (server, answer) := invoke server call
    (server, ⟨F.respond call.route.schema answer.outcome, answer.events⟩)

end NodeWorkflow.Service
