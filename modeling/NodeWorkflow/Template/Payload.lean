import NodeWorkflow.Template.Catalogue

/-!
# Job payloads

A payload is what a job is submitted with: the graph of a template with its parameters, under a
client id that names the template and the time. The time may be any data that stands for one.
-/
namespace NodeWorkflow

structure Payload where
  /-- The document of the graph. -/
  document : Nat
  timestamp : Json
  clientId : String

namespace Payload

/-- The name of the parameter that says how files are called. -/
def prefixName : Scalar := .str "filename_prefix"

/-- The parameters with the time in the name of the files. -/
def stamped (timestamp : Json) (parameters : Entries Json) : Entries Json :=
  let given := (Entries.get? prefixName parameters).getD .null
  let stem := if given.truthy then given.text else "output"
  parameters.put prefixName (.str s!"{stem}_{timestamp.text}")

def toJson (payload : Payload) (graph : Json) : Json :=
  .ofFields [("prompt", graph), ("client_id", .str payload.clientId)]

/-- Builds the payload of a template: compiles it and injects the parameters into the result. -/
def build [Machine] (c : Catalogue) (listing : Listing) (parameters : Json)
    (options : Compile.Options)
    (timestamp : Json) : Catalogue × Traced Payload :=
  match parameters.entries with
  | .error fault => (c, .fail fault)
  | .ok entries =>
    let (c, compiled) := c.compile options listing.document
    match compiled.result with
    | .error fault => (c, ⟨compiled.events, .error fault⟩)
    | .ok doc =>
      let (c, run) := c.inject doc listing.parameters (.obj (stamped timestamp entries))
      let payload : Payload := ⟨doc, timestamp,
        s!"workflow-{listing.name.text}-{timestamp.text}"⟩
      (c, ⟨compiled.events ++ run.events, run.result.map fun _ => payload⟩)

end Payload
end NodeWorkflow
