import NodeWorkflow.Event
import NodeWorkflow.Path.Access
import NodeWorkflow.Parameter.Coercion

/-!
# Injection of parameters

Named values are written into a graph without knowledge of its ids: each goes to all nodes that its
specification selects. What cannot be written is reported and does not keep the rest from being
written; only a fault on the way stops an injection.

The graph is reached through a surface, so that the same injection serves a graph on its own and a
graph that shares parts with others.
-/
namespace NodeWorkflow

/-- A state that shows a graph and takes writes into its nodes. -/
structure Surface (σ : Type) where
  graph : σ → Json
  /-- Writes into the node with an id, at a path from that node. -/
  write : σ → Scalar → Path → Json → σ × WriteOutcome

namespace Surface

def writeNode [Machine] (graph : Json) (id : Scalar) (path : Path) (value : Json) :
    Json × WriteOutcome :=
  match graph with
  | .obj nodes => match Entries.get? id nodes with
    | none => (graph, .refused)
    | some node =>
      let (node, outcome) := Json.writeAt value path node
      (.obj (Entries.put id node nodes), outcome)
  | _ => (graph, .refused)

def plain [Machine] : Surface Json := ⟨fun graph => graph, writeNode⟩

variable {σ : Type}

/-- Writes at a path given as data. One that is no path is refused, unless its index is too long to
be read. -/
def writeData (surface : Surface σ) (s : σ) (id : Scalar) (path value : Json) :
    σ × WriteOutcome :=
  match Path.ofJson path with
  | .ok p => surface.write s id p value
  | .error (.indexTooLong digits) => (s, .stopped (.path (.indexTooLong digits)))
  | .error _ => (s, .refused)

def writeIfGiven (surface : Surface σ) (s : σ) (id : Scalar) (path value : Json) :
    σ × WriteOutcome :=
  if path.truthy then surface.writeData s id path value else (s, .refused)

end Surface

/-- An injection on its way: the state so far, what was reported, and the fault that stopped it. -/
structure Injection (σ : Type) where
  state : σ
  events : List Event
  fault : Option Fault

namespace Injection
variable {σ : Type}

def start (s : σ) : Injection σ := ⟨s, [], none⟩

def report (s : σ) (event : Event) : Injection σ := ⟨s, [event], none⟩

def andThen (i : Injection σ) (f : σ → Injection σ) : Injection σ :=
  match i.fault with
  | some _ => i
  | none =>
    let next := f i.state
    ⟨next.state, i.events ++ next.events, next.fault⟩

def warnings (i : Injection σ) : List String := Event.warnings i.events

end Injection

def findNodes (graph nodeType : Json) (conditions : Option (List Condition)) :
    Except Fault (List Scalar) :=
  match graph with
  | .obj nodes => do
    let found ← nodes.filterM fun e =>
      if e.2.isObj then ParameterSpec.selects nodeType conditions e.2 else pure false
    return found.map (·.1)
  | _ => .error .notObject

variable {σ : Type}

/-- Writes a value into one node, at the first path or else at the second. -/
def injectNode (surface : Surface σ) (name : Scalar) (spec : ParameterSpec) (value : Json)
    (s : σ) (id : Scalar) : Injection σ :=
  match surface.writeIfGiven s id spec.primaryPath value with
  | (s, .done) => .report s (.applied name id.text)
  | (s, .stopped fault) => ⟨s, [], some fault⟩
  | (s, .refused) => match surface.writeIfGiven s id spec.fallbackPath value with
    | (s, .done) => .report s (.applied name id.text)
    | (s, .stopped fault) => ⟨s, [], some fault⟩
    | (s, .refused) => .report s (.notApplied name id.text)

def injectNodes (surface : Surface σ) (name : Scalar) (spec : ParameterSpec) (value : Json)
    (ids : List Scalar) (s : σ) : Injection σ :=
  ids.foldl (fun i id => i.andThen fun s => injectNode surface name spec value s id) (.start s)

/-- Injects one parameter. A null value stands for none. -/
def injectOne (surface : Surface σ) (registry : Registry) (name : Scalar) (value : Json) (s : σ) :
    Injection σ :=
  if value.isNull then .start s
  else match Entries.get? name registry with
    | none => .report s (.parameterUnknown name)
    | some spec => match spec.type.coerce value with
      | .error cause => .report s (.parameterRejected name cause)
      | .ok value => match findNodes (surface.graph s) spec.nodeType spec.conditions with
        | .error fault => ⟨s, [], some fault⟩
        | .ok [] => .report s (.noTarget name spec.nodeType)
        | .ok ids => injectNodes surface name spec value ids s

def injectAll (surface : Surface σ) (registry : Registry) (values : Entries Json) (s : σ) :
    Injection σ :=
  values.foldl (fun i e => i.andThen (injectOne surface registry e.1 e.2)) (.start s)

def inject (surface : Surface σ) (registry : Registry) (values : Json) (s : σ) : Injection σ :=
  match values with
  | .obj entries => injectAll surface registry entries s
  | _ => ⟨s, [], some .notObject⟩

def injectInto [Machine] (graph : Json) (registry : Registry) (values : Json) : Injection Json :=
  inject .plain registry values graph

end NodeWorkflow
