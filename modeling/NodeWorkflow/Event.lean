import NodeWorkflow.Fault

/-!
# Events

What an operation reports while it runs, in order. Some events are warnings that the caller is told
of as well.
-/
namespace NodeWorkflow

inductive Level where
  | debug
  | info
  | warning
  | error
  deriving DecidableEq

def Level.name : Level → String
  | .debug => "DEBUG"
  | .info => "INFO"
  | .warning => "WARNING"
  | .error => "ERROR"

inductive Event where
  /-- Nodes and links that a filter dropped, and the nodes that remain. -/
  | filtered (nodes links remaining : Nat)
  /-- A slot that was made from a widget took its value from the widget at its position. -/
  | positional (node widget value : Json)
  | unresolved (node type slot : Json)
  | compiled (editorNodes executionNodes : Nat)
  | classMissing (id : String) (node : Json)
  | parameterUnknown (name : Scalar)
  | parameterRejected (name : Scalar) (cause : ValueFault)
  | noTarget (name : Scalar) (type : Json)
  | applied (name : Scalar) (node : String)
  | notApplied (name : Scalar) (node : String)
  | summaryHead (label : String) (nodes : Nat)
  | summaryClass (type : Scalar) (ids : List String)
  | summaryIssue (issue : String)
  | summaryClean
  | directoryMissing (directory : String)
  | templateSkipped (file reason : String)
  | templatesLoaded (count : Nat) (directory : String)
  | requestRefused (cause : ShapeFault)

namespace Event

def level : Event → Level
  | .filtered .. | .positional .. | .compiled .. | .applied .. => .debug
  | .unresolved .. | .summaryHead .. | .summaryClass .. | .summaryClean
  | .templatesLoaded .. => .info
  | .parameterUnknown .. | .parameterRejected .. | .noTarget .. | .notApplied ..
  | .summaryIssue .. | .directoryMissing .. => .warning
  | .classMissing .. | .templateSkipped .. | .requestRefused .. => .error

def text : Event → String
  | .filtered nodes links remaining =>
    s!"Filtered {nodes} UI-only nodes and {links} links ({remaining} nodes remain)"
  | .positional node widget value =>
    s!"Node {node.text}: converted widget {widget.quoted} took positional value {value.quoted}"
  | .unresolved node type slot =>
    s!"Node {node.text} ({type.text}): input '{slot.text}' left unresolved"
  | .compiled before after =>
    s!"Compiled editor workflow: {before} nodes in, {after} execution nodes out"
  | .classMissing id node => s!"Node {id} is missing class_type property: {node.quoted}"
  | .parameterUnknown name => s!"No registry entry for parameter \"{name.text}\""
  | .parameterRejected name cause => s!"Parameter \"{name.text}\" rejected: {cause.message}"
  | .noTarget name type =>
    s!"No nodes found for parameter \"{name.text}\" with type \"{type.text}\""
  | .applied name node => s!"Applied parameter {name.quoted} to node {node}"
  | .notApplied name node => s!"Could not apply parameter \"{name.text}\" to node {node}"
  | .summaryHead label nodes => s!"{label}: {nodes} nodes"
  | .summaryClass type ids =>
    s!"  {type.text}: {ids.length} nodes (IDs: " ++ ", ".intercalate ids ++ ")"
  | .summaryIssue issue => s!"  {issue}"
  | .summaryClean => "  No common issues detected"
  | .directoryMissing directory => s!"Template directory {directory} does not exist"
  | .templateSkipped file reason => s!"Skipping template {file}: {reason}"
  | .templatesLoaded count directory => s!"Loaded {count} workflow templates from {directory}"
  | .requestRefused cause => s!"Structural error: {cause.message}"

def isWarning : Event → Bool
  | .unresolved .. | .parameterUnknown .. | .parameterRejected .. | .noTarget ..
  | .notApplied .. => true
  | _ => false

def warnings (events : List Event) : List String :=
  (events.filter isWarning).map text

end Event

/-- A result together with the events up to it. Events before a fault are kept. -/
structure Traced (α : Type) where
  events : List Event
  result : Except Fault α

namespace Traced
variable {α β : Type}

def ok (a : α) : Traced α := ⟨[], .ok a⟩

def fail (fault : Fault) : Traced α := ⟨[], .error fault⟩

def report (events : List Event) : Traced Unit := ⟨events, .ok ()⟩

def ofExcept (r : Except Fault α) : Traced α := ⟨[], r⟩

def bind (t : Traced α) (f : α → Traced β) : Traced β :=
  match t.result with
  | .error fault => ⟨t.events, .error fault⟩
  | .ok a =>
    let u := f a
    ⟨t.events ++ u.events, u.result⟩

instance : Monad Traced where
  pure := ok
  bind := bind

instance : MonadLift (Except Fault) Traced := ⟨ofExcept⟩

def warnings (t : Traced α) : List String := Event.warnings t.events

end Traced
end NodeWorkflow
