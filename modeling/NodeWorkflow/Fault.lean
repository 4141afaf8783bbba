import NodeWorkflow.Json.Display
import NodeWorkflow.Number.Numeral

/-!
# Faults

Why an operation stops. Each constructor is a cause; the wording is in `Fault.message?`.
-/
namespace NodeWorkflow

/-- Why a workflow is not shaped like one. -/
inductive ShapeFault where
  | notWorkflow
  | nodesNotList
  | badNode (data : Json)
  | slotsNotList (id : Json)
  | badSlot (data : Json)
  | badLink (data : Json)
  | linkLacks (field : String) (data : Json)
  | nodeNotObject (id : String)
  | classMissing (id : String)
  | inputsNotObject (id : String)

namespace ShapeFault

def message : ShapeFault → String
  | .notWorkflow => "Unsupported workflow format"
  | .nodesNotList => "Editor workflow must contain a list of nodes"
  | .badNode data => "Invalid editor node: " ++ data.quoted
  | .slotsNotList id => "Node " ++ id.text ++ " inputs must be a list"
  | .badSlot data => "Invalid input slot: " ++ data.quoted
  | .badLink data => "Invalid link record: " ++ data.quoted
  | .linkLacks field data =>
    "Link record missing field " ++ Text.quoted field ++ ": " ++ data.quoted
  | .nodeNotObject id => "Node " ++ id ++ " is not an object"
  | .classMissing id => "Node " ++ id ++ " is missing class_type property"
  | .inputsNotObject id => "Node " ++ id ++ " has invalid inputs (must be an object)"

def nodeId? : ShapeFault → Option String
  | .nodeNotObject id | .classMissing id | .inputsNotObject id => some id
  | _ => none

end ShapeFault

/-- Why a value is not accepted. -/
inductive ValueFault where
  | notNumber (value : Json)
  | notFinite (value : Json)
  | notNumeral (text : String)
  | unsupportedType (type : Json)
  | unknownCondition (kind : String)
  /-- An item where a pair of a key and a value is needed. -/
  | notPair (index size : Nat)

def ValueFault.message : ValueFault → String
  | .notNumber value => "Expected a number, got " ++ value.quoted
  | .notFinite value => "Expected a finite number, got " ++ value.quoted
  | .notNumeral text => "could not convert string to float: " ++ Text.quoted text
  | .unsupportedType type => "Unsupported parameter type: " ++ type.text
  | .unknownCondition kind => "Unknown predicate condition: " ++ kind
  | .notPair index size =>
    s!"dictionary update sequence element #{index} has length {size}; 2 is required"

/-- Why a text is not a path. -/
inductive PathFault where
  | noText
  | badSegment (segment path : String)
  | indexTooLong (digits : Nat)

def PathFault.message : PathFault → String
  | .noText => "Path must be a non-empty string"
  | .badSegment segment path =>
    "Invalid path segment " ++ Text.quoted segment ++ " in " ++ Text.quoted path
  | .indexTooLong digits => Number.tooLongMessage digits

inductive Fault where
  | shape (cause : ShapeFault)
  | value (cause : ValueFault)
  | path (cause : PathFault)
  /-- A list would have to grow beyond any addressable length. -/
  | listTooLong
  /-- A list would have to grow beyond any memory. -/
  | outOfMemory
  /-- An object lacks a key that it must have. -/
  | keyMissing (key : String)
  /-- A list or an object stands where a key is needed. -/
  | keyNotScalar
  /-- A value that has no items is gone through, or a value without fields is indexed by name. -/
  | notIndexable
  /-- Values that have no common order are sorted. -/
  | notOrdered
  /-- A value that is no object is asked for a field. -/
  | notObject
  /-- A position before the start of a list. -/
  | positionOutside
  | templateUnknown (name : Json)
  /-- A text nests deeper than it may. -/
  | tooDeep

/-- The wording of a fault, where it has one of its own. -/
def Fault.message? : Fault → Option String
  | .shape cause => some cause.message
  | .value cause => some cause.message
  | .path cause => some cause.message
  | .keyMissing key => some key
  | .templateUnknown name => some ("Workflow \"" ++ name.text ++ "\" not found in registry")
  | _ => none

end NodeWorkflow
