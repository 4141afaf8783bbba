import NodeWorkflow.Editor.Filter
import NodeWorkflow.Json.Order
import NodeWorkflow.Reference

/-!
# Resolution of slots

A slot takes its value from the link that feeds it. Failing that it takes the widget value at its
own position, unless that is null or looks like a reference; and failing that too it stays
unresolved, which is reported. The result says for each input where its value comes from.
-/
namespace NodeWorkflow.Compile
open Editor

/-- Where the value of an input comes from. -/
inductive Source where
  /-- The output of another node, through a link. -/
  | link (record : Link) (output : Json)
  /-- The widget value at the position of the slot. -/
  | widget (position : Nat) (v : Json)
  /-- The widget value at the position that the class of the node gives to the input. -/
  | named (position : Nat) (v : Json)
  /-- A value that the class of the node prescribes. -/
  | prescribed (v : Json)

def Source.value : Source → Json
  | .link record output => .list [.str record.sourceNode.text, output]
  | .widget _ v | .named _ v | .prescribed v => v

def inputValues (inputs : Entries Source) : Entries Json :=
  inputs.map fun e => (e.1, e.2.value)

/-- The source of a slot through its link: the link must be known and its source node survive. With
`zeroIndex` every output counts as the first. -/
def throughLink (links : Entries Link) (surviving : List Scalar) (zeroIndex : Bool) (slot : Slot) :
    Except Fault (Option Source) :=
  if slot.link.isNull then .ok none
  else do
    let id ← slot.link.key
    match Entries.get? id links with
    | none => return none
    | some record =>
      if ← isAmong record.sourceNode surviving then
        return some (.link record (if zeroIndex then .int 0 else record.sourceOutput))
      else return none

/-- The widget value at a position, null if there is none that an input can take. -/
def widgetAt (widgets : Json) (position : Nat) : Json :=
  match widgets with
  | .list values =>
    let v := values[position]?.getD .null
    if v.isReference then .null else v
  | _ => .null

/-- The widget value at a position that may be counted from the end. -/
def widgetFromEnd (widgets : Json) (position : Int) : Except Fault Json :=
  if 0 ≤ position then .ok (widgetAt widgets position.toNat)
  else match widgets with
    | .list values =>
      let index := position + values.length
      if index < 0 then .error .positionOutside else .ok (widgetAt widgets index.toNat)
    | _ => .ok .null

/-- The widget value at a position given as data: an integer, or a number beyond all widgets. -/
def widgetAtData (widgets position : Json) : Except Fault Json :=
  match widgets, position with
  | .list values, .scalar a => match a.int? with
    | some p => widgetFromEnd widgets p
    | none => if a.reaches values.length then .ok .null else .error .notIndexable
  | .list _, _ => .error .notIndexable
  | _, _ => .ok .null

def slotSource (links : Entries Link) (surviving : List Scalar) (zeroIndex : Bool) (widgets : Json)
    (position : Nat) (slot : Slot) : Except Fault (Option Source) := do
  match ← throughLink links surviving zeroIndex slot with
  | some source => return some source
  | none =>
    let v := widgetAt widgets position
    return if v.isNull then none else some (.widget position v)

def slotEvents (node : Node) (slot : Slot) : Option Source → List Event
  | none => [.unresolved node.id node.type slot.name]
  | some (.widget _ v) =>
    if slot.widget.isNull then [] else [.positional node.id slot.widget v]
  | some _ => []

/-- Stores a source under the name of a slot. The name must be a scalar if there is a source. -/
def storeSource (inputs : Entries Source) (slot : Slot) :
    Option Source → Except Fault (Entries Source)
  | none => .ok inputs
  | some source => slot.name.key.map fun name => inputs.put name source

def resolveSlots (links : Entries Link) (surviving : List Scalar) (zeroIndex : Bool) (node : Node) :
    Nat → List Slot → Entries Source → Traced (Entries Source)
  | _, [], inputs => .ok inputs
  | position, slot :: slots, inputs => do
    let source ← slotSource links surviving zeroIndex node.widgets position slot
    Traced.report (slotEvents node slot source)
    let inputs ← storeSource inputs slot source
    resolveSlots links surviving zeroIndex node (position + 1) slots inputs

/-- Resolves all slots of a node. Of slots with one name the last that is resolved counts. -/
def resolveInputs (links : Entries Link) (surviving : List Scalar) (zeroIndex : Bool)
    (node : Node) : Traced (Entries Source) :=
  resolveSlots links surviving zeroIndex node 0 node.slots []

/-- Resolves all slots of a node by a list of links. Of links with one id the last counts. -/
def resolveAmong (links : List Link) (surviving : List Scalar) (zeroIndex : Bool) (node : Node) :
    Traced (Entries Source) := do
  let index ← Graph.linksById ⟨[], links⟩
  resolveInputs index surviving zeroIndex node

end NodeWorkflow.Compile
