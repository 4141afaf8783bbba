import NodeWorkflow.Compile.Resolution

/-!
# Normalizers

A normalizer adjusts the inputs of a compiled node by the rules of its class. It gives the entries
to store over the inputs: most classes have names for widget positions, and a literal input is
replaced by the widget of its name. A class may also bring any rule of its own.
-/
namespace NodeWorkflow.Compile

inductive Normalizer where
  /-- Widgets feed the inputs named at their positions; null skips one. Linked inputs are kept
  unless `overwrite` is set. -/
  | byName (names : List Json) (overwrite : Bool)
  /-- Two clip names and a clip type by name; the type `dual` is out of date and becomes `flux`. -/
  | dualClip
  /-- Any function of the compiled node. What it gives is built anew. -/
  | custom (rule : Json → Except Fault (Entries Json))

namespace Normalizer

/-- The inputs of a node as an object; what counts as false stands for none. -/
def inputsOf (node : Json) : Except Fault (Entries Json) :=
  match (node.field "inputs").orElse (.obj []) with
  | .obj inputs => .ok inputs
  | _ => .error .notObject

def isLinked (node name : Json) : Except Fault Bool := do
  let inputs ← inputsOf node
  return ((Entries.get? (← name.key) inputs).getD .null).isReference

/-- Whether a widget value goes into the input with a name. -/
def feeds (overwrite : Bool) (node name v : Json) : Except Fault Bool :=
  if name.isNull || v.isNull || v.isReference then .ok false
  else if overwrite then .ok true
  else (isLinked node name).map (!·)

/-- The entries that widgets give to the inputs named at their positions, from `position` on. -/
def namedUpdates (overwrite : Bool) (node : Json) :
    Nat → List Json → List Json → Entries Source → Except Fault (Entries Source)
  | _, [], _, updates => .ok updates
  | _, _, [], updates => .ok updates
  | position, name :: names, v :: values, updates => do
    let updates ← if ← feeds overwrite node name v then
        pure (updates.put (← name.key) (.named position v))
      else pure updates
    namedUpdates overwrite node (position + 1) names values updates

def byNameUpdates (names : List Json) (overwrite : Bool) (node : Json) :
    Except Fault (Entries Source) :=
  match node.field "widgets_values" with
  | .list values => namedUpdates overwrite node 0 names values []
  | _ => .ok []

def dualClipNames : List Json := [.str "clip_name1", .str "clip_name2", .str "type"]

def dualClipUpdates (node : Json) : Except Fault (Entries Source) := do
  let updates ← byNameUpdates dualClipNames false node
  let inputs ← inputsOf node
  let type := match updates.get? (.str "type") with
    | some source => source.value
    | none => (Entries.get? (.str "type") inputs).getD .null
  return if type.same (.str "dual") then updates.put (.str "type") (.prescribed (.str "flux"))
    else updates

def updates (normalizer : Normalizer) (node : Json) : Except Fault (Entries Source) :=
  if !node.isObj then .error .notObject
  else match normalizer with
    | .byName names overwrite => byNameUpdates names overwrite node
    | .dualClip => dualClipUpdates node
    | .custom rule => (rule node).map fun given => given.map fun e => (e.1, .prescribed e.2)

def standard : List (String × Normalizer) :=
  [("SaveImage", .byName [.str "filename_prefix"] true),
    ("CLIPTextEncode", .byName [.str "text"] false),
    ("EmptyLatentImage", .byName [.str "width", .str "height", .str "batch_size"] false),
    ("KSampler", .byName [.str "seed", .null, .str "steps", .str "cfg", .str "sampler_name",
      .str "scheduler", .str "denoise"] false),
    ("DualCLIPLoader", .dualClip)]

end Normalizer
end NodeWorkflow.Compile
