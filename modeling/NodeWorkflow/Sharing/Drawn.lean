import NodeWorkflow.Compile.Workflow
import NodeWorkflow.Sharing.Workspace

/-!
# What a compiled graph shares

A compiled node copies the widget values of its editor node. The inputs that are resolved from
widgets by position, the outputs of links and the title are not copied but shared with the editor
graph, and an input that is fed by a named widget is shared with the copied widget values.
-/
namespace NodeWorkflow.Compile
open Editor

def lastIndex? {α : Type} (p : α → Bool) (xs : List α) : Option Nat :=
  (xs.zipIdx.reverse.find? fun e => p e.1).map (·.2)

/-- Whether a test holds; one that fails does not. -/
def holdsTrue : Except Fault Bool → Bool
  | .ok b => b
  | .error _ => false

def editorIndex? (options : Options) (graph : Graph) (id : Scalar) : Option Nat :=
  lastIndex? (fun node => Scalar.str node.id.text = id &&
    !holdsTrue (isAmong node.type options.uiTypes)) graph.nodes

def linkIndex? (surviving : List Scalar) (graph : Graph) (record : Link) : Option Nat :=
  lastIndex? (fun l => l.id.agrees record.id && holdsTrue (l.connects surviving)) graph.links

/-- The step to the output in a link of either form. -/
def outputStep (data : Json) (index : Nat) : Step :=
  match Json.atPlace? [.field (.str "links"), .item index] data with
  | some (.obj _) => .field (.str "origin_slot")
  | _ => .item 2

/-- A place of the editor graph or of the compiled graph itself, and a place of the compiled graph
that shares it. -/
inductive Drawing where
  | fromEditor (source target : Place)
  | fromCompiled (source target : Place)

def drawInput (options : Options) (surviving : List Scalar) (graph : Graph) (data : Json)
    (id : Scalar) (editorIndex : Nat) (name : Scalar) (source : Source) : List Drawing :=
  let input : Place := [.field id, .field (.str "inputs"), .field name]
  match source with
  | .widget position v =>
    if v.isContainer then
      [.fromEditor [.field (.str "nodes"), .item editorIndex, .field (.str "widgets_values"),
        .item position] input]
    else []
  | .named position v =>
    if v.isContainer then
      [.fromCompiled [.field id, .field (.str "widgets_values"), .item position] input]
    else []
  | .link record output =>
    if output.isContainer && !options.zeroIndex then
      match linkIndex? surviving graph record with
      | some i => [.fromEditor [.field (.str "links"), .item i, outputStep data i]
          (input ++ [.item 1])]
      | none => []
    else []
  | .prescribed _ => []

def drawNode (options : Options) (surviving : List Scalar) (graph : Graph) (data : Json)
    (id : Scalar) (node : ExecutionNode) : List Drawing :=
  match editorIndex? options graph id with
  | none => []
  | some i =>
    let title : List Drawing := if node.title.isContainer && node.title.truthy then
        [.fromEditor [.field (.str "nodes"), .item i, .field (.str "title")]
          [.field id, .field (.str "_meta"), .field (.str "title")]]
      else []
    title ++ node.inputs.flatMap fun e => drawInput options surviving graph data id i e.1 e.2

/-- What a compiled graph draws on. -/
def drawings (options : Options) (graph : Graph) (data : Json) (compiled : ExecutionGraph) :
    List Drawing :=
  match graph.survivors options.uiTypes with
  | .error _ => []
  | .ok filtered => match filtered.nodeIds with
    | .error _ => []
    | .ok surviving =>
      compiled.flatMap fun e => drawNode options surviving graph data e.1 e.2

end NodeWorkflow.Compile

namespace NodeWorkflow.Workspace
open Compile Editor

def draw (w : Workspace) (source target : Nat) : Drawing → Workspace
  | .fromEditor sourcePlace place => w.link source sourcePlace target place
  | .fromCompiled sourcePlace place => w.link target sourcePlace target place

def compileEditor (w : Workspace) (options : Options) (doc : Nat) : Workspace × Traced Nat :=
  let data := w.value doc
  let run : Traced (Graph × ExecutionGraph) := do
    let graph ← Graph.ofJson data
    return (graph, ← compileGraph options graph)
  match run.result with
  | .error fault => (w, ⟨run.events, .error fault⟩)
  | .ok (graph, compiled) =>
    let (w, target) := w.add (.own compiled.toJson)
    let w := (drawings options graph data compiled).foldl (fun w d => w.draw doc target d) w
    (w, ⟨run.events, .ok target⟩)

/-- Compiles the workflow in a document into a new one. A graph that is execution-shaped already is
copied. -/
def compile (w : Workspace) (options : Options) (doc : Nat) : Workspace × Traced Nat :=
  match formatOf (w.value doc) with
  | .error fault => (w, .fail fault)
  | .ok .editor => w.compileEditor options doc
  | .ok .execution =>
    let run := passThrough (w.value doc)
    match run.result with
    | .error fault => (w, ⟨run.events, .error fault⟩)
    | .ok v =>
      let (w, target) := w.add (.own v)
      (w, ⟨run.events, .ok target⟩)

end NodeWorkflow.Workspace
