import NodeWorkflow.Proofs.Compile.Depth
import NodeWorkflow.Proofs.Editor.Graph

/-!
# Editor graphs as data and back

A graph that was read is written as data that is read as the same graph. Slots and links come back
whatever they hold. A node comes back if its type counts as true or is empty, which is so of every
node that was read. So it makes no difference to a compilation in which of its spellings a graph is
given.
-/
namespace NodeWorkflow

namespace Except

theorem mapM_map_eq_ok {ε α β : Type} {read : β → Except ε α} {write : α → β} {xs : List α}
    (h : ∀ x ∈ xs, read (write x) = .ok x) : (xs.map write).mapM read = .ok xs := by
  rw [mapM_eq_ok, List.map_map]
  exact List.map_congr_left h

end Except

namespace Editor

variable {data : Json}

theorem Slot.ofJson_toJson (slot : Slot) : Slot.ofJson slot.toJson = .ok slot := by
  obtain ⟨name, link, widget⟩ := slot
  by_cases hnull : widget.isNull
  · obtain rfl := Json.isNull_iff.mp hnull
    rfl
  · -- The name of a widget is written in an object, whatever it is itself.
    simp [ofJson, toJson, hnull, Json.ofFields, Json.field, Json.field?, Entries.get?_cons,
      Json.isObj]

theorem Link.ofJson_toJson (link : Link) : Link.ofJson link.toJson = .ok link := rfl

namespace Node

/-- The type counts as true or is the empty text. -/
def IsTyped (node : Node) : Prop := node.type.orElse (.str "") = node.type

theorem isTyped_of_ofJson {node : Node} (h : ofJson data = .ok node) : node.IsTyped := by
  obtain ⟨-, htype, -⟩ := ofJson_eq_ok.mp h
  rw [IsTyped, htype]
  by_cases htruthy : (data.field "type").truthy
  · simp [Json.orElse, htruthy]
  · simp [Json.orElse, htruthy]

theorem field_toJson (node : Node) : node.toJson.field? "id" = some node.id ∧
    node.toJson.field "type" = node.type ∧
    node.toJson.field "inputs" = .list (node.slots.map Slot.toJson) ∧
    node.toJson.field "widgets_values" = node.widgets ∧ node.toJson.field "title" = node.title := by
  obtain ⟨id, type, slots, widgets, title⟩ := node
  refine ⟨rfl, rfl, rfl, ?_, ?_⟩
  all_goals by_cases hwidgets : widgets.isNull <;> by_cases htitle : title.isNull
  all_goals simp [toJson, optionalField, hwidgets, htitle, Json.ofFields, Json.field, Json.field?,
    Entries.get?_cons]
  all_goals simp_all [Json.isNull_iff]

theorem ofJson_toJson {node : Node} (h : node.IsTyped) : ofJson node.toJson = .ok node := by
  obtain ⟨hid, htype, hinputs, hwidgets, htitle⟩ := field_toJson node
  rw [ofJson_eq_ok, htype, hinputs, hwidgets, htitle]
  refine ⟨hid, h.symm, ⟨node.slots.map Slot.toJson, ?_, ?_⟩, rfl, rfl⟩
  · -- An empty list of slots counts as false, and stands for no slots again.
    cases node.slots <;> rfl
  · exact Except.mapM_map_eq_ok fun slot _ => slot.ofJson_toJson

end Node

namespace Graph

variable {graph : Graph}

def IsTyped (graph : Graph) : Prop := ∀ node ∈ graph.nodes, node.IsTyped

theorem isTyped_of_ofJson (h : ofJson data = .ok graph) : graph.IsTyped := by
  obtain ⟨nodes, links, -, hnodes, -⟩ := ofJson_eq_ok h
  intro node hnode
  obtain ⟨x, -, hx⟩ := (Except.mem_mapM hnodes).mp hnode
  exact Node.isTyped_of_ofJson hx

theorem ofJson_toJson (h : graph.IsTyped) : ofJson graph.toJson = .ok graph := by
  obtain ⟨nodes, links⟩ := graph
  have hnodes : (nodes.map Node.toJson).mapM Node.ofJson = .ok nodes :=
    Except.mapM_map_eq_ok fun node hnode => Node.ofJson_toJson (h node hnode)
  have hlinks : (links.map Link.toJson).mapM Link.ofJson = .ok links :=
    Except.mapM_map_eq_ok fun link _ => link.ofJson_toJson
  have hobj : (toJson ⟨nodes, links⟩).isObj := rfl
  have hnodes' : (toJson ⟨nodes, links⟩).field "nodes" = .list (nodes.map Node.toJson) := rfl
  have hlinks' : (toJson ⟨nodes, links⟩).field "links" = .list (links.map Link.toJson) := rfl
  simp only [ofJson, hobj, hnodes', hlinks', hnodes]
  cases links with
  | nil => rfl
  | cons link links =>
    change (do
      let read ← ((link :: links).map Link.toJson).mapM Link.ofJson
      return (⟨nodes, read⟩ : Graph)) = _
    rw [hlinks]
    rfl

/-- Data that is read as a graph looks like an editor graph. -/
theorem formatOf_of_ofJson (h : ofJson data = .ok graph) :
    Compile.formatOf data = .ok .editor := by
  obtain ⟨nodes, links, hnodes, -⟩ := ofJson_eq_ok h
  have hfield := Json.field?_of_field hnodes rfl
  cases data with
  | obj es => simp [Compile.formatOf, Json.isObj, hfield]
  | _ => simp [Json.field?] at hfield

end Graph
end Editor

open Editor Compile

/-- A graph that was read from data is read again from what it is written as, so that its
compilation is that of either: same result, same events, whatever the options. -/
theorem editor_graph_survives {data : Json} {graph : Graph} (h : Graph.ofJson data = .ok graph) :
    Graph.ofJson graph.toJson = .ok graph ∧ ∀ levels options,
      compileWithin levels options data = compileGraphWithin levels options graph ∧
      compileWithin levels options graph.toJson = compileGraphWithin levels options graph := by
  have hagain := Graph.ofJson_toJson (Graph.isTyped_of_ofJson h)
  refine ⟨hagain, fun levels options => ⟨?_, ?_⟩⟩
  · exact compileWithin_of_graph (Graph.formatOf_of_ofJson h) h levels options
  · exact compileWithin_of_graph (Graph.formatOf_of_ofJson hagain) hagain levels options

/-- Links of both forms, one with more items than needed, widgets named directly, in an object and
not at all, a type that is missing and one that is null. -/
theorem editor_graph_survives_in_mixed_spellings :
    let slot (name : String) (widget : Json) : Json :=
      .ofFields [("name", .str name), ("link", .int 3), ("widget", widget)]
    let data : Json := .ofFields [
      ("nodes", .list [
        .ofFields [("id", .int 1), ("type", .null), ("inputs", .list []), ("title", .str "t")],
        .ofFields [("id", .int 2), ("inputs", .list [slot "x" (.str "w"),
          slot "y" (.ofFields [("name", .str "w")]), slot "z" (.ofFields []), slot "u" .null]),
          ("widgets_values", .list [.int 5])]]),
      ("links", .list [
        .ofFields [("id", .int 3), ("origin_id", .int 1), ("origin_slot", .int 0),
          ("target_id", .int 2), ("target_slot", .int 0)],
        .list [.int 4, .int 1, .int 0, .int 2, .int 1],
        .list [.int 5, .int 1, .int 0, .int 2, .int 1, .str "T", .str "more"]])]
    let slots : List Slot := [⟨.str "x", .int 3, .str "w"⟩, ⟨.str "y", .int 3, .str "w"⟩,
      ⟨.str "z", .int 3, .null⟩, ⟨.str "u", .int 3, .null⟩]
    let graph : Graph := ⟨
      [⟨.int 1, .str "", [], .null, .str "t"⟩, ⟨.int 2, .str "", slots, .list [.int 5], .null⟩],
      [⟨.int 3, .int 1, .int 0, .int 2, .int 0, .null⟩,
        ⟨.int 4, .int 1, .int 0, .int 2, .int 1, .null⟩,
        ⟨.int 5, .int 1, .int 0, .int 2, .int 1, .str "T"⟩]⟩
    Graph.ofJson data = .ok graph ∧ Graph.ofJson graph.toJson = .ok graph ∧
      compileWithin 400 .plain data = compileWithin 400 .plain graph.toJson := by
  intro slot data slots graph
  have hread : Graph.ofJson data = .ok graph := rfl
  obtain ⟨hagain, hcompiled⟩ := editor_graph_survives hread
  obtain ⟨hdata, hwritten⟩ := hcompiled 400 .plain
  exact ⟨hread, hagain, hdata.trans hwritten.symm⟩

end NodeWorkflow
