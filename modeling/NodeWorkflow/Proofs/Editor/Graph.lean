import NodeWorkflow.Editor.Graph
import NodeWorkflow.Proofs.Outcome
import NodeWorkflow.Proofs.Path.Places
import NodeWorkflow.Sharing.Drawn

/-!
# Where the data of a graph stands

The nodes and links of a graph that was read stand in the data at their numbers, and what they hold
stands there too.
-/
namespace NodeWorkflow

theorem Json.field?_of_field {data v : Json} {name : String} (h : data.field name = v)
    (hv : v.isNull = false) : data.field? name = some v := by
  unfold Json.field at h
  cases hfield : data.field? name with
  | some w => simpa [hfield] using h
  | none =>
    rw [hfield] at h
    rw [← h] at hv
    simp [Json.isNull] at hv

theorem Json.child?_of_field? {data v : Json} {name : String} (h : data.field? name = some v) :
    data.child? (.field (.str name)) = some v := by
  cases data with
  | obj es => exact h
  | _ => simp [Json.field?] at h

theorem Json.atPlace?_item {data x : Json} {name : String} {xs : List Json}
    (h : data.field? name = some (.list xs)) {i : Nat} (hx : xs[i]? = some x) :
    Json.atPlace? [.field (.str name), .item i] data = some x := by
  rw [Json.atPlace?_cons, Json.child?_of_field? h, Option.bind_some, Json.atPlace?_cons]
  simp [Json.child?, hx, Json.atPlace?]

namespace Editor

theorem Node.ofJson_eq_ok {data : Json} {node : Node} : Node.ofJson data = .ok node ↔
    data.field? "id" = some node.id ∧ node.type = (data.field "type").orElse (.str "") ∧
      (∃ inputs, (data.field "inputs").orElse (.list []) = .list inputs ∧
        inputs.mapM Slot.ofJson = .ok node.slots) ∧
      node.widgets = data.field "widgets_values" ∧ node.title = data.field "title" := by
  obtain ⟨id, type, slots, widgets, title⟩ := node
  unfold Node.ofJson
  cases data.field? "id" with
  | none => simp
  | some id' =>
    cases (data.field "inputs").orElse (.list []) with
    | list inputs =>
      simp only [Except.bind_eq_ok, pure, Except.pure, Except.ok.injEq, Node.mk.injEq]
      constructor
      · rintro ⟨slots', hslots, rfl, rfl, rfl, rfl, rfl⟩
        exact ⟨rfl, rfl, ⟨inputs, rfl, hslots⟩, rfl, rfl⟩
      · rintro ⟨hid, htype, ⟨inputs', heq, hslots⟩, hwidgets, htitle⟩
        obtain rfl := Json.list.inj heq
        exact ⟨slots, hslots, Option.some.inj hid, htype.symm, rfl, hwidgets.symm, htitle.symm⟩
    | _ => simp

/-- A link is read from an object with an output or from a list with one. -/
theorem Link.ofJson_eq_ok {data : Json} {link : Link} (h : Link.ofJson data = .ok link) :
    (∃ es output, data = .obj es ∧ data.field? "origin_slot" = some output) ∨
      ∃ xs output, data = .list xs ∧ xs[2]? = some output := by
  unfold Link.ofJson at h
  split at h
  next es =>
    obtain ⟨id, -, h⟩ := Except.bind_eq_ok.mp h
    obtain ⟨sourceNode, -, h⟩ := Except.bind_eq_ok.mp h
    obtain ⟨output, houtput, -⟩ := Except.bind_eq_ok.mp h
    refine .inl ⟨es, output, rfl, ?_⟩
    unfold Link.required at houtput
    split at houtput
    next v hv => rw [hv, Except.ok.inj houtput]
    next => simp at houtput
  next => exact .inr ⟨_, _, rfl, rfl⟩
  next => simp at h

namespace Graph

variable {data : Json} {graph : Graph}

theorem ofJson_eq_ok (h : Graph.ofJson data = .ok graph) :
    ∃ nodes links, data.field "nodes" = .list nodes ∧ nodes.mapM Node.ofJson = .ok graph.nodes ∧
      (links = [] ∨ (data.field "links").items = .ok links) ∧
      links.mapM Link.ofJson = .ok graph.links := by
  unfold Graph.ofJson at h
  dsimp only at h
  split at h
  · obtain ⟨_, hthrow, -⟩ := Except.bind_eq_ok.mp h
    simp [throw, throwThe, MonadExceptOf.throw] at hthrow
  split at h
  next nodes hnodes =>
    obtain ⟨nodes', hnodes', h⟩ := Except.bind_eq_ok.mp h
    split at h
    · obtain ⟨links, hlinks, h⟩ := Except.bind_eq_ok.mp h
      obtain ⟨links', hlinks', h⟩ := Except.bind_eq_ok.mp h
      rw [← Except.ok.inj h]
      exact ⟨nodes, links, hnodes, hnodes', .inr hlinks, hlinks'⟩
    · obtain ⟨links, hlinks, h⟩ := Except.bind_eq_ok.mp h
      obtain ⟨links', hlinks', h⟩ := Except.bind_eq_ok.mp h
      rw [← Except.ok.inj h]
      exact ⟨nodes, links, hnodes, hnodes', .inl (Except.ok.inj hlinks).symm, hlinks'⟩
  next => simp [throw, throwThe, MonadExceptOf.throw] at h

theorem atPlace?_node (h : Graph.ofJson data = .ok graph) {i : Nat} {node : Node}
    (hnode : graph.nodes[i]? = some node) :
    ∃ x, Json.atPlace? [.field (.str "nodes"), .item i] data = some x ∧ Node.ofJson x = .ok node := by
  obtain ⟨nodes, links, hnodes, hread, -⟩ := ofJson_eq_ok h
  obtain ⟨x, hx, hnode⟩ := Except.getElem?_mapM hread hnode
  exact ⟨x, Json.atPlace?_item (Json.field?_of_field hnodes rfl) hx, hnode⟩

/-- The data of a link. Links that there are stand in a list. -/
theorem atPlace?_link (h : Graph.ofJson data = .ok graph) {j : Nat} {link : Link}
    (hlink : graph.links[j]? = some link) :
    ∃ x, Json.atPlace? [.field (.str "links"), .item j] data = some x ∧ Link.ofJson x = .ok link := by
  obtain ⟨nodes, links, -, -, hitems, hread⟩ := ofJson_eq_ok h
  obtain ⟨x, hx, hlink⟩ := Except.getElem?_mapM hread hlink
  have hscalar (a : Scalar) : x ≠ .scalar a := by
    rintro rfl
    simp [Link.ofJson] at hlink
  rcases hitems with rfl | hitems
  · simp at hx
  have hmem := List.mem_of_getElem? hx
  cases hvalue : data.field "links" with
  | list xs =>
    rw [hvalue] at hitems
    obtain rfl : xs = links := Except.ok.inj hitems
    exact ⟨x, Json.atPlace?_item (Json.field?_of_field hvalue rfl) hx, hlink⟩
  | obj es =>
    rw [hvalue] at hitems
    obtain rfl := Except.ok.inj hitems
    obtain ⟨e, -, rfl⟩ := List.mem_map.mp hmem
    exact absurd rfl (hscalar _)
  | scalar a =>
    rw [hvalue] at hitems
    cases a with
    | str s =>
      obtain rfl := Except.ok.inj hitems
      obtain ⟨p, -, rfl⟩ := List.mem_map.mp hmem
      exact absurd rfl (hscalar _)
    | _ => simp [Json.items] at hitems

end Graph
end Editor

open Editor Compile

theorem Compile.atPlace?_output {data : Json} {graph : Graph} (h : Graph.ofJson data = .ok graph)
    {j : Nat} {link : Link} (hlink : graph.links[j]? = some link) :
    ∃ output, Json.atPlace? [.field (.str "links"), .item j, outputStep data j] data =
      some output := by
  obtain ⟨x, hx, hread⟩ := Graph.atPlace?_link h hlink
  have hplace (step : Step) : Json.atPlace? [.field (.str "links"), .item j, step] data =
      (x.child? step).bind (Json.atPlace? []) := by
    rw [show [Step.field (.str "links"), .item j, step] = [.field (.str "links"), .item j] ++ [step]
      from rfl, Json.atPlace?_append, hx]
    rfl
  rcases Link.ofJson_eq_ok hread with ⟨es, output, rfl, houtput⟩ | ⟨xs, output, rfl, houtput⟩
  · have hstep : outputStep data j = .field (.str "origin_slot") := by rw [outputStep, hx]
    refine ⟨output, ?_⟩
    rw [hstep, hplace, Json.child?_of_field? houtput]
    rfl
  · have hstep : outputStep data j = .item 2 := by rw [outputStep, hx]
    refine ⟨output, ?_⟩
    rw [hstep, hplace, Json.child?, houtput]
    rfl

end NodeWorkflow
