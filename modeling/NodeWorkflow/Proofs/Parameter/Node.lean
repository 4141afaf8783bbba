import NodeWorkflow.Parameter.Injection
import NodeWorkflow.Proofs.Outcome
import NodeWorkflow.Proofs.Path.Write

/-!
# Writes into nodes

The laws of writes, for a path that starts at the graph: its first step is the id of a node. A node
whose class equals nothing is never found, and it stays so when something is put apart from its
class.
-/
namespace NodeWorkflow.Surface
open Json

variable {graph node value content : Json} {nodes : Entries Json} {id : Scalar} {path : Path}
  {place : Place}

theorem exists_node (h : atPlace? (.field id :: place) graph = some content) :
    ∃ nodes node, graph = .obj nodes ∧ Entries.get? id nodes = some node := by
  rw [atPlace?_cons] at h
  obtain ⟨node, hnode, -⟩ := Option.bind_eq_some_iff.mp h
  cases graph with
  | obj nodes => exact ⟨nodes, node, rfl, hnode⟩
  | _ => simp [child?] at hnode

theorem atPlace?_node (hnode : Entries.get? id nodes = some node) (place : Place) :
    atPlace? (.field id :: place) (.obj nodes) = atPlace? place node := by
  rw [atPlace?_cons, child?, hnode, Option.bind_some]

variable [Machine]

theorem writeNode_of_node (hnode : Entries.get? id nodes = some node) (path : Path) (value : Json) :
    writeNode (.obj nodes) id path value =
      (.obj (Entries.put id (writeAt value path node).1 nodes), (writeAt value path node).2) := by
  rw [writeNode, hnode]

/-- A node has the id, or every write is refused. -/
theorem writeNode_cases (graph : Json) (id : Scalar) :
    (∃ nodes node, graph = .obj nodes ∧ Entries.get? id nodes = some node) ∨
      ∀ path value, writeNode graph id path value = (graph, .refused) := by
  cases graph with
  | obj nodes => cases hget : Entries.get? id nodes with
    | some node => exact .inl ⟨nodes, node, rfl, hget⟩
    | none => exact .inr fun path value => by rw [writeNode, hget]
  | scalar a => exact .inr fun path value => rfl
  | list xs => exact .inr fun path value => rfl

theorem atPlace?_writeNode (h : (writeNode graph id path value).2 = .done) :
    atPlace? (.field id :: path.steps) (writeNode graph id path value).1 = some value := by
  rcases writeNode_cases graph id with ⟨nodes, node, rfl, hnode⟩ | hrefused
  · rw [writeNode_of_node hnode] at h ⊢
    have hid := Entries.agrees_of_get? hnode
    rw [atPlace?_node (by rw [Entries.get?_put, if_pos hid])]
    exact atPlace?_writeAt h
  · simp [hrefused] at h

theorem atPlace?_writeNode_apart (htexts : Texts place)
    (hapart : Apart (.field id :: path.steps) place) (h : atPlace? place graph = some content)
    (value : Json) : atPlace? place (writeNode graph id path value).1 = some content := by
  rcases writeNode_cases graph id with ⟨nodes, node, rfl, hnode⟩ | hrefused
  · rw [writeNode_of_node hnode]
    cases place with
    | nil => exact absurd List.nil_prefix hapart.2
    | cons step place =>
      by_cases hstep : .field id = step
      · subst hstep
        rw [atPlace?_node hnode] at h
        have hid := Entries.agrees_of_get? hnode
        have hinside : Apart path.steps place := by
          simpa [Apart, List.cons_prefix_cons] using hapart
        rw [atPlace?_node (by rw [Entries.get?_put, if_pos hid])]
        exact atPlace?_writeAt_apart htexts.tail hinside h value
      · have hother : (Json.obj (Entries.put id (writeAt value path node).1 nodes)).child? step =
            (Json.obj nodes).child? step :=
          child?_setChild_ne (fun key => htexts.head) hstep (.obj nodes) _
        rw [atPlace?_cons, hother]
        exact h
  · rwa [hrefused]

theorem writeNode_not_stopped (h : atPlace? (.field id :: path.steps) graph = some content)
    (value : Json) (fault : Fault) : (writeNode graph id path value).2 ≠ .stopped fault := by
  obtain ⟨nodes, node, rfl, hnode⟩ := exists_node h
  rw [atPlace?_node hnode] at h
  rw [writeNode_of_node hnode]
  exact writeAt_not_stopped h value fault

theorem writeNode_ne_stopped (hindex : ∀ s ∈ path, ∀ i, s.index = some i → i + 1 < Machine.memoryBound)
    (graph : Json) (id : Scalar) (value : Json) (fault : Fault) :
    (writeNode graph id path value).2 ≠ .stopped fault := by
  rcases writeNode_cases graph id with ⟨nodes, node, rfl, hnode⟩ | hrefused
  · rw [writeNode_of_node hnode]
    exact writeAt_ne_stopped_iff.mpr (overruns_of_small hindex node) fault
  · simp [hrefused]

/-- A write that leads inside a list that is itself an item of a list is refused. -/
theorem writeNode_refused {xs : List Json} {i : Nat} (h : atPlace? place graph = some (.list xs))
    (hlast : place.getLast? = some (.item i)) (hinside : place <+: .field id :: path.steps)
    (hne : place ≠ .field id :: path.steps) (value : Json) :
    (writeNode graph id path value).2 = .refused := by
  cases place with
  | nil => simp at hlast
  | cons step place =>
    rw [List.cons_prefix_cons] at hinside
    obtain ⟨rfl, hinside⟩ := hinside
    have hplace : place ≠ [] := by
      rintro rfl
      simp at hlast
    obtain ⟨nodes, node, rfl, hnode⟩ := exists_node h
    rw [atPlace?_node hnode] at h
    rw [writeNode_of_node hnode]
    have hlast' : place.getLast? = some (.item i) := by
      rwa [List.getLast?_cons_of_ne_nil hplace] at hlast
    exact writeAt_refused h hlast' hinside (fun heq => hne (by rw [heq])) value

theorem writeNode_ne_refused {step : Step} (h : atPlace? place graph = some content)
    (hadmits : content.admits step) (hsteps : .field id :: path.steps = place ++ [step])
    (hpath : path ≠ []) (value : Json) : (writeNode graph id path value).2 ≠ .refused := by
  cases place with
  | nil =>
    obtain ⟨s, rest, rfl⟩ := List.exists_cons_of_ne_nil hpath
    simp [Path.steps_cons, Segment.steps] at hsteps
  | cons step' place =>
    rw [List.cons_append, List.cons.injEq] at hsteps
    obtain ⟨rfl, hsteps⟩ := hsteps
    obtain ⟨nodes, node, rfl, hnode⟩ := exists_node h
    rw [atPlace?_node hnode] at h
    rw [writeNode_of_node hnode]
    exact writeAt_ne_refused h hadmits hsteps value

end NodeWorkflow.Surface

namespace NodeWorkflow

open Json

variable {graph : Json} {nodes : Entries Json} {id : String}

/-- The class of the node with the id equals nothing. -/
def Unselectable (graph : Json) (id : String) : Prop :=
  ∀ nodes, graph = .obj nodes → ∀ x ∈ nodes, x.1 = .str id →
    ∀ v, (x.2.field "class_type").same v = false

theorem Unselectable.not_found (h : Unselectable graph id) {nodeType : Json}
    {conditions : Option (List Condition)} {ids : List Scalar}
    (hfound : findNodes graph nodeType conditions = .ok ids) : .str id ∉ ids := by
  intro hmem
  unfold findNodes at hfound
  split at hfound
  next nodes =>
    obtain ⟨found, hfilter, hids⟩ := Except.bind_eq_ok.mp hfound
    rw [← Except.ok.inj hids] at hmem
    obtain ⟨x, hx, hid⟩ := List.mem_map.mp hmem
    obtain ⟨hnode, htest⟩ := (Except.mem_filterM hfilter).mp hx
    have hclass := h nodes rfl x hnode hid nodeType
    split at htest
    · simp [ParameterSpec.selects, hclass] at htest
    · simp [pure, Except.pure] at htest
  next => simp at hfound

theorem Unselectable.put (h : Unselectable (.obj nodes) id) {key : Scalar} {node : Json}
    (hnode : key = .str id → ∀ v, (node.field "class_type").same v = false) :
    Unselectable (.obj (Entries.put key node nodes)) id := by
  rintro _ heq x hx hid
  rw [← Json.obj.inj heq] at hx
  rcases Entries.mem_put hx with hmem | ⟨hvalue, hkey⟩
  · exact h nodes rfl x hmem hid
  · rw [hvalue]
    refine hnode ?_
    rcases hkey with hkey | hkey
    · exact hkey.symm.trans hid
    · exact Scalar.agrees_str_iff.mp (Scalar.agrees_symm (hid ▸ hkey))

theorem Unselectable.setPlace (h : Unselectable graph id) {place : Place}
    (hapart : Apart place [.field (.str id), .field (.str "class_type")]) (content : Json) :
    Unselectable (setPlace content place graph) id := by
  cases place with
  | nil => exact absurd List.nil_prefix hapart.1
  | cons step place =>
    rw [Json.setPlace]
    cases hchild : graph.child? step with
    | none => exact h
    | some node =>
      cases graph with
      | scalar a => cases step <;> exact h
      | list xs => cases step <;> rintro _ heq <;> simp [setChild] at heq
      | obj nodes => cases step with
        | item i => simp [child?] at hchild
        | field key =>
          refine h.put ?_
          rintro rfl v
          have hbelow : Apart place [.field (.str "class_type")] := by
            simpa [Apart, List.cons_prefix_cons] using hapart
          have hclass := atPlace?_setPlace_apart (by simp [Texts]) hbelow content node
          obtain ⟨k, hmem, hk⟩ := Entries.exists_of_get? hchild
          have hfield (w : Json) : w.field "class_type" =
              (atPlace? [.field (.str "class_type")] w).getD .null := by
            cases w <;> simp [field, field?, atPlace?, child?]
          rw [hfield, hclass, ← hfield]
          exact h nodes rfl _ hmem (Scalar.agrees_str_iff.mp hk) v

theorem Unselectable.writeNode [Machine] (h : Unselectable graph id) {other : Scalar}
    (hother : other ≠ .str id)
    (path : Path) (value : Json) : Unselectable (Surface.writeNode graph other path value).1 id := by
  rcases Surface.writeNode_cases graph other with ⟨nodes, node, rfl, hnode⟩ | hrefused
  · rw [Surface.writeNode_of_node hnode]
    exact h.put fun heq => absurd heq hother
  · rw [hrefused]
    exact h

end NodeWorkflow
