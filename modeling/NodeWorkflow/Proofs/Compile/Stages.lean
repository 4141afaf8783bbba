import NodeWorkflow.Proofs.Compile.Unresolved

/-!
# The stages of a compilation

A graph is filtered, and then what is left is compiled, which knows nothing of the types that were
dropped. A node that is compiled sees of the other nodes and of the links only which link has an id
and which ids there are.
-/
namespace NodeWorkflow.Compile
open Editor

variable {options options' : Options} {links links' : Entries Link}
  {surviving surviving' : List Scalar} {zeroIndex : Bool} {node : Node} {nodes : List Node}
  {slot : Slot} {slots : List Slot} {position : Nat} {inputs : Entries Source}
  {done out : ExecutionGraph} {graph filtered : Graph} {levels : Nat}

/-- What is left of two graphs looks alike to a node: the same link has an id, and the same ids are
there. -/
structure Surroundings (links links' : Entries Link) (surviving surviving' : List Scalar) :
    Prop where
  links : ∀ id, Entries.get? id links = Entries.get? id links'
  ids : ∀ v, isAmong v surviving = isAmong v surviving'

section Surroundings

variable (h : Surroundings links links' surviving surviving')
include h

theorem throughLink_congr : throughLink links surviving zeroIndex slot =
    throughLink links' surviving' zeroIndex slot := by
  simp only [throughLink, h.links, h.ids]

theorem resolveSlots_congr : resolveSlots links surviving zeroIndex node position slots inputs =
    resolveSlots links' surviving' zeroIndex node position slots inputs := by
  induction slots generalizing position inputs with
  | nil => rfl
  | cons slot slots ih => simp only [resolveSlots, slotSource, throughLink_congr h, ih]

theorem compileNode_congr (options : Options) (node : Node) :
    compileNode options links surviving node = compileNode options links' surviving' node := by
  simp only [compileNode, resolveInputs, resolveSlots_congr h]

end Surroundings

theorem compileNodes_congr (h : ∀ node ∈ nodes, compileNode options links surviving node =
    compileNode options' links' surviving' node) :
    compileNodes options links surviving nodes done =
      compileNodes options' links' surviving' nodes done := by
  induction nodes generalizing done with
  | nil => rfl
  | cons node nodes ih =>
    obtain ⟨hnode, hnodes⟩ := List.forall_mem_cons.mp h
    simp only [compileNodes, hnode, ih hnodes]

/-- Compiles what a filter has left, up to the first node with widgets too deep to copy. -/
def compileFiltered (levels : Nat) (options : Options) (filtered : Graph) :
    Traced ExecutionGraph := do
  let isCopyable (node : Node) := node.widgets.nestsWithin levels
  let surviving ← filtered.nodeIds
  let links ← filtered.linksById
  match filtered.nodes.dropWhile isCopyable with
  | [] => compileNodes options links surviving filtered.nodes []
  | node :: _ => do
    let _ ← compileNodes options links surviving (filtered.nodes.takeWhile isCopyable) []
    let _ ← compileNode { options with normalizers := [] } links surviving node
    Traced.fail .tooDeep

theorem compileFiltered_eq_ok : (compileFiltered levels options filtered).result = .ok out ↔
    (∀ node ∈ filtered.nodes, node.widgets.nestsWithin levels) ∧ ∃ surviving links,
      filtered.nodeIds = .ok surviving ∧ filtered.linksById = .ok links ∧
        (compileNodes options links surviving filtered.nodes []).result = .ok out := by
  rw [← List.dropWhile_eq_nil_iff]
  unfold compileFiltered
  simp only [Traced.result_bind_eq_ok, Traced.result_lift]
  split
  next hdrop => simp [hdrop]
  next hdrop => simp [hdrop, Traced.result_bind_eq_ok]

/-- A compilation is a filter and the compilation of what it leaves. -/
theorem compileGraphWithin_of_survivors (h : graph.survivors options.uiTypes = .ok filtered) :
    compileGraphWithin levels options graph = (do
      Traced.report (graph.filterEvents filtered)
      let out ← compileFiltered levels options filtered
      Traced.report [.compiled graph.nodes.length out.length]
      return out.toJson) := by
  have hfilter : graph.filter options.uiTypes =
      (do Traced.report (graph.filterEvents filtered); return filtered) := by
    rw [Graph.filter, h]
    exact congrArg (Traced.mk · (.ok filtered)) (List.append_nil _).symm
  unfold compileGraphWithin graphOverrun? compileFiltered
  rw [h]
  dsimp only
  cases filtered.nodes.dropWhile fun node => node.widgets.nestsWithin levels with
  | nil => simp only [Option.getD_none, compileGraph, hfilter, bind_assoc, pure_bind]
  | cons node after => simp only [Option.getD_some, bind_assoc, Traced.fail_bind]

theorem compileGraphWithin_of_error {fault : Fault}
    (h : graph.survivors options.uiTypes = .error fault) :
    compileGraphWithin levels options graph = .fail fault := by
  have hfilter : graph.filter options.uiTypes = .fail fault := by rw [Graph.filter, h]
  simp only [compileGraphWithin, graphOverrun?, h, Option.getD_none, compileGraph, hfilter,
    Traced.fail_bind]

theorem result_compileGraphWithin (h : graph.survivors options.uiTypes = .ok filtered) :
    (compileGraphWithin levels options graph).result =
      (compileFiltered levels options filtered).result.map ExecutionGraph.toJson := by
  rw [compileGraphWithin_of_survivors h]
  obtain ⟨events, result⟩ := compileFiltered levels options filtered
  cases result <;> rfl

/-- Neither the filter nor the end of a compilation gives a warning. -/
theorem warnings_compileGraphWithin (h : graph.survivors options.uiTypes = .ok filtered) :
    (compileGraphWithin levels options graph).warnings =
      (compileFiltered levels options filtered).warnings := by
  have hfilter : Event.warnings (graph.filterEvents filtered) = [] := by
    have hnone := warnings_filter graph options.uiTypes
    rwa [Graph.filter, h] at hnone
  rw [compileGraphWithin_of_survivors h, Traced.warnings_bind (Traced.result_report _)]
  change Event.warnings (graph.filterEvents filtered) ++ _ = _
  rw [hfilter, List.nil_append]
  obtain ⟨events, result⟩ := compileFiltered levels options filtered
  cases result with
  | error fault => rfl
  | ok out =>
    rw [Traced.warnings_bind rfl]
    exact List.append_nil _

theorem compileGraphWithin_of_copyable
    (h : ∀ node ∈ graph.kept options.uiTypes, node.widgets.nestsWithin levels) :
    compileGraphWithin levels options graph =
      ExecutionGraph.toJson <$> compileGraph options graph := by
  have hwithin : graphOverrun? levels options graph = none := by
    unfold graphOverrun?
    split
    next => rfl
    next filtered hfiltered =>
      rw [← Graph.nodes_survivors hfiltered] at h
      dsimp only
      rw [List.dropWhile_eq_nil_iff.mpr h]
  rw [compileGraphWithin, hwithin, Option.getD_none, bind_pure_comp]

/-- A compilation gives a workflow if the nodes that stay can be copied and are compiled. -/
theorem compileGraphWithin_eq_ok {v : Json} :
    (compileGraphWithin levels options graph).result = .ok v ↔
      (∀ node ∈ graph.kept options.uiTypes, node.widgets.nestsWithin levels) ∧
        ∃ out, (compileGraph options graph).result = .ok out ∧ out.toJson = v := by
  constructor
  · intro h
    cases hfiltered : graph.survivors options.uiTypes with
    | error fault =>
      rw [compileGraphWithin_of_error hfiltered] at h
      simp at h
    | ok filtered =>
      rw [result_compileGraphWithin hfiltered, Except.map_eq_ok] at h
      obtain ⟨out, hout, rfl⟩ := h
      obtain ⟨hcopyable, surviving, links, hids, hlinks, hnodes⟩ := compileFiltered_eq_ok.mp hout
      rw [Graph.nodes_survivors hfiltered] at hcopyable
      exact ⟨hcopyable, out, compileGraph_eq_ok.mpr
        ⟨filtered, surviving, links, hfiltered, hids, hlinks, hnodes⟩, rfl⟩
  · rintro ⟨hcopyable, out, hout, rfl⟩
    rw [compileGraphWithin_of_copyable hcopyable, Traced.result_map, hout]
    rfl

theorem warnings_compileGraphWithin_of_ok {v : Json}
    (h : (compileGraphWithin levels options graph).result = .ok v) :
    (compileGraphWithin levels options graph).warnings = (compileGraph options graph).warnings := by
  rw [compileGraphWithin_of_copyable (compileGraphWithin_eq_ok.mp h).1, Traced.warnings,
    Traced.events_map]
  rfl

theorem compileFiltered_withTypes (uiTypes : List Scalar) :
    compileFiltered levels { options with uiTypes } filtered =
      compileFiltered levels options filtered := by
  have hnodes (links : Entries Link) (surviving : List Scalar) (nodes : List Node) :
      compileNodes { options with uiTypes } links surviving nodes [] =
        compileNodes options links surviving nodes [] :=
    compileNodes_congr fun _ _ => rfl
  simp only [compileFiltered, hnodes]
  rfl

end NodeWorkflow.Compile
