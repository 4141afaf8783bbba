import NodeWorkflow.Proofs.Compile.Depth
import NodeWorkflow.Proofs.Compile.Entries

/-!
# Compiling what was compiled

Whichever way a workflow is compiled, every node of the result has a class and an object of inputs.
Such a graph stays as it is when it is compiled again. It is not taken for an execution graph,
though, if one of its nodes has the id `nodes`: then it looks like an editor graph without a list of
nodes.
-/
namespace NodeWorkflow.Compile
open Editor

variable {levels : Nat} {options : Options} {data workflow : Json} {out : Entries Json}
  {graph : Graph}

def nodesKey : Scalar := .str "nodes"

/-- An execution graph with a class and an object of inputs at every node. -/
structure Finished (out : Entries Json) : Prop where
  keys : out.Textual
  nodes : ∀ e ∈ out, Complete e.2

section Finished

theorem finished_of_compileGraph {compiled : ExecutionGraph}
    (h : (compileGraph options graph).result = .ok compiled) : Finished compiled.entries where
  keys := (compileGraph_textual h).of_keys List.map_map
  nodes e he := by
    obtain ⟨filtered, surviving, links, -, -, -, hnodes⟩ := compileGraph_eq_ok.mp h
    obtain ⟨entry, hentry, rfl⟩ := List.mem_map.mp he
    rcases mem_compileNodes hnodes hentry with hnil | ⟨node, -, -, hnode⟩
    · simp at hnil
    · obtain ⟨type, inputs, -, htruthy, -, hnormal⟩ := compileNode_eq_ok.mp hnode
      obtain ⟨htype, -⟩ := normalize_eq_ok hnormal
      constructor
      · rw [ExecutionNode.field_class, htype]
        exact htruthy
      · rw [Json.field, ExecutionNode.field?_inputs]
        rfl

theorem compileWithin_cases (h : (compileWithin levels options data).result = .ok workflow) :
    (formatOf data = .ok .editor ∧ ∃ graph compiled, Graph.ofJson data = .ok graph ∧
      (compileGraph options graph).result = .ok compiled ∧ workflow = .obj compiled.entries) ∨
    (formatOf data = .ok .execution ∧ ∃ nodes, data = .obj nodes ∧
      nodes.all (isCopyable levels) ∧ (passThrough (.obj nodes)).result = .ok workflow) := by
  obtain ⟨hoverrun, h⟩ := compileWithin_eq_ok h
  unfold compileWorkflow at h
  rcases formatOf_cases data with hformat | ⟨hformat, nodes, rfl⟩ | ⟨hformat, -⟩
  · simp [hformat] at h
  · rw [hformat, Traced.lift_ok_bind] at h
    have hcopyable : nodes.all (isCopyable levels) := by
      simpa [overrun?, hformat, executionOverrun?] using hoverrun
    exact .inr ⟨hformat, nodes, rfl, hcopyable, h⟩
  · rw [hformat, Traced.lift_ok_bind, compileEditorData, Traced.result_bind_eq_ok] at h
    obtain ⟨graph, hgraph, h⟩ := h
    obtain ⟨compiled, hcompiled, hworkflow⟩ := Traced.result_bind_eq_ok.mp h
    exact .inl ⟨hformat, graph, compiled, hgraph, hcompiled, (Except.ok.inj hworkflow).symm⟩

theorem finished_of_compileWithin (h : (compileWithin levels options data).result = .ok workflow) :
    ∃ out, workflow = .obj out ∧ Finished out := by
  rcases compileWithin_cases h with ⟨-, graph, compiled, -, hcompiled, rfl⟩ | ⟨-, nodes, -, -, h⟩
  · exact ⟨_, rfl, finished_of_compileGraph hcompiled⟩
  · obtain ⟨out, rfl, hkeys, hcomplete⟩ := complete_of_passThrough h
    exact ⟨out, rfl, hkeys, hcomplete⟩

theorem Finished.formatOf (h : Finished out) : formatOf (.obj out) =
    if nodesKey ∈ out.map Prod.fst then .error (.shape .notWorkflow) else .ok .execution := by
  have hmem : nodesKey ∈ out.map Prod.fst ↔ (Entries.get? nodesKey out).isSome := h.keys.mem_keys_iff
  have hfield : (Json.obj out).field? "nodes" = Entries.get? nodesKey out := rfl
  simp only [Compile.formatOf, hfield, hmem]
  cases hget : Entries.get? nodesKey out with
  | none => rfl
  | some v =>
    -- What stands under the key is a node, and so no list.
    obtain ⟨es, rfl⟩ := (h.nodes _ (Entries.mem_of_get?_str hget)).exists_obj
    rfl

/-- A finished graph without a node of the id `nodes` stays as it is if its nodes can be copied. -/
theorem Finished.compileWithin (h : Finished out) (levels : Nat) (options : Options) :
    compileWithin levels options (.obj out) =
      if nodesKey ∈ out.map Prod.fst then .fail (.shape .notWorkflow)
      else if out.all (isCopyable levels) then .ok (.obj out)
      else .fail .tooDeep := by
  unfold Compile.compileWithin overrun? compileWorkflow
  rw [h.formatOf]
  by_cases hnodes : nodesKey ∈ out.map Prod.fst
  · rw [if_pos hnodes, if_pos hnodes]
    rfl
  · rw [if_neg hnodes, if_neg hnodes]
    simp only [executionOverrun?, Traced.lift_ok_bind]
    by_cases hcopyable : out.all (isCopyable levels)
    · rw [if_pos hcopyable, if_pos hcopyable, Option.getD_none]
      exact passThrough_of_complete h.keys h.nodes
    · -- The nodes in front of the one that is too deep are complete, and nothing is said of them.
      rw [if_neg hcopyable, if_neg hcopyable, Option.getD_some]
      have hfront : Entries.Textual (out.takeWhile (isCopyable levels)) :=
        ⟨fun e he => h.keys.texts e ((List.takeWhile_sublist _).mem he),
          h.keys.distinct.sublist (List.takeWhile_sublist _)⟩
      rw [completeNodes_of_complete (fun e he => h.nodes e ((List.takeWhile_sublist _).mem he))
        (by simpa using hfront)]
      rfl

end Finished

/-- A node that survives has an id that is spelled like the key of the nodes of an editor graph. -/
def NamesNodes (uiTypes : List Scalar) (data : Json) : Prop :=
  formatOf data = .ok .editor ∧
    ∃ graph, Graph.ofJson data = .ok graph ∧ nodesKey ∈ (graph.kept uiTypes).map entryKey

theorem not_namesNodes_of_execution (h : formatOf data = .ok .execution)
    (uiTypes : List Scalar) : ¬ NamesNodes uiTypes data := by
  rintro ⟨hformat, -⟩
  simp [h] at hformat

theorem nodesKey_not_mem_of_passThrough {nodes : Entries Json} (hdata : (Json.obj nodes).Decoded)
    (hformat : formatOf (.obj nodes) = .ok .execution)
    (h : (passThrough (.obj nodes)).result = .ok (.obj out)) : nodesKey ∉ out.map Prod.fst := by
  obtain ⟨_, hout, heq⟩ := passThrough_eq_ok.mp h
  obtain rfl := Json.obj.inj heq
  obtain ⟨fresh, hfresh, hdone⟩ := forall₂_of_completeNodes hout (by simpa using hdata.keys)
  have hkeys : out.map Prod.fst = nodes.map Prod.fst := by
    rw [hfresh, List.nil_append, ← List.forall₂_eq_eq_eq, List.forall₂_map_left_iff, List.forall₂_map_right_iff]
    exact (hdone.imp fun e f hkey => hkey.1).flip
  rw [hkeys, nodesKey, hdata.keys.mem_keys_iff]
  intro hsome
  obtain ⟨v, hget⟩ := Option.isSome_iff_exists.mp hsome
  have hfield : (Json.obj nodes).field? "nodes" = some v := hget
  simp only [formatOf, hfield] at hformat
  cases v <;> simp [Json.isObj] at hformat

theorem nodesKey_mem_iff (hdata : data.Decoded)
    (h : (compileWithin levels options data).result = .ok (.obj out)) :
    nodesKey ∈ out.map Prod.fst ↔ NamesNodes options.uiTypes data := by
  rcases compileWithin_cases h with
    ⟨hformat, graph, compiled, hgraph, hcompiled, heq⟩ | ⟨hformat, nodes, rfl, -, h⟩
  · obtain rfl := Json.obj.inj heq
    rw [keys_compileGraph hcompiled, List.mem_eraseDups]
    constructor
    · intro hmem
      exact ⟨hformat, graph, hgraph, hmem⟩
    · rintro ⟨-, graph', hgraph', hmem⟩
      obtain rfl : graph = graph' := Except.ok.inj (hgraph.symm.trans hgraph')
      exact hmem
  · exact iff_of_false (nodesKey_not_mem_of_passThrough hdata hformat h)
      (not_namesNodes_of_execution hformat _)

/-- What comes out of an execution graph can be copied as its nodes were. -/
theorem copyable_of_passThrough {nodes : Entries Json} (hcopyable : nodes.all (isCopyable levels))
    (h : (passThrough (.obj nodes)).result = .ok (.obj out)) : out.all (isCopyable levels) := by
  obtain ⟨_, hout, heq⟩ := passThrough_eq_ok.mp h
  obtain rfl := Json.obj.inj heq
  refine List.all_eq_true.mpr fun e he => ?_
  rcases mem_completeNodes hout he with hnil | ⟨n, hn, hdone⟩
  · simp at hnil
  · obtain ⟨es, hobj, -⟩ := completeNode_eq_ok.mp hdone
    have hnode : n.2.nestsWithin levels := by
      have hn := List.all_eq_true.mp hcopyable n hn
      simpa [isCopyable, hobj, Json.isObj] using hn
    rw [isCopyable, nestsWithin_of_completeNode hdone hnode, Bool.or_true]

/-- A workflow that was compiled is compiled to itself, with nothing reported, under whatever
options. It is refused if a node that survives in it has the id `nodes`, and it may be too deep to
copy unless it comes from an execution graph. -/
theorem recompiled (hdata : data.Decoded)
    (h : (compileWithin levels options data).result = .ok workflow) :
    ∃ out, workflow = .obj out ∧
      (NamesNodes options.uiTypes data → ∀ depth options',
        compileWithin depth options' workflow = .fail (.shape .notWorkflow)) ∧
      (¬ NamesNodes options.uiTypes data → ∀ depth options', compileWithin depth options' workflow =
        if out.all (isCopyable depth) then .ok workflow else .fail .tooDeep) ∧
      (formatOf data = .ok .execution → ∀ options',
        compileWithin levels options' workflow = .ok workflow) := by
  obtain ⟨out, rfl, hfinished⟩ := finished_of_compileWithin h
  have hnames := nodesKey_mem_iff hdata h
  refine ⟨out, rfl, fun hmem depth options' => ?_, fun hmem depth options' => ?_,
    fun hformat options' => ?_⟩
  · rw [hfinished.compileWithin, if_pos (hnames.mpr hmem)]
  · rw [hfinished.compileWithin, if_neg (mt hnames.mp hmem)]
  · rcases compileWithin_cases h with ⟨heditor, -⟩ | ⟨-, nodes, rfl, hcopyable, h⟩
    · simp [hformat] at heditor
    · have hmem := mt hnames.mp (not_namesNodes_of_execution hformat options.uiTypes)
      rw [hfinished.compileWithin, if_neg hmem, if_pos (copyable_of_passThrough hcopyable h)]

/-- An editor graph with a node of the id `nodes` is compiled, and what comes out is refused. -/
theorem node_called_nodes_refused :
    let data : Json := .ofFields [("nodes", .list [.ofFields [("id", .str "nodes"), ("type", .str "A")]]),
      ("links", .list [])]
    let workflow : Json :=
      .ofFields [("nodes", .ofFields [("class_type", .str "A"), ("inputs", .obj [])])]
    data.Decoded ∧ (compileWithin 400 .plain data).result = .ok workflow ∧
      (compileWithin 400 .plain workflow).result = .error (.shape .notWorkflow) := by
  refine ⟨by simp, rfl, rfl⟩

/-- An editor graph with a link, and an execution graph with a type in place of a class. -/
theorem recompiled_linked_and_legacy_graphs :
    let editor : Json := .ofFields [
      ("nodes", .list [.ofFields [("id", .int 1), ("type", .str "A")],
        .ofFields [("id", .int 2), ("type", .str "B"), ("inputs", .list [
          .ofFields [("name", .str "x"), ("link", .int 7)]])]]),
      ("links", .list [.list [.int 7, .int 1, .int 0, .int 2, .int 0, .str "T"]])]
    let compiled : Json := .ofFields [
      ("1", .ofFields [("class_type", .str "A"), ("inputs", .obj [])]),
      ("2", .ofFields [("class_type", .str "B"), ("inputs", .ofFields [
        ("x", .list [.str "1", .int 0])])])]
    let legacy : Json := .ofFields [("1", .ofFields [("type", .str "A"), ("inputs", .null)])]
    let completed : Json :=
      .ofFields [("1", .ofFields [("inputs", .obj []), ("class_type", .str "A")])]
    (compileWithin 400 .plain editor).result = .ok compiled ∧
      compileWithin 400 .plain compiled = .ok compiled ∧
      (compileWithin 400 .plain legacy).result = .ok completed ∧
      compileWithin 400 .plain completed = .ok completed := by
  intro editor compiled legacy completed
  have heditor : (compileWithin 400 .plain editor).result = .ok compiled := rfl
  have hlegacy : (compileWithin 400 .plain legacy).result = .ok completed := rfl
  obtain ⟨out, hout, -, hagain, -⟩ := recompiled (by simp [editor]) heditor
  obtain ⟨_, -, -, -, hexecution⟩ := recompiled (by simp [legacy]) hlegacy
  refine ⟨heditor, ?_, hlegacy, hexecution rfl .plain⟩
  have hplain : ¬ NamesNodes Options.plain.uiTypes editor := by
    rintro ⟨-, graph, hgraph, hmem⟩
    obtain rfl := Except.ok.inj hgraph
    exact absurd hmem (by decide +kernel)
  rw [hagain hplain, ← Json.obj.inj hout]
  rfl

end NodeWorkflow.Compile
