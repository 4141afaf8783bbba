import Mathlib
import NodeWorkflow.Proofs.Compile.Normalizer

/-!
# The nodes of a compiled graph

A compilation succeeds if the filter does and every node that stays compiles. The result has an
entry under the id of each of them, and every entry of it is one of them compiled.
-/
namespace NodeWorkflow

theorem Scalar.text_int_inj {m n : Int} : (Scalar.int m).text = (Scalar.int n).text ↔ m = n :=
  Int.repr_inj

namespace Compile
open Editor

variable {options : Options} {links : Entries Link} {surviving : List Scalar} {node : Node}
  {nodes : List Node} {compiled : ExecutionNode} {done out : ExecutionGraph}

def ExecutionGraph.entries (graph : ExecutionGraph) : Entries Json :=
  graph.map fun e => (e.1, e.2.toJson)

theorem ExecutionGraph.toJson_eq (graph : ExecutionGraph) : graph.toJson = .obj graph.entries := rfl

theorem compileNode_eq_ok :
    (compileNode options links surviving node).result = .ok compiled ↔
      ∃ type inputs, node.type = .scalar type ∧ type.truthy ∧
        (resolveInputs links surviving options.zeroIndex node).result = .ok inputs ∧
        normalize options ⟨type, inputs, node.widgets, node.title⟩ = .ok compiled := by
  unfold compileNode
  cases htruthy : node.type.truthy with
  | false =>
    rw [if_pos (by simp), Traced.result_bind_eq_ok]
    constructor
    · rintro ⟨_, hfail, -⟩
      simp at hfail
    · rintro ⟨type, _, htype, htrue, -⟩
      rw [htype, Json.truthy, htrue] at htruthy
      simp at htruthy
  | true =>
    rw [if_neg (by simp)]
    simp only [Traced.result_bind_eq_ok, Traced.result_lift, Json.key_eq_ok]
    constructor
    · rintro ⟨type, htype, inputs, hinputs, hnormal⟩
      rw [htype, Json.truthy] at htruthy
      exact ⟨type, inputs, htype, htruthy, hinputs, hnormal⟩
    · rintro ⟨type, inputs, htype, -, hinputs, hnormal⟩
      exact ⟨type, htype, inputs, hinputs, hnormal⟩

theorem type_compileNode (h : (compileNode options links surviving node).result = .ok compiled) :
    node.type = .scalar compiled.type := by
  obtain ⟨type, inputs, htype, -, -, hnormal⟩ := compileNode_eq_ok.mp h
  rw [htype, (normalize_eq_ok hnormal).1]

theorem compileNode_distinct
    (h : (compileNode options links surviving node).result = .ok compiled) :
    compiled.inputs.Distinct := by
  obtain ⟨type, inputs, -, -, hinputs, hnormal⟩ := compileNode_eq_ok.mp h
  exact normalize_distinct hnormal (resolveSlots_distinct hinputs List.Pairwise.nil)

theorem compileNodes_nil :
    (compileNodes options links surviving [] done).result = .ok out ↔ done = out := by
  simp [compileNodes]

theorem compileNodes_cons :
    (compileNodes options links surviving (node :: nodes) done).result = .ok out ↔
      ∃ compiled, (compileNode options links surviving node).result = .ok compiled ∧
        (compileNodes options links surviving nodes
          (done.put (.str node.id.text) compiled)).result = .ok out := by
  simp [compileNodes, Traced.result_bind_eq_ok]

/-- Nodes are compiled together if and only if each of them is. -/
theorem exists_compileNodes_iff :
    (∃ out, (compileNodes options links surviving nodes done).result = .ok out) ↔
      ∀ node ∈ nodes, ∃ compiled,
        (compileNode options links surviving node).result = .ok compiled := by
  induction nodes generalizing done with
  | nil => simp [compileNodes]
  | cons node nodes ih =>
    simp only [compileNodes_cons, List.forall_mem_cons]
    constructor
    · rintro ⟨out, compiled, hcompiled, hrest⟩
      exact ⟨⟨compiled, hcompiled⟩, ih.mp ⟨out, hrest⟩⟩
    · rintro ⟨⟨compiled, hcompiled⟩, hrest⟩
      obtain ⟨out, hout⟩ := ih.mpr hrest
      exact ⟨out, compiled, hcompiled, hout⟩

/-- Every entry was there before, or is a node that compiled under its id. -/
theorem mem_compileNodes
    (h : (compileNodes options links surviving nodes done).result = .ok out)
    {e : Scalar × ExecutionNode} (he : e ∈ out) :
    e ∈ done ∨ ∃ node ∈ nodes, e.1 = .str node.id.text ∧
      (compileNode options links surviving node).result = .ok e.2 := by
  induction nodes generalizing done with
  | nil => exact .inl (compileNodes_nil.mp h ▸ he)
  | cons node nodes ih =>
    obtain ⟨compiled, hnode, hrest⟩ := compileNodes_cons.mp h
    rcases ih hrest with hmem | ⟨other, hother, hcompiled⟩
    · rcases Entries.mem_put hmem with hdone | ⟨hvalue, hkey⟩
      · exact .inl hdone
      · exact .inr ⟨node, List.mem_cons_self, hkey.elim id Scalar.agrees_str_iff.mp,
          hvalue ▸ hnode⟩
    · exact .inr ⟨other, List.mem_cons_of_mem _ hother, hcompiled⟩

theorem compileNodes_textual
    (h : (compileNodes options links surviving nodes done).result = .ok out)
    (hdone : done.Textual) : out.Textual := by
  induction nodes generalizing done with
  | nil => exact compileNodes_nil.mp h ▸ hdone
  | cons node nodes ih =>
    obtain ⟨compiled, -, hrest⟩ := compileNodes_cons.mp h
    exact ih hrest (hdone.put _ compiled)

theorem get?_compileNodes_of_absent
    (h : (compileNodes options links surviving nodes done).result = .ok out) {id : String}
    (habsent : ∀ node ∈ nodes, node.id.text ≠ id) :
    Entries.get? (.str id) out = Entries.get? (.str id) done := by
  induction nodes generalizing done with
  | nil => rw [compileNodes_nil.mp h]
  | cons node nodes ih =>
    obtain ⟨compiled, -, hrest⟩ := compileNodes_cons.mp h
    have hne : node.id.text ≠ id := habsent node List.mem_cons_self
    rw [ih hrest fun n hn => habsent n (List.mem_cons_of_mem _ hn), Entries.get?_put,
      Scalar.agrees_str, if_neg (by simpa using hne)]

/-- Under an id that nodes have there is the last of them. -/
theorem get?_compileNodes_last
    (h : (compileNodes options links surviving nodes done).result = .ok out) {id : String}
    (hlast : nodes.reverse.find? (fun node => node.id.text == id) = some node) :
    ∃ compiled, (compileNode options links surviving node).result = .ok compiled ∧
      Entries.get? (.str id) out = some compiled := by
  induction nodes generalizing done with
  | nil => simp at hlast
  | cons head nodes ih =>
    obtain ⟨compiled, hhead, hrest⟩ := compileNodes_cons.mp h
    rw [List.reverse_cons, List.find?_append] at hlast
    cases hlater : nodes.reverse.find? (fun node => node.id.text == id) with
    | some later =>
      obtain rfl : later = node := by simpa [hlater] using hlast
      exact ih hrest hlater
    | none =>
      obtain ⟨hid, rfl⟩ : head.id.text = id ∧ head = node := by
        simpa [hlater, List.find?_singleton] using hlast
      have habsent : ∀ later ∈ nodes, later.id.text ≠ id := by
        simpa using List.find?_eq_none.mp hlater
      refine ⟨compiled, hhead, ?_⟩
      rw [get?_compileNodes_of_absent hrest habsent, Entries.get?_put, Scalar.agrees_str,
        if_pos (by simpa using hid)]

theorem get?_compileNodes
    (h : (compileNodes options links surviving nodes done).result = .ok out) {id : String}
    (hnode : ∃ node ∈ nodes, node.id.text = id) :
    ∃ last ∈ nodes, last.id.text = id ∧ ∃ compiled,
      (compileNode options links surviving last).result = .ok compiled ∧
      Entries.get? (.str id) out = some compiled := by
  obtain ⟨node, hmem, hid⟩ := hnode
  have hsome : (nodes.reverse.find? fun node => node.id.text == id).isSome := by
    rw [List.find?_isSome]
    exact ⟨node, List.mem_reverse.mpr hmem, by simpa using hid⟩
  obtain ⟨last, hlast⟩ := Option.isSome_iff_exists.mp hsome
  obtain ⟨compiled, hcompiled, hget⟩ := get?_compileNodes_last h hlast
  exact ⟨last, List.mem_reverse.mp (List.mem_of_find?_eq_some hlast),
    by simpa using List.find?_some hlast, compiled, hcompiled, hget⟩

/-- What a compilation that succeeds has gone through. -/
theorem compileGraph_eq_ok {graph : Graph} :
    (compileGraph options graph).result = .ok out ↔
      ∃ filtered surviving links, graph.survivors options.uiTypes = .ok filtered ∧
        filtered.nodeIds = .ok surviving ∧ filtered.linksById = .ok links ∧
        (compileNodes options links surviving filtered.nodes []).result = .ok out := by
  simp only [compileGraph, Traced.result_bind_eq_ok, Traced.result_lift, Graph.result_filter,
    Traced.result_report, Traced.result_pure]
  constructor
  · rintro ⟨filtered, hfilter, surviving, hids, links, hlinks, compiled, hcompiled, _, -, hout⟩
    exact ⟨filtered, surviving, links, hfilter, hids, hlinks, Except.ok.inj hout ▸ hcompiled⟩
  · rintro ⟨filtered, surviving, links, hfilter, hids, hlinks, hcompiled⟩
    exact ⟨filtered, hfilter, surviving, hids, links, hlinks, out, hcompiled, (), trivial, rfl⟩

theorem compileGraph_textual {graph : Graph} (h : (compileGraph options graph).result = .ok out) :
    out.Textual := by
  obtain ⟨filtered, surviving, links, -, -, -, hnodes⟩ := compileGraph_eq_ok.mp h
  exact compileNodes_textual hnodes ⟨by simp, List.Pairwise.nil⟩

theorem compileGraph_distinct {graph : Graph} (h : (compileGraph options graph).result = .ok out)
    {e : Scalar × ExecutionNode} (he : e ∈ out) : e.2.inputs.Distinct := by
  obtain ⟨filtered, surviving, links, -, -, -, hnodes⟩ := compileGraph_eq_ok.mp h
  rcases mem_compileNodes hnodes he with hnil | ⟨node, -, -, hnode⟩
  · simp at hnil
  · exact compileNode_distinct hnode

end Compile
end NodeWorkflow
