import NodeWorkflow.Proofs.Compile.Nodes
import NodeWorkflow.Proofs.Validation.Acyclic

/-!
# Compiled graphs are closed

A reference in a compiled graph comes from a link whose source survives, and every node that
survives has an entry. So there is nothing wrong with a compiled graph but cycles, however malformed
the editor graph was.
-/
namespace NodeWorkflow

namespace Editor

/-- The ids of nodes and the sources of links are integers. Nothing else is asked: ids may be there
twice, and links may lead anywhere. -/
structure Graph.IntegerEnds (graph : Graph) : Prop where
  nodes : ∀ node ∈ graph.nodes, ∃ n, node.id = .int n
  sources : ∀ link ∈ graph.links, ∃ n, link.sourceNode = .int n

theorem Graph.IntegerEnds.survivors {graph filtered : Graph} {uiTypes : List Scalar}
    (hends : graph.IntegerEnds) (h : graph.survivors uiTypes = .ok filtered) :
    filtered.IntegerEnds where
  nodes node hnode := hends.nodes node ((Graph.survivors_sublist h).1.subset hnode)
  sources link hlink := hends.sources link ((Graph.survivors_sublist h).2.subset hlink)

end Editor

namespace Compile
open Editor

variable {options : Options} {graph filtered : Graph} {links : Entries Link}
  {surviving : List Scalar} {node : Node} {compiled : ExecutionNode} {out : ExecutionGraph}

/-- Makes no reference, or is a link that is known and whose source survives. -/
def Source.Anchored (links : Entries Link) (surviving : List Scalar) (source : Source) : Prop :=
  source.value.reference? = none ∨ ∃ id link output, source = .link link output ∧
    Entries.get? id links = some link ∧ isAmong link.sourceNode surviving = .ok true

theorem slotSource_anchored {zeroIndex : Bool} {widgets : Json} {position : Nat} {slot : Slot}
    {source : Source}
    (h : slotSource links surviving zeroIndex widgets position slot = .ok (some source)) :
    source.Anchored links surviving := by
  rcases slotSource_eq_ok h with ⟨link, ⟨id, -, -, hget, hamong⟩, heq⟩ | ⟨-, heq | heq⟩
  · exact .inr ⟨id, link, _, Option.some.inj heq, hget, hamong⟩
  · simp at heq
  · rw [Option.some.inj heq]
    exact .inl (widgetAt_not_reference widgets position)

theorem compileNode_anchored (hnormalizers : ∀ e ∈ options.normalizers, e.2.GoesByNames)
    (h : (compileNode options links surviving node).result = .ok compiled) :
    ∀ e ∈ compiled.inputs, e.2.Anchored links surviving := by
  obtain ⟨type, inputs, -, -, hinputs, hnormal⟩ := compileNode_eq_ok.mp h
  intro e he
  rcases mem_of_normalize hnormalizers hnormal e he with hresolved | ⟨hliteral, -⟩
  · rcases mem_resolveSlots hinputs hresolved with hnil | ⟨i, slot, -, hsource⟩
    · simp at hnil
    · exact slotSource_anchored hsource
  · exact .inl hliteral

theorem compileNode_isNode
    (h : (compileNode options links surviving node).result = .ok compiled) :
    Validation.IsNode compiled.toJson := by
  obtain ⟨type, inputs, -, htruthy, -, hnormal⟩ := compileNode_eq_ok.mp h
  obtain ⟨htype, -⟩ := normalize_eq_ok hnormal
  refine ⟨compiled.isObj_toJson, ?_, .inr ?_⟩
  · rw [compiled.field_class, htype]
    exact htruthy
  · rw [Json.field, compiled.field?_inputs]
    rfl

/-- A link whose source survives leads to an entry of the compiled graph. -/
theorem mem_nodeIds_of_isAmong (hends : filtered.IntegerEnds)
    (hids : filtered.nodeIds = .ok surviving)
    (h : (compileNodes options links surviving filtered.nodes []).result = .ok out) {link : Link}
    (hlink : link ∈ filtered.links) (hamong : isAmong link.sourceNode surviving = .ok true) :
    link.sourceNode.text ∈ Validation.nodeIds out.entries := by
  obtain ⟨a, ha, node, hnode, id, hid, hagrees⟩ := (Graph.isAmong_nodeIds hids).mp hamong
  obtain ⟨m, hm⟩ := hends.nodes node hnode
  obtain ⟨n, hn⟩ := hends.sources link hlink
  -- Integers that agree are one integer, so that their texts are one text.
  have htext : node.id.text = link.sourceNode.text := by
    rw [hm, Json.scalar.injEq] at hid
    rw [hn, Json.scalar.injEq] at ha
    rw [← hid, ← ha, Scalar.agrees_int, beq_iff_eq] at hagrees
    rw [hm, hn, hagrees]
  obtain ⟨-, -, -, compiled, -, hget⟩ := get?_compileNodes h ⟨node, hnode, htext⟩
  obtain ⟨key, hmem, hkey⟩ := Entries.exists_of_get? hget
  rw [Scalar.agrees_str_iff] at hkey
  have hentry : (key, compiled.toJson) ∈ out.entries :=
    List.mem_map.mpr ⟨(key, compiled), hmem, rfl⟩
  exact List.mem_map.mpr ⟨_, hentry, by rw [hkey]; rfl⟩

theorem compileNodes_closed (hnormalizers : ∀ e ∈ options.normalizers, e.2.GoesByNames)
    (hends : filtered.IntegerEnds) (hids : filtered.nodeIds = .ok surviving)
    (hlinks : filtered.linksById = .ok links)
    (h : (compileNodes options links surviving filtered.nodes []).result = .ok out) :
    Validation.Closed out.entries := by
  intro e he input hinput source output hvalue
  obtain ⟨entry, hentry, rfl⟩ := List.mem_map.mp he
  rcases mem_compileNodes h hentry with hnil | ⟨node, -, -, hnode⟩
  · simp at hnil
  rw [ExecutionNode.nodeInputs_toJson] at hinput
  obtain ⟨named, hnamed, rfl⟩ := List.mem_map.mp hinput
  rcases compileNode_anchored hnormalizers hnode named hnamed with
    hliteral | ⟨id, link, _, hlink, hget, hamong⟩
  · have hreference := Validation.reference?_eq_some (r := ⟨source, output⟩).mpr hvalue
    rw [hliteral] at hreference
    simp at hreference
  · simp only [hlink, Source.value, Json.list.injEq, List.cons.injEq, Json.scalar.injEq,
      Scalar.str.injEq] at hvalue
    rw [← hvalue.1]
    exact mem_nodeIds_of_isAmong hends hids h (Graph.get?_linksById hlinks hget).1 hamong

theorem compileNodes_structure
    (h : (compileNodes options links surviving filtered.nodes []).result = .ok out) :
    Validation.structureFaults out.entries = [] := by
  rw [Validation.structureFaults_eq_nil]
  intro e he
  obtain ⟨entry, hentry, rfl⟩ := List.mem_map.mp he
  rcases mem_compileNodes h hentry with hnil | ⟨node, -, -, hnode⟩
  · simp at hnil
  · exact compileNode_isNode hnode

/-- Whatever the editor graph, if normalizers go by names, validation finds cycles in the compiled
graph at most, and every reference in it leads to a node of it. -/
theorem errors_of_compiled_graph (hends : graph.IntegerEnds)
    (hnormalizers : ∀ e ∈ options.normalizers, e.2.GoesByNames)
    (h : (compileGraph options graph).result = .ok out) :
    (∀ message ∈ Validation.errors out.toJson, message = "Workflow contains a cycle") ∧
      Validation.Closed out.entries := by
  obtain ⟨filtered, surviving, links, hfilter, hids, hlinks, hnodes⟩ := compileGraph_eq_ok.mp h
  have hclosed : Validation.Closed out.entries :=
    compileNodes_closed hnormalizers (hends.survivors hfilter) hids hlinks hnodes
  refine ⟨?_, hclosed⟩
  intro message hmessage
  rw [out.toJson_eq, Validation.errors_obj, Validation.localIssues,
    compileNodes_structure hnodes, Validation.danglingIssues_eq_nil.mpr hclosed] at hmessage
  split at hmessage
  · simpa [Validation.Issue.message] using hmessage
  · simp at hmessage

/-- Two nodes of one id, two links of one id, and links from a dropped node, from no node and from
the node itself. -/
theorem errors_of_malformed_graph :
    let loop : Link := ⟨.int 2, .int 1, .int 0, .int 1, .int 0, .null⟩
    let graph : Graph := ⟨
      [⟨.int 1, .str "A", [⟨.str "x", .int 1, .null⟩, ⟨.str "x", .int 7, .null⟩], .null, .null⟩,
        ⟨.int 1, .str "B", [⟨.str "x", .int 2, .null⟩, ⟨.str "y", .int 1, .null⟩],
          .list [.null, .str "v"], .null⟩,
        ⟨.int 2, .str "Note", [], .null, .null⟩],
      [⟨.int 1, .int 2, .int 0, .int 1, .int 0, .null⟩, loop,
        ⟨.int 1, .int 9, .int 0, .int 1, .int 0, .null⟩]⟩
    let out : ExecutionGraph := [(.str "1", ⟨.str "B",
      [(.str "x", .link loop (.int 0)), (.str "y", .widget 1 (.str "v"))],
      .list [.null, .str "v"], .null⟩)]
    graph.IntegerEnds ∧ (compileGraph ⟨[.str "Note"], [], false⟩ graph).result = .ok out ∧
      Validation.errors out.toJson = ["Workflow contains a cycle"] ∧
      Validation.Closed out.entries := by
  intro loop graph out
  have hends : graph.IntegerEnds := by constructor <;> simp [graph, loop]
  have hcompiled : (compileGraph ⟨[.str "Note"], [], false⟩ graph).result = .ok out := by rfl
  have hclosed := (errors_of_compiled_graph hends (by simp) hcompiled).2
  refine ⟨hends, hcompiled, ?_, hclosed⟩
  decide +kernel

end Compile
end NodeWorkflow
