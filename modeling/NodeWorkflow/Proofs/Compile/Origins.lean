import NodeWorkflow.Proofs.Compile.Nodes
import NodeWorkflow.Proofs.Editor.Graph
import NodeWorkflow.Sharing.Drawn

/-!
# Where compiled nodes come from

A compiled node comes from the editor node with its number, and its inputs, but for those that a
normalizer gave, from the slots of that node.
-/
namespace NodeWorkflow.Compile
open Editor

variable {options : Options} {graph filtered : Graph} {compiled : ExecutionGraph}
  {links : Entries Link} {surviving : List Scalar} {node : Node} {out : ExecutionNode}
  {e : Scalar × ExecutionNode}

theorem lastIndex?_of_find? {α : Type} {p : α → Bool} {xs : List α} {x : α}
    (h : xs.reverse.find? p = some x) : ∃ i, lastIndex? p xs = some i ∧ xs[i]? = some x := by
  have hfst : xs.reverse = xs.zipIdx.reverse.map Prod.fst := by
    rw [List.map_reverse, List.zipIdx_map_fst]
  rw [hfst, List.find?_map, Option.map_eq_some_iff] at h
  obtain ⟨⟨y, i⟩, hfind, rfl⟩ := h
  refine ⟨i, ?_, ?_⟩
  · have hsame : xs.zipIdx.reverse.find? (fun e => p e.1) = some (y, i) := hfind
    rw [lastIndex?, hsame]
    rfl
  · have hmem := List.mem_reverse.mp (List.mem_of_find?_eq_some hfind)
    exact List.mem_zipIdx_iff_getElem?.mp hmem

section
variable (hfilter : graph.survivors options.uiTypes = .ok filtered)
include hfilter

theorem editorIndex?_compiled
    (hnodes : (compileNodes options links surviving filtered.nodes []).result = .ok compiled)
    (he : e ∈ compiled) : ∃ i node, editorIndex? options graph e.1 = some i ∧
      graph.nodes[i]? = some node ∧
      (compileNode options links surviving node).result = .ok e.2 := by
  rcases mem_compileNodes hnodes he with hnil | ⟨node, hnode, hid, -⟩
  · simp at hnil
  obtain ⟨last, hlast⟩ : ∃ last, filtered.nodes.reverse.find?
      (fun other => other.id.text == node.id.text) = some last := by
    rw [← Option.isSome_iff_exists, List.find?_isSome]
    exact ⟨node, List.mem_reverse.mpr hnode, by simp⟩
  obtain ⟨out, hout, hget⟩ := get?_compileNodes_last hnodes hlast
  have htextual : compiled.Textual := compileNodes_textual hnodes ⟨by simp, List.Pairwise.nil⟩
  have hself : Entries.get? (.str node.id.text) compiled = some e.2 :=
    Entries.get?_of_mem htextual.distinct (hid ▸ he) (by simp)
  obtain rfl : out = e.2 := Option.some.inj (hget.symm.trans hself)
  obtain ⟨ids, -, hkept, -⟩ := Graph.survivors_eq_ok hfilter
  obtain ⟨hall, hfiltered⟩ := Except.filterM_eq_ok hkept
  rw [hfiltered, ← List.filter_reverse, List.find?_filter] at hlast
  have hsame : graph.nodes.reverse.find? (fun other => Scalar.str other.id.text = e.1 &&
      !holdsTrue (isAmong other.type options.uiTypes)) = some last := by
    rw [← hlast]
    refine List.find?_congr fun other hother => ?_
    obtain ⟨kept, hkept⟩ := hall other (List.mem_reverse.mp hother)
    obtain ⟨among, hamong, hout⟩ := Except.bind_eq_ok.mp hkept
    obtain rfl : (!among) = kept := Except.ok.inj hout
    rw [hkept, hamong, hid]
    cases among <;> simp [holdsTrue, Except.toOption, Bool.and_comm]
  obtain ⟨i, hi, hnode⟩ := lastIndex?_of_find? hsame
  exact ⟨i, last, hi, hnode, hout⟩

theorem linkIndex?_known (hids : filtered.nodeIds = .ok surviving)
    (hlinks : filtered.linksById = .ok links) {id : Scalar} {record : Link}
    (hget : Entries.get? id links = some record) :
    ∃ j link, linkIndex? surviving graph record = some j ∧ graph.links[j]? = some link := by
  obtain ⟨hmem, key, hkey, hagrees⟩ := Graph.get?_linksById hlinks hget
  obtain ⟨hlink, hconnects⟩ := (Graph.mem_links_survivors hfilter hids).mp hmem
  have hself : key.agrees key = true := Scalar.agrees_trans hagrees (Scalar.agrees_symm hagrees)
  obtain ⟨last, hlast⟩ : ∃ last, graph.links.reverse.find? (fun l => l.id.agrees record.id &&
      holdsTrue (l.connects surviving)) = some last := by
    rw [← Option.isSome_iff_exists, List.find?_isSome]
    exact ⟨record, List.mem_reverse.mpr hlink, by simp [hkey, Json.agrees, hself, hconnects, holdsTrue]⟩
  obtain ⟨j, hj, hlink⟩ := lastIndex?_of_find? hlast
  exact ⟨j, last, hj, hlink⟩

end

/-- An input that no normalizer gave comes from a slot. -/
theorem slot_of_input (hnode : (compileNode options links surviving node).result = .ok out)
    {name : Scalar} {source : Source} (hinput : (name, source) ∈ out.inputs)
    (hsource : ¬ source.IsUpdate) : ∃ i slot,
      slotSource links surviving options.zeroIndex node.widgets i slot = .ok (some source) := by
  obtain ⟨type, inputs, -, -, hinputs, hnormal⟩ := compileNode_eq_ok.mp hnode
  obtain ⟨-, -, -, hmem⟩ := normalize_eq_ok hnormal
  rcases hmem _ hinput with hresolved | hupdate
  · rcases mem_resolveSlots hinputs hresolved with hnil | ⟨i, slot, -, hslot⟩
    · simp at hnil
    · exact ⟨i, slot, hslot⟩
  · exact absurd hupdate hsource

theorem widgetAt_container {widgets : Json} {position : Nat}
    (h : (widgetAt widgets position).isContainer = true) :
    ∃ values, widgets = .list values ∧ values[position]? = some (widgetAt widgets position) := by
  cases widgets with
  | list values =>
    refine ⟨values, rfl, ?_⟩
    cases hvalue : values[position]? with
    | none => simp [widgetAt, hvalue, Json.isReference, Json.reference?, Json.isContainer] at h
    | some w =>
      cases href : w.isReference with
      | true => simp [widgetAt, hvalue, href, Json.isContainer] at h
      | false => simp [widgetAt, hvalue, href]
  | _ => simp [widgetAt, Json.isContainer] at h

/-- A container that an input takes from a widget stands among the widgets. -/
theorem widget_of_input (hnode : (compileNode options links surviving node).result = .ok out)
    {name : Scalar} {position : Nat} {v : Json} (hinput : (name, .widget position v) ∈ out.inputs)
    (hcontainer : v.isContainer = true) :
    ∃ values, node.widgets = .list values ∧ values[position]? = some v := by
  obtain ⟨i, slot, hslot⟩ := slot_of_input hnode hinput (by simp [Source.IsUpdate])
  rcases slotSource_eq_ok hslot with ⟨link, -, heq⟩ | ⟨-, heq | heq⟩
  · simp at heq
  · simp at heq
  · obtain ⟨rfl, rfl⟩ := Source.widget.inj (Option.some.inj heq)
    exact widgetAt_container hcontainer

theorem link_of_input (hnode : (compileNode options links surviving node).result = .ok out)
    {name : Scalar} {record : Link} {output : Json}
    (hinput : (name, .link record output) ∈ out.inputs) :
    output = outputOf options.zeroIndex record ∧ ∃ id, Entries.get? id links = some record := by
  obtain ⟨i, slot, hslot⟩ := slot_of_input hnode hinput (by simp [Source.IsUpdate])
  rcases slotSource_eq_ok hslot with ⟨link, ⟨id, -, -, hget, -⟩, heq⟩ | ⟨-, heq | heq⟩
  · obtain ⟨rfl, rfl⟩ := Source.link.inj (Option.some.inj heq)
    exact ⟨rfl, id, hget⟩
  · simp at heq
  · simp at heq

end NodeWorkflow.Compile
