import NodeWorkflow.Proofs.Compile.Nodes
import NodeWorkflow.Proofs.Validation.Acyclic

/-!
# Links become references

In a well-formed editor graph every link ends at one slot, which holds its id. The references of the
compiled graph are exactly the links between nodes that survive, each at the input with the name of
its slot.
-/
namespace NodeWorkflow

namespace Editor

def Slot.Holds (slot : Slot) (link : Link) : Prop := slot.link.same link.id = true

def Link.LeadsTo (link : Link) (node : Node) (position : Nat) : Prop :=
  link.targetNode = node.id ∧ link.targetInput = .int position

/-- Ids and the sources of links are integers. No two nodes and no two links have one id, no two
slots of a node have one name, and a slot holds the ids of exactly the links that lead to it. -/
structure Graph.WellFormed (graph : Graph) : Prop where
  nodeIds : ∀ node ∈ graph.nodes, ∃ n, node.id = .int n
  linkIds : ∀ link ∈ graph.links, ∃ n, link.id = .int n
  sources : ∀ link ∈ graph.links, ∃ n, link.sourceNode = .int n
  distinctNodes : (graph.nodes.map Node.id).Nodup
  distinctLinks : (graph.links.map Link.id).Nodup
  distinctNames : ∀ node ∈ graph.nodes, Compile.DistinctNames node.slots
  held : ∀ node ∈ graph.nodes, ∀ (i : Nat) (slot : Slot), node.slots[i]? = some slot →
    ∀ link ∈ graph.links, slot.Holds link ↔ link.LeadsTo node i

end Editor

namespace Compile
open Editor

variable {options : Options} {graph filtered : Graph} {links : Entries Link}
  {surviving : List Scalar} {zeroIndex : Bool} {node target : Node} {slot : Slot} {link : Link}
  {inputs : Entries Source} {compiled : ExecutionNode} {out : ExecutionGraph}

theorem FedBy.unique {link' : Link} (h : FedBy links surviving slot link)
    (h' : FedBy links surviving slot link') : link = link' := by
  obtain ⟨id, hid, -, hget, -⟩ := h
  obtain ⟨id', hid', -, hget', -⟩ := h'
  obtain rfl : id = id' := by simpa [hid] using hid'
  exact Option.some.inj (hget.symm.trans hget')

/-- The references of a node whose slots have distinct names are the links that feed its slots. -/
theorem referenceAt?_resolveInputs
    (h : (resolveInputs links surviving zeroIndex node).result = .ok inputs)
    (hdistinct : DistinctNames node.slots) {name : Scalar} {r : Reference} :
    referenceAt? inputs name = some r ↔
      ∃ (i : Nat) (slot : Slot), node.slots[i]? = some slot ∧ Slot.IsNamed slot name ∧
        ∃ link, FedBy links surviving slot link ∧ r.node = link.sourceNode.text ∧
          .int r.output = outputOf zeroIndex link := by
  constructor
  · intro href
    obtain ⟨source, hget, hreference⟩ := Option.bind_eq_some_iff.mp href
    by_cases hnamed : ∃ slot ∈ node.slots, Slot.IsNamed slot name
    · obtain ⟨slot, hslot, hname⟩ := hnamed
      obtain ⟨i, hi⟩ := List.mem_iff_getElem?.mp hslot
      obtain ⟨found, hfound, hsource⟩ := get?_resolveSlots h hdistinct hi hname
      rw [hget, Entries.get?_nil, Option.or_none] at hsource
      rw [← hsource] at hfound
      refine ⟨i, slot, hi, hname, ?_⟩
      rcases slotSource_eq_ok hfound with ⟨link, hfed, heq⟩ | ⟨-, heq | heq⟩
      · rw [Option.some.inj heq, Validation.reference?_eq_some, Source.value,
          Json.list.injEq] at hreference
        simp only [List.cons.injEq, Json.scalar.injEq, Scalar.str.injEq, and_true] at hreference
        exact ⟨link, hfed, hreference.1.symm, hreference.2.symm⟩
      · simp at heq
      · rw [Option.some.inj heq, Source.value, widgetAt_not_reference] at hreference
        simp at hreference
    · push Not at hnamed
      rw [get?_resolveSlots_of_unnamed h hnamed, Entries.get?_nil] at hget
      simp at hget
  · rintro ⟨i, slot, hi, hname, link, hfed, hnode, houtput⟩
    obtain ⟨found, hfound, hget⟩ := get?_resolveSlots h hdistinct hi hname
    rcases slotSource_eq_ok hfound with ⟨link', hfed', rfl⟩ | ⟨hnone, -⟩
    · rw [referenceAt?, hget, Option.some_or, Option.bind_some, Validation.reference?_eq_some,
        Source.value, hfed'.unique hfed, hnode, houtput]
    · exact absurd hfed (hnone link)

theorem isAmong_int (hids : filtered.nodeIds = .ok surviving)
    (hints : ∀ node ∈ filtered.nodes, ∃ n, node.id = .int n) {v : Json} (hv : ∃ n, v = .int n) :
    isAmong v surviving = .ok true ↔ ∃ node ∈ filtered.nodes, node.id = v := by
  obtain ⟨n, rfl⟩ := hv
  rw [Graph.isAmong_nodeIds hids]
  constructor
  · rintro ⟨a, ha, node, hnode, id, hid, hagrees⟩
    obtain ⟨m, hm⟩ := hints node hnode
    rw [hm, Json.scalar.injEq] at hid
    rw [Json.scalar.injEq] at ha
    rw [← hid, ← ha, Scalar.agrees_int, beq_iff_eq] at hagrees
    exact ⟨node, hnode, by rw [hm, hagrees]⟩
  · rintro ⟨node, hnode, hid⟩
    exact ⟨.int n, rfl, node, hnode, .int n, hid, by simp⟩

theorem same_int_iff {v : Json} {n : Int} :
    v.same (.int n) = true ↔ ∃ a, v = .scalar a ∧ a.agrees (.int n) = true := by
  cases v with
  | scalar a => cases a <;> simp [Json.same, Scalar.agrees]
  | _ => simp [Json.same, Json.agrees]

/-- A slot of a node that survives is fed by the link that leads to it, if its source survives. -/
theorem fedBy_iff (hwf : graph.WellFormed)
    (hfilter : graph.survivors options.uiTypes = .ok filtered)
    (hids : filtered.nodeIds = .ok surviving) (hlinks : filtered.linksById = .ok links)
    (htarget : target ∈ filtered.nodes) {i : Nat} (hslot : target.slots[i]? = some slot) :
    FedBy links surviving slot link ↔ link ∈ graph.links ∧ link.LeadsTo target i ∧
      ∃ source ∈ filtered.nodes, source.id = link.sourceNode := by
  have hints : ∀ node ∈ filtered.nodes, ∃ n, node.id = .int n := fun node hnode =>
    hwf.nodeIds node ((Graph.mem_nodes_survivors hfilter).mp hnode).1
  have hheld := hwf.held target ((Graph.mem_nodes_survivors hfilter).mp htarget).1 i slot hslot
  constructor
  · rintro ⟨id, hid, -, hget, hamong⟩
    obtain ⟨hlink, key, hkey, hagrees⟩ := Graph.get?_linksById hlinks hget
    rw [Graph.mem_links_survivors hfilter hids] at hlink
    obtain ⟨n, hn⟩ := hwf.linkIds link hlink.1
    refine ⟨hlink.1, (hheld link hlink.1).mp ?_, ?_⟩
    · rw [hn, Json.scalar.injEq] at hkey
      rw [Slot.Holds, hn, same_int_iff]
      exact ⟨id, hid, hkey ▸ Scalar.agrees_symm hagrees⟩
    · exact (isAmong_int hids hints (hwf.sources link hlink.1)).mp hamong
  · rintro ⟨hlink, hleads, hsource⟩
    obtain ⟨n, hn⟩ := hwf.linkIds link hlink
    have hholds := (hheld link hlink).mpr hleads
    rw [Slot.Holds, hn, same_int_iff] at hholds
    obtain ⟨id, hid, hagrees⟩ := hholds
    have hamong : isAmong link.sourceNode surviving = .ok true :=
      (isAmong_int hids hints (hwf.sources link hlink)).mpr hsource
    have htargeted : isAmong link.targetNode surviving = .ok true := by
      rw [hleads.1]
      exact (isAmong_int hids hints (hints target htarget)).mpr ⟨target, htarget, rfl⟩
    have hfiltered : link ∈ filtered.links :=
      (Graph.mem_links_survivors hfilter hids).mpr
        ⟨hlink, Link.connects_eq_true.mpr ⟨hamong, htargeted⟩⟩
    refine ⟨id, hid, ?_, ?_, hamong⟩
    · rintro rfl
      simp [Scalar.agrees, Scalar.same, Scalar.int?] at hagrees
    · rw [Entries.get?_congr hagrees]
      refine Graph.get?_linksById_of_mem hlinks hfiltered hn (by simp) ?_
      -- Links with ids of their own do not replace one another in the index.
      intro other hother key hkey hkeyagrees
      have hmem := ((Graph.mem_links_survivors hfilter hids).mp hother).1
      obtain ⟨m, hm⟩ := hwf.linkIds other hmem
      rw [hm, Json.scalar.injEq] at hkey
      rw [← hkey, Scalar.agrees_int, beq_iff_eq] at hkeyagrees
      exact List.inj_on_of_nodup_map hwf.distinctLinks hmem hlink (by rw [hm, hn, hkeyagrees])

def inputAt (workflow : Json) (id : String) (name : Scalar) : Option Json :=
  (workflow.field? id).bind fun node => Entries.get? name node.nodeInputs

theorem inputAt_compiled {id : String} (h : Entries.get? (.str id) out = some compiled)
    (name : Scalar) :
    inputAt out.toJson id name = (Entries.get? name compiled.inputs).map Source.value := by
  have hnode : out.toJson.field? id = some compiled.toJson := by
    rw [out.toJson_eq, Json.field?, ExecutionGraph.entries, Entries.get?_map, h]
    rfl
  rw [inputAt, hnode, Option.bind_some, ExecutionNode.nodeInputs_toJson, get?_inputValues]

theorem inputAt_eq_reference {id : String} {name : Scalar} {s : String} {k : Int}
    (h : Entries.get? (.str id) out = some compiled) :
    inputAt out.toJson id name = some (.list [.str s, .int k]) ↔
      referenceAt? compiled.inputs name = some ⟨s, k⟩ := by
  rw [inputAt_compiled h, referenceAt?, Option.bind_eq_some_iff, Option.map_eq_some_iff]
  simp only [Validation.reference?_eq_some]

/-- The references of a compiled graph are exactly the links between nodes that survive, with the
output of the link or, if outputs do not count, the first one. -/
theorem references_of_compiled_graph (hwf : graph.WellFormed)
    (hkeeps : ∀ e ∈ options.normalizers, e.2.KeepsLinks)
    (h : (compileGraph options graph).result = .ok out) (htarget : target ∈ graph.nodes)
    (hsurvives : Graph.Survives options.uiTypes target) (name : Scalar) (s : String) (k : Int) :
    inputAt out.toJson target.id.text name = some (.list [.str s, .int k]) ↔
      ∃ link ∈ graph.links, ∃ (i : Nat) (slot : Slot),
        target.slots[i]? = some slot ∧ Slot.IsNamed slot name ∧
        link.LeadsTo target i ∧ ∃ source ∈ graph.nodes,
          Graph.Survives options.uiTypes source ∧ source.id = link.sourceNode ∧
            s = source.id.text ∧ .int k = outputOf options.zeroIndex link := by
  obtain ⟨filtered, surviving, links, hfilter, hids, hlinks, hnodes⟩ := compileGraph_eq_ok.mp h
  have hfiltered : target ∈ filtered.nodes :=
    (Graph.mem_nodes_survivors hfilter).mpr ⟨htarget, hsurvives⟩
  obtain ⟨last, hlast, htext, compiled, hcompiled, hget⟩ :=
    get?_compileNodes hnodes ⟨target, hfiltered, rfl⟩
  obtain rfl : last = target := by
    have hmem := ((Graph.mem_nodes_survivors hfilter).mp hlast).1
    obtain ⟨m, hm⟩ := hwf.nodeIds last hmem
    obtain ⟨n, hn⟩ := hwf.nodeIds target htarget
    rw [hm, hn] at htext
    have hmn : m = n := Scalar.text_int_inj.mp htext
    exact List.inj_on_of_nodup_map hwf.distinctNodes hmem htarget (by rw [hm, hn, hmn])
  obtain ⟨type, inputs, -, -, hinputs, hnormal⟩ := compileNode_eq_ok.mp hcompiled
  rw [inputAt_eq_reference hget, referenceAt?_normalize hkeeps hnormal,
    referenceAt?_resolveInputs hinputs (hwf.distinctNames last htarget)]
  constructor
  · rintro ⟨i, slot, hslot, hname, link, hfed, hnode, houtput⟩
    obtain ⟨hlink, hleads, source, hsource, hid⟩ :=
      (fedBy_iff hwf hfilter hids hlinks hfiltered hslot).mp hfed
    obtain ⟨hmem, hstays⟩ := (Graph.mem_nodes_survivors hfilter).mp hsource
    exact ⟨link, hlink, i, slot, hslot, hname, hleads, source, hmem, hstays, hid, hid ▸ hnode,
      houtput⟩
  · rintro ⟨link, hlink, i, slot, hslot, hname, hleads, source, hmem, hstays, hid, hnode, houtput⟩
    have hsource : source ∈ filtered.nodes :=
      (Graph.mem_nodes_survivors hfilter).mpr ⟨hmem, hstays⟩
    refine ⟨i, slot, hslot, hname, link, ?_, hid ▸ hnode, houtput⟩
    exact (fedBy_iff hwf hfilter hids hlinks hfiltered hslot).mpr
      ⟨hlink, hleads, source, hsource, hid⟩

/-- A link between nodes that stay, and a link from a node that is dropped. -/
theorem references_of_filtered_graph :
    let clip : Slot := ⟨.str "clip", .int 1, .null⟩
    let text : Slot := ⟨.str "text", .int 2, .null⟩
    let encoder : Node :=
      ⟨.int 5, .str "CLIPTextEncode", [clip, text], .list [.null, .str "v"], .null⟩
    let loader : Node := ⟨.int 4, .str "Loader", [], .null, .null⟩
    let note : Node := ⟨.int 9, .str "Note", [], .null, .null⟩
    let kept : Link := ⟨.int 1, .int 4, .int 1, .int 5, .int 0, .null⟩
    let dropped : Link := ⟨.int 2, .int 9, .int 0, .int 5, .int 1, .null⟩
    let graph : Graph := ⟨[loader, encoder, note], [kept, dropped]⟩
    let options : Options := ⟨[.str "Note"], [("CLIPTextEncode", .byName [.str "clip"] false)], false⟩
    ∃ out, (compileGraph options graph).result = .ok out ∧ graph.WellFormed ∧
      (∀ e ∈ options.normalizers, e.2.KeepsLinks) ∧
      inputAt out.toJson "5" (.str "clip") = some (.list [.str "4", .int 1]) ∧
      ∀ s k, inputAt out.toJson "5" (.str "text") ≠ some (.list [.str s, .int k]) := by
  intro clip text encoder loader note kept dropped graph options
  have hnames (name : Scalar) (hclip : Slot.IsNamed clip name) : ¬ Slot.IsNamed text name := by
    rintro ⟨l, hl, htext⟩
    obtain ⟨k, hk, hclip⟩ := hclip
    have hsame := Scalar.agrees_trans hclip (Scalar.agrees_symm htext)
    rw [← Json.scalar.inj hk, ← Json.scalar.inj hl] at hsame
    simp at hsame
  have hwf : graph.WellFormed := by
    constructor
    case held =>
      simp only [graph, List.mem_cons, List.not_mem_nil, or_false, forall_eq_or_imp, forall_eq]
      refine ⟨by simp [loader], ?_, by simp [note]⟩
      rintro (_ | _ | i) slot hslot <;> simp [encoder] at hslot <;> subst hslot <;>
        simp [Slot.Holds, Link.LeadsTo, Json.same, Scalar.same, Scalar.int?, clip, text, kept,
          dropped, encoder]
    case distinctNames =>
      simpa [graph, loader, encoder, note, DistinctNames] using hnames
    all_goals simp [graph, loader, encoder, note, kept, dropped]
  have hkeeps : ∀ e ∈ options.normalizers, e.2.KeepsLinks := by
    simp [options, Normalizer.KeepsLinks]
  obtain ⟨out, hout⟩ : ∃ out, (compileGraph options graph).result = .ok out := ⟨_, rfl⟩
  have hreferences := references_of_compiled_graph hwf hkeeps hout
    (show encoder ∈ graph.nodes by simp [graph]) (by rfl)
  refine ⟨out, hout, hwf, hkeeps, (hreferences _ _ _).mpr ?_, fun s k h => ?_⟩
  · exact ⟨kept, by simp [graph], 0, clip, rfl, ⟨_, rfl, by decide⟩, ⟨rfl, rfl⟩, loader,
      by simp [graph], by rfl, rfl, by decide, rfl⟩
  · obtain ⟨link, hlink, i, slot, hslot, hname, hleads, source, hsource, hstays, hid, -⟩ :=
      (hreferences _ _ _).mp h
    simp only [graph, List.mem_cons, List.not_mem_nil, or_false] at hlink hsource
    rcases hlink with rfl | rfl
    · have hi : i = 0 := by simpa [Link.LeadsTo, kept] using hleads.2.symm
      obtain rfl : clip = slot := by simpa [hi, encoder] using hslot
      exact hnames _ hname ⟨_, rfl, by decide⟩
    · rcases hsource with rfl | rfl | rfl
      · simp [loader, dropped] at hid
      · simp [encoder, dropped] at hid
      · simp [Graph.Survives, isAmong_eq_ok, note, options] at hstays

end Compile
end NodeWorkflow
