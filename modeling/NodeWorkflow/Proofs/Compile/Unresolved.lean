import NodeWorkflow.Proofs.Compile.Links
import NodeWorkflow.Proofs.Compile.Refusal
import NodeWorkflow.Proofs.Compile.Supply

/-!
# What is reported of slots without a value

A slot is reported as unresolved when no link and no widget at its position gives it a value. The
normalizer comes later and may supply the input after all; the report then says of an input that is
there that it was left out.
-/
namespace NodeWorkflow.Compile
open Editor

structure Inlet where
  node : Node
  slot : Slot
  position : Nat

/-- The slots of nodes, in the order of the nodes and of the slots of each. -/
def inlets (nodes : List Node) : List Inlet :=
  nodes.flatMap fun node => node.slots.zipIdx.map fun e => ⟨node, e.1, e.2⟩

theorem inlets_cons (node : Node) (nodes : List Node) : inlets (node :: nodes) =
    (node.slots.zipIdx.map fun e => ⟨node, e.1, e.2⟩) ++ inlets nodes :=
  List.flatMap_cons

theorem inlets_append (nodes more : List Node) :
    inlets (nodes ++ more) = inlets nodes ++ inlets more :=
  List.flatMap_append

theorem mem_inlets {nodes : List Node} {inlet : Inlet} : inlet ∈ inlets nodes ↔
    inlet.node ∈ nodes ∧ inlet.node.slots[inlet.position]? = some inlet.slot := by
  simp only [inlets, List.mem_flatMap, List.mem_map, List.mem_zipIdx_iff_getElem?]
  constructor
  · rintro ⟨node, hnode, e, hslot, rfl⟩
    exact ⟨hnode, hslot⟩
  · rintro ⟨hnode, hslot⟩
    exact ⟨inlet.node, hnode, (inlet.slot, inlet.position), hslot, rfl⟩

namespace Inlet

def report (inlet : Inlet) : String :=
  (Event.unresolved inlet.node.id inlet.node.type inlet.slot.name).text

/-- No link that stays leads to the slot, and its node has no widget value for it. -/
def Unfed (uiTypes : List Scalar) (graph : Graph) (inlet : Inlet) : Prop :=
  ¬ Feeds uiTypes graph inlet.slot ∧ (widgetAt inlet.node.widgets inlet.position).isNull

/-- The normalizer of the class of the node supplies the input with the name of the slot. -/
def Supplied (options : Options) (inlet : Inlet) : Prop :=
  ∃ type normalizer name, inlet.node.type = .scalar type ∧
    options.normalizer? type = some normalizer ∧ inlet.slot.name = .str name ∧
    normalizer.Supplies inlet.node.widgets name

def Omitted (workflow : Json) (inlet : Inlet) : Prop :=
  ∀ name, inlet.slot.name = .scalar name → inputAt workflow inlet.node.id.text name = none

end Inlet

variable {options : Options} {links : Entries Link} {surviving : List Scalar} {zeroIndex : Bool}
  {node : Node} {nodes : List Node} {slot : Slot} {slots : List Slot} {position : Nat}
  {inputs stored : Entries Source} {source : Option Source} {compiled : ExecutionNode}
  {done out : ExecutionGraph} {graph filtered : Graph}

theorem warnings_slotEvents (node : Node) (slot : Slot) (source : Option Source) :
    Event.warnings (slotEvents node slot source) =
      if source.isSome then [] else [(Event.unresolved node.id node.type slot.name).text] := by
  cases source with
  | none => rfl
  | some source => cases source with
    | widget position v =>
      unfold slotEvents
      cases slot.widget.isNull <;> rfl
    | _ => rfl

theorem warnings_resolveSlots_cons
    (hsource : slotSource links surviving zeroIndex node.widgets position slot = .ok source)
    (hstored : storeSource inputs slot source = .ok stored) :
    (resolveSlots links surviving zeroIndex node position (slot :: slots) inputs).warnings =
      Event.warnings (slotEvents node slot source) ++
        (resolveSlots links surviving zeroIndex node (position + 1) slots stored).warnings := by
  rw [resolveSlots, hsource, Traced.lift_ok_bind, Traced.warnings_bind (Traced.result_report _),
    hstored, Traced.lift_ok_bind]
  rfl

open Classical in
/-- Slots that get no value are reported in order. -/
theorem warnings_resolveSlots
    (h : (resolveSlots links surviving zeroIndex node position slots inputs).result = .ok stored) :
    (resolveSlots links surviving zeroIndex node position slots inputs).warnings =
      ((slots.zipIdx position).filter fun e =>
        ¬ GetsValue links surviving node.widgets e.2 e.1).map fun e =>
          (⟨node, e.1, e.2⟩ : Inlet).report := by
  induction slots generalizing position inputs with
  | nil => rfl
  | cons slot slots ih =>
    obtain ⟨source, next, hsource, hnext, hrest⟩ := resolveSlots_cons.mp h
    have hvalue := isSome_slotSource hsource
    rw [warnings_resolveSlots_cons hsource hnext, warnings_slotEvents, ih hrest, List.zipIdx_cons]
    by_cases hgets : GetsValue links surviving node.widgets position slot
    · simp [hvalue.mpr hgets, hgets]
    · rw [if_neg (mt hvalue.mp hgets)]
      simp [hgets, Inlet.report]

theorem warnings_compileNode
    (h : (compileNode options links surviving node).result = .ok compiled) :
    (compileNode options links surviving node).warnings =
      (resolveInputs links surviving options.zeroIndex node).warnings := by
  obtain ⟨type, inputs, htype, htruthy, hinputs, hnormal⟩ := compileNode_eq_ok.mp h
  have hkey : node.type.key = .ok type := Json.key_eq_ok.mpr htype
  have hclass : node.type.truthy = true := by rw [htype, Json.truthy, htruthy]
  rw [compileNode, if_neg (by simp [hclass]), hkey, Traced.lift_ok_bind,
    Traced.warnings_bind hinputs, hnormal]
  exact List.append_nil _

open Classical in
theorem warnings_compileNodes
    (h : (compileNodes options links surviving nodes done).result = .ok out) :
    (compileNodes options links surviving nodes done).warnings =
      ((inlets nodes).filter fun inlet =>
        ¬ GetsValue links surviving inlet.node.widgets inlet.position inlet.slot).map
          Inlet.report := by
  induction nodes generalizing done with
  | nil => rfl
  | cons node nodes ih =>
    obtain ⟨compiled, hnode, hrest⟩ := compileNodes_cons.mp h
    obtain ⟨type, inputs, -, -, hinputs, -⟩ := compileNode_eq_ok.mp hnode
    rw [compileNodes, Traced.warnings_bind hnode, warnings_compileNode hnode, resolveInputs,
      warnings_resolveSlots hinputs, ih hrest, inlets_cons, List.filter_append,
      List.map_append, List.filter_map, List.map_map]
    rfl

theorem warnings_filter (graph : Graph) (uiTypes : List Scalar) :
    (graph.filter uiTypes).warnings = [] := by
  unfold Graph.filter
  split
  · rfl
  · change Event.warnings (Graph.filterEvents _ _) = []
    unfold Graph.filterEvents
    dsimp only
    split <;> rfl

section Filtered

variable (hfiltered : graph.survivors options.uiTypes = .ok filtered)
  (hids : filtered.nodeIds = .ok surviving) (hlinks : filtered.linksById = .ok links)
include hfiltered hids hlinks

theorem unfed_iff {inlet : Inlet} : inlet.Unfed options.uiTypes graph ↔
    ¬ GetsValue links surviving inlet.node.widgets inlet.position inlet.slot := by
  rw [Inlet.Unfed, GetsValue, exists_fedBy hfiltered hids hlinks, not_or, Bool.not_eq_false]

end Filtered

open Classical in
/-- The warnings of a compilation are the reports of the slots that nothing feeds. -/
theorem warnings_compileGraph (h : (compileGraph options graph).result = .ok out) :
    (compileGraph options graph).warnings =
      ((inlets (graph.kept options.uiTypes)).filter
        fun inlet => inlet.Unfed options.uiTypes graph).map Inlet.report := by
  obtain ⟨filtered, surviving, links, hfiltered, hids, hlinks, hnodes⟩ := compileGraph_eq_ok.mp h
  have hresult : (graph.filter options.uiTypes).result = .ok filtered :=
    Graph.result_filter.trans hfiltered
  rw [compileGraph, Traced.warnings_bind hresult, warnings_filter, hids, Traced.lift_ok_bind,
    hlinks, Traced.lift_ok_bind, Traced.warnings_bind hnodes, warnings_compileNodes hnodes,
    ← Graph.nodes_survivors hfiltered]
  simp only [unfed_iff hfiltered hids hlinks]
  exact List.append_nil _

/-- Ids are integers and names of slots are texts; no two nodes have one id, and no two slots of a
node have one name. -/
structure Named (graph : Graph) : Prop where
  ids : ∀ node ∈ graph.nodes, ∃ n, node.id = .int n
  names : ∀ node ∈ graph.nodes, ∀ slot ∈ node.slots, ∃ s, slot.name = .str s
  distinctIds : (graph.nodes.map Node.id).Nodup
  distinctNames : ∀ node ∈ graph.nodes, (node.slots.map Slot.name).Nodup

namespace Named

variable (hnamed : Named graph)
include hnamed

theorem distinctSlots (hnode : node ∈ graph.nodes) : DistinctNames node.slots := by
  have hdistinct := hnamed.distinctNames node hnode
  rw [List.nodup_iff_pairwise_ne, List.pairwise_map] at hdistinct
  refine hdistinct.imp_of_mem fun {first second} hfirst hsecond hne name hname hname' => hne ?_
  obtain ⟨s, hs⟩ := hnamed.names node hnode first hfirst
  obtain ⟨t, ht⟩ := hnamed.names node hnode second hsecond
  obtain ⟨k, hk, hagrees⟩ := hname
  obtain ⟨l, hl, hagrees'⟩ := hname'
  rw [hs, Json.scalar.injEq] at hk
  rw [ht, Json.scalar.injEq] at hl
  subst hk hl
  have hst : Scalar.str s = .str t :=
    Scalar.agrees_str_iff.mp (Scalar.agrees_trans hagrees (Scalar.agrees_symm hagrees'))
  exact hs.trans ((congrArg Json.scalar hst).trans ht.symm)

theorem exists_compiled (hnode : node ∈ graph.kept options.uiTypes)
    (hnodes : (compileNodes options links surviving (graph.kept options.uiTypes) []).result =
      .ok out) :
    ∃ compiled, (compileNode options links surviving node).result = .ok compiled ∧
      Entries.get? (.str node.id.text) out = some compiled := by
  have hmem (other : Node) (hother : other ∈ graph.kept options.uiTypes) : other ∈ graph.nodes :=
    List.mem_of_mem_filter hother
  obtain ⟨last, hlast, htext, compiled, hcompiled, hget⟩ :=
    get?_compileNodes hnodes ⟨node, hnode, rfl⟩
  obtain ⟨m, hm⟩ := hnamed.ids last (hmem last hlast)
  obtain ⟨n, hn⟩ := hnamed.ids node (hmem node hnode)
  have hid : last.id = node.id := by
    rw [hm, hn] at htext ⊢
    rw [Scalar.text_int_inj.mp htext]
  obtain rfl : last = node :=
    List.inj_on_of_nodup_map hnamed.distinctIds (hmem last hlast) (hmem node hnode) hid
  exact ⟨compiled, hcompiled, hget⟩

/-- The input of a slot is left out if nothing feeds the slot and nothing supplies the input. -/
theorem omitted_iff (hnormalizers : ∀ e ∈ options.normalizers, e.2.GoesByNames)
    (h : (compileGraph options graph).result = .ok out) {inlet : Inlet}
    (hinlet : inlet ∈ inlets (graph.kept options.uiTypes)) : inlet.Omitted out.toJson ↔
      inlet.Unfed options.uiTypes graph ∧ ¬ inlet.Supplied options := by
  obtain ⟨filtered, surviving, links, hfiltered, hids, hlinks, hnodes⟩ := compileGraph_eq_ok.mp h
  rw [Graph.nodes_survivors hfiltered] at hnodes
  obtain ⟨hnode, hslot⟩ := mem_inlets.mp hinlet
  have hmem : inlet.node ∈ graph.nodes := List.mem_of_mem_filter hnode
  obtain ⟨name, hname⟩ := hnamed.names inlet.node hmem inlet.slot (List.mem_of_getElem? hslot)
  obtain ⟨compiled, hcompiled, hget⟩ := hnamed.exists_compiled hnode hnodes
  obtain ⟨type, inputs, htype, -, hinputs, hnormal⟩ := compileNode_eq_ok.mp hcompiled
  have hisNamed : Slot.IsNamed inlet.slot (.str name) := ⟨_, hname, by simp⟩
  obtain ⟨source, hsource, hinput⟩ :=
    get?_resolveSlots hinputs (hnamed.distinctSlots hmem) hslot hisNamed
  rw [Nat.zero_add] at hsource
  rw [Entries.get?_nil, Option.or_none] at hinput
  have hunfed : inlet.Unfed options.uiTypes graph ↔ source = none := by
    rw [unfed_iff hfiltered hids hlinks, ← isSome_slotSource hsource,
      Option.not_isSome_iff_eq_none]
  have hsupplied : inlet.Supplied options ↔ ∃ normalizer,
      options.normalizer? type = some normalizer ∧
        normalizer.Supplies inlet.node.widgets name := by
    simp [Inlet.Supplied, htype, hname]
  have homitted : inlet.Omitted out.toJson ↔ Entries.get? (.str name) compiled.inputs = none := by
    simp [Inlet.Omitted, hname, inputAt_compiled hget]
  rw [homitted, get?_normalize_eq_none hnormalizers hnormal, hinput, hunfed, hsupplied]
  simp

end Named

open Classical in
/-- Every input that is left out is reported, in order. The reports are those of the inputs left out
if and only if no normalizer supplies an input that was reported before. -/
theorem unresolved_warnings_iff (hnamed : Named graph)
    (hnormalizers : ∀ e ∈ options.normalizers, e.2.GoesByNames)
    (h : (compileGraph options graph).result = .ok out) :
    let run := compileGraph options graph
    let all := inlets (graph.kept options.uiTypes)
    let reported := all.filter fun inlet => inlet.Unfed options.uiTypes graph
    let omitted := all.filter fun inlet => inlet.Omitted out.toJson
    run.warnings = reported.map Inlet.report ∧
      omitted = reported.filter (fun inlet => ¬ inlet.Supplied options) ∧
      (run.warnings = omitted.map Inlet.report ↔ ∀ inlet ∈ reported, ¬ inlet.Supplied options) := by
  intro run all reported omitted
  have hwarnings : run.warnings = reported.map Inlet.report := warnings_compileGraph h
  have hboth (inlet : Inlet) (hinlet : inlet ∈ all) : inlet.Omitted out.toJson ↔
      inlet.Unfed options.uiTypes graph ∧ ¬ inlet.Supplied options :=
    hnamed.omitted_iff hnormalizers h hinlet
  have homitted : omitted = reported.filter (fun inlet => ¬ inlet.Supplied options) := by
    rw [List.filter_filter]
    refine List.filter_congr fun inlet hinlet => ?_
    simp [hboth inlet hinlet, and_comm]
  refine ⟨hwarnings, homitted, fun hsame => ?_, fun hnone => ?_⟩
  · have hlength : omitted.length = reported.length := by
      simpa [hwarnings] using congrArg List.length hsame.symm
    rw [homitted] at hlength
    have hall := List.filter_eq_self.mp (List.filter_sublist.eq_of_length hlength)
    simpa using hall
  · have hall : reported.filter (fun inlet => ¬ inlet.Supplied options) = reported :=
      List.filter_eq_self.mpr fun inlet hinlet => by simpa using hnone inlet hinlet
    rw [hwarnings, homitted, hall]

open Classical in
/-- A text that only the normalizer knows how to place is reported as missing. -/
theorem supplied_text_reported :
    let clip : Slot := ⟨.str "clip", .int 3, .null⟩
    let text : Slot := ⟨.str "text", .null, .null⟩
    let loader : Node := ⟨.int 4, .str "CheckpointLoaderSimple", [], .null, .null⟩
    let encoder : Node :=
      ⟨.int 6, .str "CLIPTextEncode", [clip, text], .list [.str "a cat"], .null⟩
    let link : Link := ⟨.int 3, .int 4, .int 1, .int 6, .int 0, .str "CLIP"⟩
    let graph : Graph := ⟨[loader, encoder], [link]⟩
    let options : Options := ⟨[], Normalizer.standard, false⟩
    let run := compileGraph options graph
    ∃ out, run.result = .ok out ∧
      inputAt out.toJson "6" (.str "text") = some (.str "a cat") ∧
      run.warnings = ["Node 6 (CLIPTextEncode): input 'text' left unresolved"] ∧
      run.warnings ≠ ((inlets (graph.kept [])).filter
        fun inlet => inlet.Omitted out.toJson).map Inlet.report := by
  intro clip text loader encoder link graph options run
  have hnamed : Named graph := by
    constructor <;> simp [graph, loader, encoder, clip, text]
  have hnormalizers : ∀ e ∈ options.normalizers, e.2.GoesByNames := fun _ he =>
    Normalizer.goesByNames_standard he
  obtain ⟨out, hout⟩ : ∃ out, run.result = .ok out := ⟨_, rfl⟩
  have hinput : inputAt out.toJson "6" (.str "text") = some (.str "a cat") := by
    obtain rfl := Except.ok.inj hout
    decide +kernel
  refine ⟨out, hout, hinput, by decide +kernel, ?_⟩
  rw [Ne, (unresolved_warnings_iff hnamed hnormalizers hout).2.2]
  intro hnone
  refine hnone ⟨encoder, text, 1⟩ (List.mem_filter.mpr ⟨?_, ?_⟩) ?_
  · exact mem_inlets.mpr ⟨by decide +kernel, rfl⟩
  · have hunfed : Inlet.Unfed [] graph ⟨encoder, text, 1⟩ := by
      refine ⟨?_, rfl⟩
      rintro ⟨_, _, _, _, _, id, _, hid, hne, _⟩
      exact hne (Json.scalar.inj hid).symm
    simpa using hunfed
  · exact ⟨.str "CLIPTextEncode", .byName [.str "text"] false, "text", rfl, rfl, rfl,
      [.str "a cat"], rfl, .str "a cat", by simp [Normalizer.names], rfl⟩

end NodeWorkflow.Compile
