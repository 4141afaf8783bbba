import NodeWorkflow.Proofs.Compile.Merging
import NodeWorkflow.Proofs.Compile.Slots
import NodeWorkflow.Proofs.Compile.Stages
import NodeWorkflow.Proofs.Summary

/-!
# Clip types of compiled loaders

A summary advises against a clip type that is out of date. In a workflow that is compiled with the
normalizers that come with the editor no loader of two clips has it, whether a slot took it by its
position or it stood among the widgets by name; a type that comes through a link stays the link.
-/
namespace NodeWorkflow.Compile
open Editor
open Summary (LegacyDual dualLoader)

variable {options : Options} {links : Entries Link} {surviving uiTypes : List Scalar}
  {zeroIndex : Bool} {node : Node} {link : Link} {graph filtered : Graph} {out : ExecutionGraph}
  {compiled : ExecutionNode} {levels : Nat} {w : Json}

/-- A loader of two clips takes its type from a link. It stays, and is the last node of those that
stay under its id; the link leads to a slot for the type, and no later slot for it gives a value. -/
structure TypedByLink (uiTypes : List Scalar) (zeroIndex : Bool) (graph : Graph) (node : Node)
    (link : Link) : Prop where
  loader : node.type = .str dualLoader
  stored : ∃ before after, graph.kept uiTypes = before ++ node :: after ∧
    ∀ later ∈ after, later.id.text ≠ node.id.text
  linked : ∃ filtered ids i slot, graph.survivors uiTypes = .ok filtered ∧
    filtered.nodeIds = .ok ids ∧ node.slots[i]? = some slot ∧ slot.name = .str "type" ∧
    Slot.Linked filtered.links ids slot link ∧
    ∀ j later, i < j → node.slots[j]? = some later → later.name = .str "type" →
      ¬ Resolvable filtered.links ids zeroIndex node j later

theorem legacyDual_toJson_iff : LegacyDual compiled.toJson ↔
    compiled.type = .str dualLoader ∧ compiled.input? (.str "type") = some (.str "dual") := by
  simp [LegacyDual, compiled.field?_class, compiled.field?_inputs, ExecutionNode.input?]

/-- A loader of two clips is compiled by the normalizer for them. -/
theorem exists_merge_of_loader
    (hnormalizer : options.normalizer? (.str dualLoader) = some .dualClip)
    (h : (compileNode options links surviving node).result = .ok compiled)
    (hloader : node.type = .str dualLoader) :
    ∃ inputs, (resolveInputs links surviving options.zeroIndex node).result = .ok inputs ∧
      Normalizer.dualClip.merge ⟨.str dualLoader, inputs, node.widgets, node.title⟩ =
        .ok compiled := by
  obtain ⟨type, inputs, htype, -, hinputs, hnormal⟩ := compileNode_eq_ok.mp h
  obtain rfl : type = .str dualLoader := Json.scalar.inj (htype.symm.trans hloader)
  rw [normalize_of_normalizer hnormalizer] at hnormal
  exact ⟨inputs, hinputs, hnormal⟩

theorem not_legacyDual_compileNode
    (hnormalizer : options.normalizer? (.str dualLoader) = some .dualClip)
    (h : (compileNode options links surviving node).result = .ok compiled) :
    ¬ LegacyDual compiled.toJson := by
  rw [legacyDual_toJson_iff]
  rintro ⟨hloader, hdual⟩
  obtain ⟨inputs, -, hmerge⟩ := exists_merge_of_loader hnormalizer h
    ((type_compileNode h).trans (congrArg Json.scalar hloader))
  exact Normalizer.clipType_merged hmerge hdual

theorem TypedByLink.exists_compiled (h : TypedByLink uiTypes zeroIndex graph node link)
    (hnodes : (compileNodes options links surviving (graph.kept uiTypes) []).result = .ok out) :
    ∃ compiled, (compileNode options links surviving node).result = .ok compiled ∧
      Entries.get? (.str node.id.text) out = some compiled := by
  obtain ⟨before, after, hsplit, hafter⟩ := h.stored
  refine get?_compileNodes_last hnodes ?_
  have hnone : after.reverse.find? (fun later => later.id.text == node.id.text) = none := by
    simpa using hafter
  rw [hsplit, List.reverse_append, List.reverse_cons, List.find?_append, List.find?_append, hnone]
  simp

/-- A type that comes through a link is the same reference after the normalizer. -/
theorem inputAt_of_typedByLink {k : Int}
    (hnormalizer : options.normalizer? (.str dualLoader) = some .dualClip)
    (hout : (compileGraph options graph).result = .ok out)
    (h : TypedByLink options.uiTypes options.zeroIndex graph node link)
    (houtput : outputOf options.zeroIndex link = .int k) :
    inputAt out.toJson node.id.text (.str "type") =
      some (.list [.str link.sourceNode.text, .int k]) := by
  obtain ⟨filtered, surviving, links, hfiltered, hids, hlinks, hnodes⟩ := compileGraph_eq_ok.mp hout
  obtain ⟨filtered', ids, i, slot, hfiltered', hids', hslot, hname, hlinked, hlast⟩ := h.linked
  obtain rfl := Except.ok.inj (hfiltered.symm.trans hfiltered')
  obtain rfl := Except.ok.inj (hids.symm.trans hids')
  rw [Graph.nodes_survivors hfiltered] at hnodes
  obtain ⟨compiled, hcompiled, hget⟩ := h.exists_compiled hnodes
  obtain ⟨inputs, hinputs, hmerge⟩ := exists_merge_of_loader hnormalizer hcompiled h.loader
  have hvalue := get?_resolveAmong_last (resolveAmong_eq_ok.mpr ⟨links, hlinks, hinputs⟩) hslot
    (Slot.isNamed_str_iff.mpr hname) (.link hlinked) fun j later hij hlater hnamed =>
      hlast j later hij hlater (Slot.isNamed_str_iff.mp hnamed)
  rw [get?_inputValues, Option.map_eq_some_iff] at hvalue
  obtain ⟨source, hsource, hreference⟩ := hvalue
  rw [inputAt_eq_reference hget,
    Normalizer.referenceAt?_merge Normalizer.keepsLinks_dualClip hmerge, referenceAt?, hsource,
    Option.bind_some, hreference, houtput]
  rfl

/-- In what is compiled with the normalizers of the editor no loader of two clips has a type that is
out of date, and a type that comes through a link to an integer output is the reference to it. So a
summary has no advice to add to what validation finds. -/
theorem clip_types_up_to_date
    (h : (compileGraphWithin levels ⟨uiTypes, Normalizer.standard, zeroIndex⟩ graph).result =
      .ok w) :
    (∀ nodes, w = .obj nodes → ∀ e ∈ nodes, ¬ LegacyDual e.2) ∧
    (∀ node link k, TypedByLink uiTypes zeroIndex graph node link →
      outputOf zeroIndex link = .int k →
      inputAt w node.id.text (.str "type") = some (.list [.str link.sourceNode.text, .int k])) ∧
    ∀ s, Summary.ofWorkflow w = .ok s → s.issues = Validation.errors w := by
  obtain ⟨-, out, hout, rfl⟩ := compileGraphWithin_eq_ok.mp h
  obtain ⟨filtered, surviving, links, -, -, -, hnodes⟩ := compileGraph_eq_ok.mp hout
  have hclean : ∀ e ∈ out.entries, ¬ LegacyDual e.2 := by
    intro e he
    obtain ⟨e, hmem, rfl⟩ := List.mem_map.mp he
    rcases mem_compileNodes hnodes hmem with hnil | ⟨node, -, -, hnode⟩
    · simp at hnil
    · exact not_legacyDual_compileNode rfl hnode
  refine ⟨?_, fun node link k hlinked => inputAt_of_typedByLink rfl hout hlinked, ?_⟩
  · rintro nodes hnodes
    obtain rfl := Json.obj.inj (out.toJson_eq.symm.trans hnodes)
    exact hclean
  · intro s hs
    rw [out.toJson_eq] at hs ⊢
    obtain ⟨groups, -, rfl⟩ := Summary.ofWorkflow_obj.mp hs
    have hnone : Summary.advisories out.entries = [] := by
      rw [Summary.advisories_eq, List.map_eq_nil_iff, List.filter_eq_nil_iff]
      exact fun e he => by simpa using hclean e he
    rw [hnone, List.append_nil]

/-- One loader takes the type from the widget at the position of its slot, one from the widget by
its name, and one from a link. -/
theorem clip_types_of_three_loaders :
    let slot (name : String) (link : Json) : Slot := ⟨.str name, link, .null⟩
    let widgets : Json := .list [.str "a", .str "b", .str "dual"]
    let positional : Node := ⟨.int 1, .str "DualCLIPLoader",
      [slot "clip_name1" .null, slot "clip_name2" .null, slot "type" .null], widgets, .null⟩
    let named : Node := ⟨.int 2, .str "DualCLIPLoader", [], widgets, .null⟩
    let linked : Node := ⟨.int 3, .str "DualCLIPLoader", [slot "type" (.int 7)], widgets, .null⟩
    let source : Node := ⟨.int 9, .str "Text", [], .null, .null⟩
    let link : Link := ⟨.int 7, .int 9, .int 0, .int 3, .int 0, .str "STRING"⟩
    let graph : Graph := ⟨[positional, named, linked, source], [link]⟩
    let run := compileGraphWithin 9 ⟨[], Normalizer.standard, false⟩ graph
    ∃ w, run.result = .ok w ∧ (∀ nodes, w = .obj nodes → ∀ e ∈ nodes, ¬ LegacyDual e.2) ∧
      inputAt w "1" (.str "type") = some (.str "flux") ∧
      inputAt w "2" (.str "type") = some (.str "flux") ∧
      inputAt w "3" (.str "type") = some (.list [.str "9", .int 0]) ∧
      ∀ s, Summary.ofWorkflow w = .ok s → s.issues = Validation.errors w := by
  intro slot widgets positional named linked source link graph run
  obtain ⟨w, hw⟩ : ∃ w, run.result = .ok w := ⟨_, rfl⟩
  obtain ⟨hclean, hlinked, hissues⟩ := clip_types_up_to_date hw
  have htyped : TypedByLink [] false graph linked link := by
    refine ⟨rfl, ⟨[positional, named], [source], by decide +kernel, by decide +kernel⟩, ?_⟩
    refine ⟨graph, [.int 1, .int 2, .int 3, .int 9], 0, slot "type" (.int 7), rfl, rfl, rfl, rfl,
      ?_, ?_⟩
    · exact ⟨⟨by simp [slot], [], [], rfl, rfl, by simp⟩, .int 9, rfl, .int 9, by simp, rfl⟩
    · intro j later hj hlater
      simp [linked, Nat.ne_of_gt hj] at hlater
  refine ⟨w, hw, hclean, ?_, ?_, hlinked linked link 0 htyped rfl, hissues⟩
  · obtain rfl := Except.ok.inj hw
    decide +kernel
  · obtain rfl := Except.ok.inj hw
    decide +kernel

end NodeWorkflow.Compile
