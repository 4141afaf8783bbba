import NodeWorkflow.Proofs.Json.Decoded
import NodeWorkflow.Proofs.Parameter.Nodewise
import NodeWorkflow.Proofs.Validation.Acyclic

/-!
# Validity under injection

Parameters that go to inputs and to widget values keep a valid graph valid. What is written is a
scalar, which refers to nothing: references can get lost, but none comes in.
-/
namespace NodeWorkflow
open Json Validation Relation

variable {spec : ParameterSpec} {registry : Registry} {nodes after : Entries Json}
  {before node workflow values x : Json} {a : Scalar}

/-- Every path of the specification leads to an input of a node or to one of its widget values. -/
def ParameterSpec.WritesValues (spec : ParameterSpec) : Prop :=
  ∀ p ∈ spec.paths, (∃ name, p = [⟨"inputs", none⟩, ⟨name, none⟩]) ∨
    ∃ index, p = [⟨"widgets_values", some index⟩]

/-- A node stays a node and refers to nothing that it did not refer to. -/
def KeepsNode (before after : Json) : Prop :=
  IsNode before → IsNode after ∧ ∀ input ∈ after.nodeInputs, ∀ source output,
    input.2 = .list [.str source, .int output] → input ∈ before.nodeInputs

/-- The nodes keep their ids, classes and places, and stay nodes without new references. -/
structure KeepsNodes (before after : Entries Json) : Prop where
  classes : after.map (fun e => (e.1, e.2.field? "class_type")) =
    before.map fun e => (e.1, e.2.field? "class_type")
  nodes : ∀ f ∈ after, ∃ e ∈ before, e.1 = f.1 ∧ KeepsNode e.2 f.2

theorem KeepsNode.refl (node : Json) : KeepsNode node node :=
  fun h => ⟨h, fun _ hinput _ _ _ => hinput⟩

theorem KeepsNodes.refl (nodes : Entries Json) : KeepsNodes nodes nodes :=
  ⟨rfl, fun f hf => ⟨f, hf, rfl, .refl f.2⟩⟩

theorem KeepsNodes.trans {first second third : Entries Json} (h : KeepsNodes first second)
    (h' : KeepsNodes second third) : KeepsNodes first third where
  classes := h'.classes.trans h.classes
  nodes g hg := by
    obtain ⟨f, hf, hid, hkeep'⟩ := h'.nodes g hg
    obtain ⟨e, he, hid', hkeep⟩ := h.nodes f hf
    refine ⟨e, he, hid'.trans hid, fun hnode => ?_⟩
    obtain ⟨hnode', hrefs⟩ := hkeep hnode
    obtain ⟨hnode'', hrefs'⟩ := hkeep' hnode'
    refine ⟨hnode'', fun input hinput source output hvalue => ?_⟩
    exact hrefs input (hrefs' input hinput source output hvalue) source output hvalue

theorem KeepsNodes.nodeIds (h : KeepsNodes nodes after) : nodeIds after = nodeIds nodes := by
  have hids := congrArg (List.map fun c => c.1.text) h.classes
  simpa [Validation.nodeIds, Function.comp_def] using hids

theorem KeepsNodes.refers (h : KeepsNodes nodes after) (hnodes : ∀ e ∈ nodes, IsNode e.2)
    {source target : String} (hrefers : Refers after source target) : Refers nodes source target := by
  obtain ⟨hsource, f, hf, htarget, input, hinput, output, hvalue⟩ := hrefers
  obtain ⟨e, he, hid, hkeep⟩ := h.nodes f hf
  have hold := (hkeep (hnodes e he)).2 input hinput source output hvalue
  exact ⟨h.nodeIds ▸ hsource, e, he, hid ▸ htarget, input, hold, output, hvalue⟩

/-- A graph of nodes that is closed and acyclic stays so. -/
theorem KeepsNodes.valid (h : KeepsNodes nodes after) (hnodes : ∀ e ∈ nodes, IsNode e.2)
    (hclosed : Closed nodes) (hacyclic : ¬ Cyclic nodes) :
    (∀ f ∈ after, IsNode f.2) ∧ Closed after ∧ ¬ Cyclic after := by
  refine ⟨fun f hf => ?_, fun f hf input hinput source output hvalue => ?_, ?_⟩
  · obtain ⟨e, he, -, hkeep⟩ := h.nodes f hf
    exact (hkeep (hnodes e he)).1
  · obtain ⟨e, he, -, hkeep⟩ := h.nodes f hf
    rw [h.nodeIds]
    exact hclosed e he input ((hkeep (hnodes e he)).2 input hinput source output hvalue) source output
      hvalue
  · rintro ⟨id, hcycle⟩
    exact hacyclic ⟨id, TransGen.mono (fun _ _ => h.refers hnodes) id id hcycle⟩

theorem isValid_obj_iff (h : (nodeIds nodes).Nodup) :
    isValid (.obj nodes) = true ↔ (∀ e ∈ nodes, IsNode e.2) ∧ Closed nodes ∧ ¬ Cyclic nodes := by
  rw [← structureFaults_eq_nil, ← danglingIssues_eq_nil, ← hasCycle_iff h, isValid,
    List.isEmpty_iff, issues]
  cases hasCycle nodes <;> simp

theorem fill_input (h : IsNode node) (x : Json) (name : String) :
    (fill x [⟨"inputs", none⟩, ⟨name, none⟩] node).field? "inputs" =
      some (.obj (Entries.put (.str name) x node.nodeInputs)) := by
  obtain ⟨hobj, -, hinputs⟩ := h
  cases node with
  | scalar a => simp [isObj] at hobj
  | list xs => simp [isObj] at hobj
  | obj es =>
    have hvivified : ((Entries.get? (.str "inputs") es).getD .null).vivified =
        .obj (Json.obj es).nodeInputs := by
      simp only [field, field?] at hinputs
      cases hget : Entries.get? (.str "inputs") es with
      | none => simp [vivified, isNull, nodeInputs, field?, hget]
      | some content => cases content with
        | scalar a => cases a <;> simp_all [vivified, isNull, isObj, nodeInputs, field?]
        | list xs => simp [hget, isNull, isObj] at hinputs
        | obj ins => simp [vivified, isNull, nodeInputs, field?, hget]
    simp [fill, under?, hvivified, putUnder, field?, Entries.get?_put]

/-- The injection of a scalar keeps a node. -/
theorem keepsNode_settle (hspec : spec.WritesValues) (a : Scalar) (node : Json) :
    (spec.settle (.scalar a) node).field? "class_type" = node.field? "class_type" ∧
      KeepsNode node (spec.settle (.scalar a) node) := by
  unfold ParameterSpec.settle
  split
  next =>
    cases hroute : spec.route? node with
    | none => exact ⟨rfl, .refl node⟩
    | some p =>
      have hp : p ∈ spec.paths := List.mem_of_find?_eq_some hroute
      rcases hspec p hp with ⟨name, rfl⟩ | ⟨index, rfl⟩
      · have hclass : (fill (.scalar a) [⟨"inputs", none⟩, ⟨name, none⟩] node).field? "class_type" =
            node.field? "class_type" := field?_fill (by simp) (.scalar a) [⟨name, none⟩] node
        refine ⟨hclass, fun h => ?_⟩
        have hinputs := fill_input h (.scalar a) name
        refine ⟨⟨(isObj_fill _ _ node).trans h.1, ?_, .inr ?_⟩,
          fun input hinput source output hvalue => ?_⟩
        · simpa [field, hclass] using h.2.1
        · simp [field, hinputs, isObj]
        · simp only [nodeInputs, hinputs] at hinput
          rcases Entries.mem_put hinput with hmem | ⟨hscalar, -⟩
          · exact hmem
          · simp [hscalar] at hvalue
      · have hfield (name : String) (hname : "widgets_values" ≠ name) :
            (fill (.scalar a) [⟨"widgets_values", some index⟩] node).field? name = node.field? name :=
          field?_fill hname (.scalar a) [] node
        have hclass := hfield "class_type" (by simp)
        have hinputs := hfield "inputs" (by simp)
        refine ⟨hclass, fun h => ⟨⟨(isObj_fill _ _ node).trans h.1, ?_, ?_⟩,
          fun input hinput source output hvalue => ?_⟩⟩
        · simpa [field, hclass] using h.2.1
        · simpa [field, hinputs] using h.2.2
        · simpa only [nodeInputs, hinputs] using hinput
  next => exact ⟨rfl, .refl node⟩

theorem keepsNodes_settleAll (hspec : spec.WritesValues) (a : Scalar) (nodes : Entries Json) :
    KeepsNodes nodes (spec.settleAll (.scalar a) nodes) where
  classes := by
    simp [ParameterSpec.settleAll, (keepsNode_settle hspec a _).1]
  nodes f hf := by
    obtain ⟨e, he, rfl⟩ := List.mem_map.mp hf
    exact ⟨e, he, rfl, (keepsNode_settle hspec a e.2).2⟩

theorem keepsNodes_injectOne [Machine] (hregistry : ∀ e ∈ registry, e.2.WritesValues)
    (h : nodes.Textual)
    (name : Scalar) (value : Json)
    (hrun : (injectOne .plain registry name value (.obj nodes)).fault = none) :
    ∃ after, (injectOne .plain registry name value (.obj nodes)).state = .obj after ∧
      Entries.Textual after ∧ KeepsNodes nodes after := by
  cases htarget : registry.target name value with
  | error events => exact ⟨nodes, by rw [injectOne_of_target_error htarget], h, .refl nodes⟩
  | ok target =>
    obtain ⟨spec, x⟩ := target
    obtain ⟨-, hget, hcoerce⟩ := Registry.target_eq_ok.mp htarget
    obtain ⟨a, rfl, -, -⟩ := ParameterType.coerce_eq_ok hcoerce
    obtain ⟨key, hspec, -⟩ := Entries.exists_of_get? hget
    exact ⟨spec.settleAll (.scalar a) nodes, by rw [(injectOne_plain h htarget hrun).1],
      ParameterSpec.settleAll_textual h _, keepsNodes_settleAll (hregistry _ hspec) a nodes⟩

theorem keepsNodes_injectInto [Machine] (hregistry : ∀ e ∈ registry, e.2.WritesValues)
    (h : nodes.Textual)
    (hrun : (injectInto (.obj nodes) registry values).fault = none) :
    ∃ after, (injectInto (.obj nodes) registry values).state = .obj after ∧ KeepsNodes nodes after := by
  cases values with
  | scalar a => simp [injectInto, inject] at hrun
  | list xs => simp [injectInto, inject] at hrun
  | obj entries =>
    have hstep : ∀ e ∈ entries, ∀ s : Json,
        (∃ after, s = .obj after ∧ Entries.Textual after ∧ KeepsNodes nodes after) →
        (injectOne .plain registry e.1 e.2 s).fault = none →
        ∃ after, (injectOne .plain registry e.1 e.2 s).state = .obj after ∧ Entries.Textual after ∧
          KeepsNodes nodes after := by
      rintro e - s ⟨current, rfl, htextual, hkeep⟩ hfault
      obtain ⟨after, hstate, hafter, hkeep'⟩ := keepsNodes_injectOne hregistry htextual e.1 e.2 hfault
      exact ⟨after, hstate, hafter, hkeep.trans hkeep'⟩
    obtain ⟨after, hstate, -, hkeep⟩ :=
      Injection.each_keeps hstep ⟨nodes, rfl, h, .refl nodes⟩ hrun
    exact ⟨after, hstate, hkeep⟩

/-- An injection that returns keeps a valid graph valid if all parameters go to inputs and widget
values. Ids, classes and the order of nodes stay, and no reference comes in. -/
theorem injection_keeps_valid [Machine] (hdecoded : workflow.Decoded)
    (hvalid : isValid workflow = true)
    (hregistry : ∀ e ∈ registry, e.2.WritesValues)
    (hrun : (injectInto workflow registry values).fault = none) :
    ∃ nodes after, workflow = .obj nodes ∧ (injectInto workflow registry values).state = .obj after ∧
      isValid (.obj after) = true ∧
      after.map (fun e => (e.1, e.2.field? "class_type")) =
        nodes.map (fun e => (e.1, e.2.field? "class_type")) ∧
      (∀ source target, Refers after source target → Refers nodes source target) ∧
      Closed after ∧ ¬ Cyclic after := by
  cases workflow with
  | scalar a => simp [isValid, issues] at hvalid
  | list xs => simp [isValid, issues] at hvalid
  | obj nodes =>
    obtain ⟨after, hstate, hkeep⟩ := keepsNodes_injectInto hregistry hdecoded.keys hrun
    have hids := nodeIds_nodup hdecoded.keys
    obtain ⟨hnodes, hclosed, hacyclic⟩ := (isValid_obj_iff hids).mp hvalid
    have hafter := hkeep.valid hnodes hclosed hacyclic
    exact ⟨nodes, after, rfl, hstate, (isValid_obj_iff (hkeep.nodeIds ▸ hids)).mpr hafter,
      hkeep.classes, fun _ _ => hkeep.refers hnodes, hafter.2⟩

attribute [local instance] Machine.common in
/-- A reference is overwritten, and a list of widget values is made. -/
theorem injection_keeps_valid_chain :
    let node (inputs : List (String × Json)) : Json :=
      .ofFields [("class_type", .str "A"), ("inputs", .ofFields inputs)]
    let workflow : Json := .ofFields [("1", node [("text", .str "old")]),
      ("2", node [("text", .list [.str "1", .int 0])])]
    let spec (path : String) : ParameterSpec :=
      ⟨.str "A", .str path, .null, .string, some [.hasInput (.str "text")], .null⟩
    let registry : Registry :=
      [(.str "p", spec "inputs.text"), (.str "q", spec "widgets_values[1]")]
    let run := injectInto workflow registry (.ofFields [("p", .str "new"), ("q", .int 7)])
    run.fault = none ∧ isValid run.state = true := by
  intro node workflow spec registry run
  have hfault : run.fault = none := Option.isNone_iff_eq_none.mp (by decide +kernel)
  have hfirst : (spec "inputs.text").paths = [[⟨"inputs", none⟩, ⟨"text", none⟩]] := by
    decide +kernel
  have hsecond : (spec "widgets_values[1]").paths = [[⟨"widgets_values", some 1⟩]] := by
    decide +kernel
  have hregistry : ∀ e ∈ registry, e.2.WritesValues := by
    simp [registry, ParameterSpec.WritesValues, hfirst, hsecond]
  have hdecoded : workflow.Decoded := by simp [workflow, node]
  obtain ⟨_, after, -, hstate, hvalid, -⟩ := injection_keeps_valid hdecoded (by decide +kernel)
    hregistry hfault
  exact ⟨hfault, hstate ▸ hvalid⟩

end NodeWorkflow
