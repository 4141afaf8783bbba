import NodeWorkflow.Proofs.Compile.Stages

/-!
# Every output as the first

A compilation that counts every output as the first of its node goes the way of one that keeps the
outputs apart. It resolves the same slots, normalizers see the same inputs as linked, and the same
is reported; only the indices of the references in the result are zero.
-/
namespace NodeWorkflow

namespace Json

/-- A reference to the first output of the same node; any other value as it is. -/
def zeroed (v : Json) : Json :=
  match v.reference? with
  | some r => .list [.str r.node, .int 0]
  | none => v

def zeroedNode (node : Json) : Json :=
  match node, node.field? "inputs" with
  | .obj fields, some (.obj inputs) =>
    .obj (Entries.put (.str "inputs") (.obj (inputs.map fun e => (e.1, e.2.zeroed))) fields)
  | _, _ => node

def zeroedWorkflow (workflow : Json) : Json :=
  match workflow with
  | .obj nodes => .obj (nodes.map fun e => (e.1, e.2.zeroedNode))
  | _ => workflow

end Json

namespace Entries
variable {α β : Type}

theorem map_put (f : α → β) (key : Scalar) (v : α) (es : Entries α) :
    (put key v es).map (fun e => (e.1, f e.2)) =
      put key (f v) (es.map fun e => (e.1, f e.2)) := by
  induction es with
  | nil => rfl
  | cons e es ih =>
    by_cases hkey : e.1.agrees key = true
    · simp [put, hkey]
    · simp [put, hkey, ih]

theorem map_putAll (f : α → β) (new es : Entries α) :
    (putAll new es).map (fun e => (e.1, f e.2)) =
      putAll (new.map fun e => (e.1, f e.2)) (es.map fun e => (e.1, f e.2)) := by
  induction new generalizing es with
  | nil => rfl
  | cons e new ih =>
    change (putAll new (put e.1 e.2 es)).map _ = _
    rw [ih, map_put]
    rfl

end Entries

namespace Compile
open Editor

def Source.zeroed : Source → Source
  | .link record _ => .link record (.int 0)
  | source => source

def zeroedInputs (inputs : Entries Source) : Entries Source :=
  inputs.map fun e => (e.1, e.2.zeroed)

def ExecutionNode.zeroed (node : ExecutionNode) : ExecutionNode :=
  { node with inputs := zeroedInputs node.inputs }

def ExecutionGraph.zeroed (graph : ExecutionGraph) : ExecutionGraph :=
  graph.map fun e => (e.1, e.2.zeroed)

/-- The outputs of links are numbers, and nothing but links makes a reference. -/
def Source.Numbered : Source → Prop
  | .link _ output => ∃ k, output = .int k
  | source => source.value.reference? = none

variable {options : Options} {links : Entries Link} {surviving : List Scalar} {node : Node}
  {nodes : List Node} {slot : Slot} {slots : List Slot} {position : Nat} {widgets : Json}
  {inputs : Entries Source} {source : Source} {compiled : ExecutionNode} {done out : ExecutionGraph}
  {graph filtered : Graph} {levels : Nat}

section Sources

theorem Source.Numbered.value_zeroed (h : source.Numbered) :
    source.zeroed.value = source.value.zeroed := by
  cases source with
  | link record output =>
    obtain ⟨k, rfl⟩ := h
    rfl
  | widget position v | named position v | prescribed v =>
    have hnone : v.reference? = none := h
    simp [Source.zeroed, Source.value, Json.zeroed, hnone]

theorem Source.Numbered.alike_zeroed (h : source.Numbered) :
    source.zeroed.value.isReference = source.value.isReference ∧
      source.zeroed.value.same (.str "dual") = source.value.same (.str "dual") := by
  cases source with
  | link record output =>
    obtain ⟨k, rfl⟩ := h
    exact ⟨rfl, rfl⟩
  | widget | named | prescribed => exact ⟨rfl, rfl⟩

end Sources

section Slots

theorem throughLink_zeroed : throughLink links surviving true slot =
    (throughLink links surviving false slot).map (Option.map Source.zeroed) := by
  unfold throughLink
  split
  · rfl
  · cases slot.link.key with
    | error fault => rfl
    | ok id =>
      simp only [bind, Except.bind]
      cases Entries.get? id links with
      | none => rfl
      | some record =>
        simp only
        cases isAmong record.sourceNode surviving with
        | error fault => rfl
        | ok survives => cases survives <;> rfl

theorem slotSource_zeroed : slotSource links surviving true widgets position slot =
    (slotSource links surviving false widgets position slot).map (Option.map Source.zeroed) := by
  unfold slotSource
  rw [throughLink_zeroed]
  cases throughLink links surviving false slot with
  | error fault => rfl
  | ok linked =>
    cases linked with
    | some source => rfl
    | none =>
      simp only [Except.map, Option.map, bind, Except.bind]
      cases (widgetAt widgets position).isNull <;> rfl

theorem slotEvents_zeroed (source : Option Source) :
    slotEvents node slot (source.map Source.zeroed) = slotEvents node slot source := by
  cases source with
  | none => rfl
  | some source => cases source <;> rfl

theorem storeSource_zeroed (source : Option Source) :
    storeSource (zeroedInputs inputs) slot (source.map Source.zeroed) =
      (storeSource inputs slot source).map zeroedInputs := by
  cases source with
  | none => rfl
  | some source =>
    simp only [storeSource, Option.map]
    cases slot.name.key with
    | error fault => rfl
    | ok name => exact congrArg Except.ok (Entries.map_put Source.zeroed name source inputs).symm

theorem resolveSlots_zeroed :
    resolveSlots links surviving true node position slots (zeroedInputs inputs) =
      zeroedInputs <$> resolveSlots links surviving false node position slots inputs := by
  induction slots generalizing position inputs with
  | nil => rfl
  | cons slot slots ih =>
    simp only [resolveSlots, slotSource_zeroed]
    cases slotSource links surviving false node.widgets position slot with
    | error fault => rfl
    | ok source =>
      simp only [Except.map, Traced.lift_ok_bind, slotEvents_zeroed, storeSource_zeroed, map_bind]
      cases storeSource inputs slot source with
      | error fault => rfl
      | ok stored => simp only [Traced.lift_ok_bind, ih]

def NumberedLinks (links : Entries Link) : Prop :=
  ∀ id link, Entries.get? id links = some link → ∃ k, link.sourceOutput = .int k

theorem numbered_of_resolveInputs (hlinks : NumberedLinks links)
    (h : (resolveInputs links surviving false node).result = .ok inputs) :
    ∀ e ∈ inputs, e.2.Numbered := by
  intro e he
  rcases mem_resolveSlots h he with hnil | ⟨i, slot, -, hsource⟩
  · simp at hnil
  · rcases slotSource_eq_ok hsource with ⟨link, ⟨id, -, -, hget, -⟩, heq⟩ | ⟨-, heq | heq⟩
    · rw [Option.some.inj heq]
      exact hlinks id link hget
    · simp at heq
    · rw [Option.some.inj heq]
      exact widgetAt_not_reference node.widgets i

end Slots

namespace Normalizer

/-- Two nodes look alike to normalizers: they have the same widgets, and of two inputs with one name
both or none are linked, and both or none are a type that is out of date. -/
structure LooksAlike (a b : ExecutionNode) : Prop where
  widgets : a.widgets = b.widgets
  linked : ∀ name, (inputOf (inputValues a.inputs) name).isReference =
    (inputOf (inputValues b.inputs) name).isReference
  dual : ∀ name, (inputOf (inputValues a.inputs) name).same (.str "dual") =
    (inputOf (inputValues b.inputs) name).same (.str "dual")

variable {a b : ExecutionNode} {overwrite : Bool} (h : LooksAlike a b)
include h

theorem LooksAlike.feeds_eq (name v : Json) :
    feeds overwrite a.toJson name v = feeds overwrite b.toJson name v := by
  have hlinked : isLinked a.toJson name = isLinked b.toJson name := by
    simp only [isLinked, inputsOf_toJson]
    cases name.key with
    | error fault => rfl
    | ok key => exact congrArg Except.ok (h.linked key)
  simp only [feeds, hlinked]

theorem LooksAlike.namedUpdates_eq {names values : List Json} {updates : Entries Source} :
    namedUpdates overwrite a.toJson position names values updates =
      namedUpdates overwrite b.toJson position names values updates := by
  induction names generalizing position values updates with
  | nil => cases values <;> rfl
  | cons name names ih =>
    cases values with
    | nil => rfl
    | cons v values => simp only [namedUpdates, h.feeds_eq, ih]

theorem LooksAlike.byNameUpdates_eq (names : List Json) :
    byNameUpdates names overwrite a.toJson = byNameUpdates names overwrite b.toJson := by
  simp only [byNameUpdates, a.field_widgets, b.field_widgets, h.widgets, h.namedUpdates_eq]

theorem LooksAlike.updates_eq {normalizer : Normalizer} (hnamed : normalizer.GoesByNames) :
    normalizer.updates a.toJson = normalizer.updates b.toJson := by
  unfold updates
  rw [a.isObj_toJson, b.isObj_toJson]
  cases normalizer with
  | byName names overwrite => simp only [h.byNameUpdates_eq]
  | dualClip =>
    simp only [dualClipUpdates, h.byNameUpdates_eq, inputsOf_toJson]
    cases byNameUpdates dualClipNames false b.toJson with
    | error fault => rfl
    | ok updates =>
      have hdual := h.dual (.str "type")
      simp only [inputOf] at hdual
      simp only [bind, Except.bind]
      cases Entries.get? (.str "type") updates with
      | some source => rfl
      | none => simp only [hdual]
  | custom rule => exact hnamed.elim

end Normalizer

section Nodes

theorem Source.IsUpdate.zeroed (h : source.IsUpdate) : source.zeroed = source := by
  cases source with
  | link | widget => exact h.elim
  | named | prescribed => rfl

variable {execution : ExecutionNode} (hinputs : ∀ e ∈ execution.inputs, e.2.Numbered)
include hinputs

theorem looksAlike_zeroed : Normalizer.LooksAlike execution.zeroed execution := by
  have hget (name : Scalar) : Entries.get? name (inputValues execution.zeroed.inputs) =
      (Entries.get? name execution.inputs).map fun source => source.zeroed.value := by
    rw [get?_inputValues, ExecutionNode.zeroed, zeroedInputs, Entries.get?_map, Option.map_map]
    rfl
  have hnumbered (name : Scalar) (source : Source)
      (hsource : Entries.get? name execution.inputs = some source) : source.Numbered := by
    obtain ⟨key, hmem, -⟩ := Entries.exists_of_get? hsource
    exact hinputs _ hmem
  refine ⟨rfl, fun name => ?_, fun name => ?_⟩
  all_goals
    rw [Normalizer.inputOf, Normalizer.inputOf, hget, get?_inputValues]
    cases hsource : Entries.get? name execution.inputs with
    | none => rfl
    | some source => simp [(hnumbered name source hsource).alike_zeroed]

theorem normalize_zeroed (hnormalizers : ∀ e ∈ options.normalizers, e.2.GoesByNames) :
    normalize options execution.zeroed = (normalize options execution).map ExecutionNode.zeroed := by
  have hclass : execution.zeroed.type = execution.type := rfl
  unfold normalize
  rw [hclass]
  cases hnormalizer : options.normalizer? execution.type with
  | none => rfl
  | some normalizer =>
    obtain ⟨_, hmem⟩ := Options.mem_of_normalizer? hnormalizer
    have hnamed := hnormalizers _ hmem
    simp only [(looksAlike_zeroed hinputs).updates_eq hnamed]
    cases hgiven : normalizer.updates execution.toJson with
    | error fault => rfl
    | ok updates =>
      have hfixed : zeroedInputs updates = updates := by
        refine (List.map_congr_left fun u hu => ?_).trans (List.map_id updates)
        have hharmless := Normalizer.updates_harmless hnamed
          (Normalizer.inputsOf_toJson execution) hgiven u hu
        rw [hharmless.given.zeroed]
        rfl
      have hstored := Entries.map_putAll Source.zeroed updates execution.inputs
      rw [← zeroedInputs, ← zeroedInputs, ← zeroedInputs, hfixed] at hstored
      simp only [Except.map, ExecutionNode.zeroed, hstored]

end Nodes

section Runs

variable (hnormalizers : ∀ e ∈ options.normalizers, e.2.GoesByNames) (hlinks : NumberedLinks links)
include hnormalizers hlinks

theorem compileNode_zeroed (node : Node) :
    compileNode { options with zeroIndex := true } links surviving node =
      ExecutionNode.zeroed <$>
        compileNode { options with zeroIndex := false } links surviving node := by
  unfold compileNode
  cases node.type.truthy with
  | false => rfl
  | true =>
    rw [if_neg (by simp), if_neg (by simp)]
    cases node.type.key with
    | error fault => rfl
    | ok type =>
      simp only [Traced.lift_ok_bind, map_bind]
      change (resolveSlots links surviving true node 0 node.slots (zeroedInputs []) >>= _) = _
      rw [resolveSlots_zeroed, bind_map_left]
      refine Traced.bind_congr_ok fun inputs hinputs => ?_
      let resolved : ExecutionNode := ⟨type, inputs, node.widgets, node.title⟩
      have hnormal : normalize { options with zeroIndex := true } resolved.zeroed =
          (normalize { options with zeroIndex := false } resolved).map ExecutionNode.zeroed :=
        normalize_zeroed (numbered_of_resolveInputs hlinks hinputs) hnormalizers
      exact (congrArg liftM hnormal).trans (Traced.lift_map _ _)

theorem numbered_of_compileNode
    (h : (compileNode { options with zeroIndex := false } links surviving node).result =
      .ok compiled) : ∀ e ∈ compiled.inputs, e.2.Numbered := by
  obtain ⟨type, inputs, -, -, hinputs, hnormal⟩ := compileNode_eq_ok.mp h
  intro e he
  rcases mem_of_normalize hnormalizers hnormal e he with hresolved | ⟨hliteral, hupdate⟩
  · exact numbered_of_resolveInputs hlinks hinputs e hresolved
  · cases hsource : e.2 with
    | link | widget => simp [hsource, Source.IsUpdate] at hupdate
    | named | prescribed =>
      rw [hsource] at hliteral
      exact hliteral

theorem compileNodes_zeroed (nodes : List Node) (done : ExecutionGraph) :
    compileNodes { options with zeroIndex := true } links surviving nodes done.zeroed =
      ExecutionGraph.zeroed <$>
        compileNodes { options with zeroIndex := false } links surviving nodes done := by
  induction nodes generalizing done with
  | nil => rfl
  | cons node nodes ih =>
    simp only [compileNodes, compileNode_zeroed hnormalizers hlinks, bind_map_left, map_bind]
    refine bind_congr fun compiled => ?_
    rw [← ih, ExecutionGraph.zeroed, ExecutionGraph.zeroed, Entries.map_put]

end Runs

section Filtered

theorem numberedLinks_linksById (hlinks : filtered.linksById = .ok links)
    (h : ∀ link ∈ filtered.links, ∃ k, link.sourceOutput = .int k) : NumberedLinks links :=
  fun _ link hget => h link (Graph.get?_linksById hlinks hget).1

variable (hnormalizers : ∀ e ∈ options.normalizers, e.2.GoesByNames)
  (h : ∀ link ∈ filtered.links, ∃ k, link.sourceOutput = .int k)
include hnormalizers h

theorem compileFiltered_zeroed (levels : Nat) :
    compileFiltered levels { options with zeroIndex := true } filtered =
      ExecutionGraph.zeroed <$>
        compileFiltered levels { options with zeroIndex := false } filtered := by
  unfold compileFiltered
  simp only [map_bind]
  refine bind_congr fun surviving => Traced.bind_congr_ok fun links hlinks => ?_
  have hnumbered := numberedLinks_linksById hlinks h
  have hnodes (nodes : List Node) :=
    @compileNodes_zeroed options _ surviving hnormalizers hnumbered nodes []
  split
  next => exact hnodes filtered.nodes
  next node after _ =>
    have hnode :=
      @compileNode_zeroed { options with normalizers := [] } _ surviving (by simp) hnumbered node
    have hfront := hnodes (filtered.nodes.takeWhile fun node => node.widgets.nestsWithin levels)
    change (compileNodes _ links surviving _ (ExecutionGraph.zeroed []) >>= _) = _
    rw [hfront, map_bind, bind_map_left]
    refine bind_congr fun _ => ?_
    rw [hnode, map_bind, bind_map_left]
    rfl

end Filtered

section Data

/-- A node whose inputs are numbered changes in nothing but the references among its inputs. -/
theorem ExecutionNode.toJson_zeroed {execution : ExecutionNode}
    (h : ∀ e ∈ execution.inputs, e.2.Numbered) :
    execution.zeroed.toJson = execution.toJson.zeroedNode := by
  have hvalues : inputValues (zeroedInputs execution.inputs) =
      (inputValues execution.inputs).map fun e => (e.1, e.2.zeroed) := by
    rw [inputValues, inputValues, zeroedInputs, List.map_map, List.map_map]
    exact List.map_congr_left fun e he => congrArg (Prod.mk e.1) (h e he).value_zeroed
  unfold Json.zeroedNode
  rw [execution.field?_inputs]
  simp only [toJson, Json.ofFields, ← hvalues, zeroed]
  simp [Entries.put]

theorem ExecutionGraph.toJson_zeroed (h : ∀ n ∈ out, ∀ e ∈ n.2.inputs, e.2.Numbered) :
    out.zeroed.toJson = out.toJson.zeroedWorkflow := by
  rw [toJson, toJson, Json.zeroedWorkflow, zeroed, List.map_map, List.map_map]
  refine congrArg Json.obj (List.map_congr_left fun n hn => ?_)
  exact congrArg (Prod.mk n.1) (ExecutionNode.toJson_zeroed (h n hn))

end Data

/-- The nodes that come out of a filtered graph hold numbered inputs. -/
theorem numbered_of_compileFiltered (hnormalizers : ∀ e ∈ options.normalizers, e.2.GoesByNames)
    (h : ∀ link ∈ filtered.links, ∃ k, link.sourceOutput = .int k)
    (hout : (compileFiltered levels { options with zeroIndex := false } filtered).result = .ok out) :
    ∀ n ∈ out, ∀ e ∈ n.2.inputs, e.2.Numbered := by
  obtain ⟨-, surviving, links, -, hlinks, hnodes⟩ := compileFiltered_eq_ok.mp hout
  intro n hn
  rcases mem_compileNodes hnodes hn with hnil | ⟨node, -, -, hnode⟩
  · simp at hnil
  · exact numbered_of_compileNode hnormalizers (numberedLinks_linksById hlinks h) hnode

theorem compileGraphWithin_zeroed (hnormalizers : ∀ e ∈ options.normalizers, e.2.GoesByNames)
    (h : ∀ link ∈ graph.links, ∃ k, link.sourceOutput = .int k) (levels : Nat) :
    compileGraphWithin levels { options with zeroIndex := true } graph =
      Json.zeroedWorkflow <$>
        compileGraphWithin levels { options with zeroIndex := false } graph := by
  have hsurvivors (zeroIndex : Bool) : graph.survivors { options with zeroIndex }.uiTypes =
      graph.survivors options.uiTypes := rfl
  cases hfiltered : graph.survivors options.uiTypes with
  | error fault =>
    rw [compileGraphWithin_of_error ((hsurvivors true).trans hfiltered),
      compileGraphWithin_of_error ((hsurvivors false).trans hfiltered)]
    rfl
  | ok filtered =>
    have hnumbered : ∀ link ∈ filtered.links, ∃ k, link.sourceOutput = .int k := fun link hlink =>
      h link ((Graph.survivors_sublist hfiltered).2.subset hlink)
    rw [compileGraphWithin_of_survivors ((hsurvivors true).trans hfiltered),
      compileGraphWithin_of_survivors ((hsurvivors false).trans hfiltered),
      compileFiltered_zeroed hnormalizers hnumbered, bind_map_left]
    simp only [map_bind]
    refine bind_congr fun _ => Traced.bind_congr_ok fun out hout => ?_
    rw [ExecutionGraph.toJson_zeroed (numbered_of_compileFiltered hnormalizers hnumbered hout),
      show out.zeroed.length = out.length from List.length_map _]
    rfl

/-- Where normalizers go by names, a compilation that counts every output as the first ends in the
fault of one that does not, or in its workflow with zero for the index of every reference among the
inputs. It reports the same. -/
theorem zeroed_workflow (h : ∀ link ∈ graph.links, ∃ k, link.sourceOutput = .int k)
    (levels : Nat) (options : Options)
    (hnormalizers : ∀ e ∈ options.normalizers, e.2.GoesByNames) :
    let run (zeroIndex : Bool) := compileGraphWithin levels { options with zeroIndex } graph
    (run true).result = (run false).result.map Json.zeroedWorkflow ∧
      (run true).events = (run false).events := by
  intro run
  have hrun : run true = Json.zeroedWorkflow <$> run false :=
    compileGraphWithin_zeroed hnormalizers h levels
  rw [hrun]
  exact ⟨Traced.result_map _ _, Traced.events_map _ _⟩

/-- Links that are kept, and one whose input a normalizer overwrites. -/
theorem zeroed_workflow_with_two_links :
    let loader : Node := ⟨.int 4, .str "CheckpointLoaderSimple", [], .null, .null⟩
    let encoder : Node := ⟨.int 6, .str "CLIPTextEncode",
      [⟨.str "clip", .int 1, .null⟩, ⟨.str "text", .null, .null⟩], .list [.null, .str "cat"], .null⟩
    let saver : Node := ⟨.int 9, .str "SaveImage", [⟨.str "images", .int 2, .null⟩,
      ⟨.str "filename_prefix", .int 1, .null⟩], .list [.str "x"], .str "Save"⟩
    let graph : Graph := ⟨[loader, encoder, saver],
      [⟨.int 1, .int 4, .int 1, .int 6, .int 0, .null⟩,
        ⟨.int 2, .int 6, .int 3, .int 9, .int 0, .null⟩]⟩
    let options : Options := ⟨[], Normalizer.standard, false⟩
    let workflow (clip image : Int) : Json := .ofFields [
      ("4", .ofFields [("class_type", .str "CheckpointLoaderSimple"), ("inputs", .obj [])]),
      ("6", .ofFields [("class_type", .str "CLIPTextEncode"), ("inputs", .ofFields [
        ("clip", .list [.str "4", .int clip]), ("text", .str "cat")]),
        ("widgets_values", .list [.null, .str "cat"])]),
      ("9", .ofFields [("class_type", .str "SaveImage"), ("inputs", .ofFields [
        ("images", .list [.str "6", .int image]), ("filename_prefix", .str "x")]),
        ("widgets_values", .list [.str "x"]), ("_meta", .ofFields [("title", .str "Save")])])]
    (∀ link ∈ graph.links, ∃ k, link.sourceOutput = .int k) ∧
      (compileGraphWithin 400 options graph).result = .ok (workflow 1 3) ∧
      (compileGraphWithin 400 { options with zeroIndex := true } graph).result =
        .ok (workflow 0 0) := by
  intro loader encoder saver graph options workflow
  have hnumbered : ∀ link ∈ graph.links, ∃ k, link.sourceOutput = .int k := by simp [graph]
  have hnormalizers : ∀ e ∈ options.normalizers, e.2.GoesByNames := fun _ he =>
    Normalizer.goesByNames_standard he
  have hplain : (compileGraphWithin 400 options graph).result = .ok (workflow 1 3) := rfl
  refine ⟨hnumbered, hplain, (zeroed_workflow hnumbered 400 options hnormalizers).1.trans ?_⟩
  exact congrArg (Except.map Json.zeroedWorkflow) hplain

end Compile
end NodeWorkflow
