import NodeWorkflow.Proofs.Compile.Origins
import NodeWorkflow.Proofs.Template.Exposure

/-!
# Ways into exposed templates

What a compiled graph draws on stands in the editor graph, and a path leads into what an exposed
template lends. A template with scalars for its widget values and titles lends nothing of them.
-/
namespace NodeWorkflow

open Compile Editor

/-- The path is read from a text, and its indices stop no write. -/
structure Path.Plain [Machine] (path : Path) : Prop where
  nonempty : path ≠ []
  parsed : Path.Parsed path
  short : ∀ s ∈ path, ∀ i, s.index = some i → i + 1 < Machine.memoryBound

theorem Path.plain_of_small [Machine] {path : Path} (hne : path ≠ [])
    (hnames : ∀ s ∈ path, Nameable s.name) (hindex : ∀ s ∈ path, ∀ i, s.index = some i → i < 10) :
    path.Plain where
  nonempty := hne
  parsed := by
    refine ⟨_, Path.parse_print hne fun s hs => ⟨hnames s hs, fun i hi => ?_⟩⟩
    rw [Nat.toDigits_of_lt_base (hindex s hs i hi)]
    simp [Number.integerDigitLimit]
  short s hs i hi := by
    have hlt := hindex s hs i hi
    have hbound := Machine.sixteen_le_memoryBound
    omega

theorem nameable_k : Nameable "k" := ⟨by decide, by simp [Segment.isMark]⟩

theorem exists_path_into [Machine] {a b : String} (ha : Nameable a) (hb : Nameable b) {v : Json}
    (hv : v.isContainer = true) : ∃ path step, Path.Plain path ∧ v.admits step ∧
      path.steps = [.field (.str a), .field (.str b), step] := by
  have hk := nameable_k
  cases v with
  | scalar c => simp [Json.isContainer] at hv
  | obj es =>
    refine ⟨[⟨a, none⟩, ⟨b, none⟩, ⟨"k", none⟩], .field (.str "k"), ?_, ⟨es, rfl⟩, rfl⟩
    refine Path.plain_of_small (by simp) ?_ (by simp)
    simp [ha, hb, hk]
  | list xs =>
    refine ⟨[⟨a, none⟩, ⟨b, some 0⟩], .item 0, ?_, ⟨xs, rfl⟩, rfl⟩
    refine Path.plain_of_small (by simp) ?_ (by simp)
    simp [ha, hb]

/-- A way into a part that a compiled graph has of the editor graph: a path leads one step below the
place in a node of the compiled graph at which it stands. -/
structure Entrance [Machine] (workflow x : Json) (ds : List Drawing) (id : Scalar)
    (source target : Place) (step : Step) (path : Path) : Prop where
  drawn : .fromEditor source target ∈ ds
  source : ∃ v, Json.atPlace? source workflow = some v
  content : ∃ v, Json.atPlace? target x = some v ∧ v.admits step
  texts : Texts target
  plain : path.Plain
  steps : .field id :: path.steps = target ++ [step]

variable {workflow : Json} {options : Options} {graph : Graph} {compiled : ExecutionGraph}
  {e : Scalar × ExecutionNode}

theorem Json.isNull_of_isContainer {v : Json} (h : v.isContainer = true) : v.isNull = false := by
  cases v with
  | scalar a => simp [Json.isContainer] at h
  | _ => rfl

theorem Compile.exists_drawn {source target : Place} (hread : Graph.ofJson workflow = .ok graph)
    (hcompiled : (compileGraph options graph).result = .ok compiled)
    (hd : .fromEditor source target ∈ drawings options graph workflow compiled) :
    ∃ v, Json.atPlace? source workflow = some v := by
  obtain ⟨filtered, surviving, links, hfilter, hids, hlinks, hnodes⟩ :=
    compileGraph_eq_ok.mp hcompiled
  obtain ⟨e, he, index, hindex, hdraws⟩ := (mem_drawings hfilter hids).mp hd
  obtain ⟨i, node, hi, hnode, hcompile⟩ := editorIndex?_compiled hfilter hnodes he
  obtain rfl : index = i := Option.some.inj (hindex.symm.trans hi)
  obtain ⟨data, hdata, hnoderead⟩ := Graph.atPlace?_node hread hnode
  obtain ⟨-, -, -, hwidgets, htitle⟩ := Node.ofJson_eq_ok.mp hnoderead
  have hbelow (rest : Place) : Json.atPlace? (nodePlace index ++ rest) workflow =
      Json.atPlace? rest data := by
    rw [Json.atPlace?_append, nodePlace, hdata, Option.bind_some]
  generalize hdrawing : Drawing.fromEditor source target = d at hdraws
  cases hdraws with
  | title hcontainer =>
    obtain ⟨rfl, -⟩ := Drawing.fromEditor.inj hdrawing
    obtain ⟨type, inputs, -, -, -, hnormal⟩ := compileNode_eq_ok.mp hcompile
    obtain ⟨-, -, hsametitle, -⟩ := normalize_eq_ok hnormal
    have hfield : data.field? "title" = some e.2.title :=
      Json.field?_of_field (by rw [← htitle, hsametitle]) (Json.isNull_of_isContainer hcontainer)
    rw [hbelow, Json.atPlace?_cons, Json.child?_of_field? hfield]
    exact ⟨e.2.title, rfl⟩
  | input hinput hdraws => cases hdraws with
    | widget hcontainer =>
      obtain ⟨rfl, -⟩ := Drawing.fromEditor.inj hdrawing
      obtain ⟨values, hlist, hv⟩ := widget_of_input hcompile hinput hcontainer
      have hfield : data.field? "widgets_values" = some (.list values) :=
        Json.field?_of_field (by rw [← hwidgets, hlist]) rfl
      rw [hbelow, Json.atPlace?_item hfield hv]
      exact ⟨_, rfl⟩
    | named => simp at hdrawing
    | link _ _ hj =>
      obtain ⟨rfl, -⟩ := Drawing.fromEditor.inj hdrawing
      obtain ⟨-, known, hknown⟩ := link_of_input hcompile hinput
      obtain ⟨j, link, hj', hlink⟩ := linkIndex?_known hfilter hids hlinks hknown
      obtain rfl := Option.some.inj (hj.symm.trans hj')
      exact atPlace?_output hread hlink

theorem nameable_inputs : Nameable "inputs" := ⟨by decide, by simp [Segment.isMark]⟩

namespace Exposes

variable [Machine] {source target : Place} {step : Step} {path : Path} {filtered : Graph}
  {surviving : List Scalar} {index : Nat}

/-- What a node draws on is there, so that a path one step below the place of it is a way in. -/
theorem entrance_of_draws (h : Exposes workflow options graph compiled e)
    (hfilter : graph.survivors options.uiTypes = .ok filtered)
    (hids : filtered.nodeIds = .ok surviving)
    (hindex : editorIndex? options graph e.1 = some index)
    (hdraws : Draws options surviving graph workflow index e (.fromEditor source target))
    (hcontent : ∃ v, Json.atPlace? target compiled.toJson = some v ∧ v.admits step)
    (htexts : Texts target) (hplain : path.Plain)
    (hsteps : .field e.1 :: path.steps = target ++ [step]) :
    Entrance workflow compiled.toJson (drawings options graph workflow compiled) e.1 source target
      step path := by
  have hdrawn := (mem_drawings hfilter hids).mpr ⟨e, h.mem, index, hindex, hdraws⟩
  exact ⟨hdrawn, exists_drawn h.read h.compiles hdrawn, hcontent, htexts, hplain, hsteps⟩

theorem entrance_of_title (h : Exposes workflow options graph compiled e)
    (hcontainer : e.2.title.isContainer = true) (htruthy : e.2.title.truthy = true) :
    ∃ source target step path, Entrance workflow compiled.toJson
      (drawings options graph workflow compiled) e.1 source target step path := by
  obtain ⟨filtered, surviving, links, hfilter, hids, -, hnodes⟩ :=
    compileGraph_eq_ok.mp h.compiles
  obtain ⟨index, -, hindex, -, -⟩ := editorIndex?_compiled hfilter hnodes h.mem
  obtain ⟨id, hid⟩ := (compileGraph_textual h.compiles).texts e h.mem
  obtain ⟨path, step, hplain, hadmits, hsteps⟩ := exists_path_into
    (show Nameable "_meta" from ⟨by decide, by simp [Segment.isMark]⟩)
    (show Nameable "title" from ⟨by decide, by simp [Segment.isMark]⟩) hcontainer
  refine ⟨_, _, step, path, h.entrance_of_draws hfilter hids hindex (.title hcontainer htruthy)
    ⟨e.2.title, atPlace?_title h.compiles h.mem htruthy, hadmits⟩ ?_ hplain ?_⟩
  · simp [Texts, titlePlace, hid]
  · rw [hsteps]
    rfl

theorem entrance_of_input (h : Exposes workflow options graph compiled e) {name : String}
    {source : Source} (hinput : (.str name, source) ∈ e.2.inputs) (hname : Nameable name)
    (hlends : source.Lends) :
    ∃ source target step path, Entrance workflow compiled.toJson
      (drawings options graph workflow compiled) e.1 source target step path := by
  obtain ⟨filtered, surviving, links, hfilter, hids, hlinks, hnodes⟩ :=
    compileGraph_eq_ok.mp h.compiles
  obtain ⟨index, node, hindex, -, hcompile⟩ := editorIndex?_compiled hfilter hnodes h.mem
  obtain ⟨id, hid⟩ := (compileGraph_textual h.compiles).texts e h.mem
  have htexts : Texts (inputPlace e.1 (.str name)) := by simp [Texts, inputPlace, hid]
  have hvalue := atPlace?_input h.compiles h.mem hinput
  cases source with
  | widget position v =>
    obtain ⟨path, step, hplain, hadmits, hsteps⟩ :=
      exists_path_into nameable_inputs hname hlends
    refine ⟨_, _, step, path, h.entrance_of_draws hfilter hids hindex
      (.input hinput (.widget hlends)) ⟨v, hvalue, hadmits⟩ htexts hplain ?_⟩
    rw [hsteps]
    rfl
  | link record output =>
    cases output with
    | obj es =>
      obtain ⟨houtput, known, hknown⟩ := link_of_input hcompile hinput
      have hzero : options.zeroIndex = false := by
        cases hcase : options.zeroIndex with
        | false => rfl
        | true => simp [outputOf, hcase] at houtput
      obtain ⟨j, link, hj, hlink⟩ := linkIndex?_known hfilter hids hlinks hknown
      refine ⟨_, _, .field (.str "k"), [⟨"inputs", none⟩, ⟨name, some 1⟩, ⟨"k", none⟩],
        h.entrance_of_draws hfilter hids hindex (.input hinput (.link rfl hzero hj))
          ⟨.obj es, ?_, es, rfl⟩ ?_ ?_ rfl⟩
      · rw [Json.atPlace?_append, hvalue]
        rfl
      · simp [Texts, inputPlace, hid]
      · refine Path.plain_of_small (by simp) ?_ (by simp)
        simp [nameable_inputs, hname, nameable_k]
    | _ => simp [Source.Lends, Json.isObj] at hlends
  | _ => simp [Source.Lends] at hlends

/-- A node that lends draws on a part of the editor graph that a path leads into. -/
theorem entrance (h : Exposes workflow options graph compiled e) :
    ∃ source target step path, Entrance workflow compiled.toJson
      (drawings options graph workflow compiled) e.1 source target step path := by
  rcases h.lends with ⟨hcontainer, htruthy⟩ | ⟨name, source, hinput, hname, hlends⟩
  · exact h.entrance_of_title hcontainer htruthy
  · exact h.entrance_of_input hinput hname hlends

end Exposes

/-- Whether widget values and titles are scalars and outputs are no objects. -/
def Editor.Graph.isFlat (graph : Graph) : Bool :=
  graph.nodes.all (fun node => !node.title.isContainer && match node.widgets with
    | .list values => values.all (!·.isContainer)
    | _ => true) && graph.links.all (!·.sourceOutput.isObj)

/-- A flat template is not exposed: what its nodes share cannot be written into. -/
theorem not_exposed_of_isFlat [Machine] (hread : Graph.ofJson workflow = .ok graph)
    (hflat : graph.isFlat = true) : ¬ Exposed workflow := by
  rintro ⟨options, graph', compiled, e, h⟩
  obtain rfl : graph = graph' := Except.ok.inj (hread.symm.trans h.read)
  simp only [Graph.isFlat, Bool.and_eq_true, List.all_eq_true, Bool.not_eq_true'] at hflat
  obtain ⟨hnodes, hlinks⟩ := hflat
  obtain ⟨filtered, surviving, links, hfilter, hids, hknown, hcompiled⟩ :=
    compileGraph_eq_ok.mp h.compiles
  obtain ⟨index, node, -, hnode, hcompile⟩ := editorIndex?_compiled hfilter hcompiled h.mem
  obtain ⟨htitle, hwidgets⟩ := hnodes node (List.mem_of_getElem? hnode)
  obtain ⟨type, inputs, -, -, -, hnormal⟩ := compileNode_eq_ok.mp hcompile
  obtain ⟨-, -, hsametitle, -⟩ := normalize_eq_ok hnormal
  rcases h.lends with ⟨hcontainer, -⟩ | ⟨name, source, hinput, -, hlends⟩
  · rw [hsametitle, htitle] at hcontainer
    simp at hcontainer
  · cases source with
    | widget position v =>
      obtain ⟨values, hlist, hv⟩ := widget_of_input hcompile hinput hlends
      rw [hlist] at hwidgets
      have hscalar := List.all_eq_true.mp hwidgets v (List.mem_of_getElem? hv)
      simp [show v.isContainer = true from hlends] at hscalar
    | link record output =>
      obtain ⟨rfl, id, hget⟩ := link_of_input hcompile hinput
      obtain ⟨hmem, -⟩ := Graph.get?_linksById hknown hget
      have hscalar := hlinks record ((Graph.mem_links_survivors hfilter hids).mp hmem).1
      have hobj : (outputOf options.zeroIndex record).isObj = true := hlends
      cases hzero : options.zeroIndex with
      | false => simp [outputOf, hzero, hscalar] at hobj
      | true => simp [outputOf, hzero, Json.isObj] at hobj
    | _ => simp [Source.Lends] at hlends

end NodeWorkflow
