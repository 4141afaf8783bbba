import NodeWorkflow.Proofs.Compile.Nodes
import NodeWorkflow.Proofs.Path.Places
import NodeWorkflow.Proofs.Sharing.Outline

/-!
# Where a compiled graph shares

A compiled graph shares parts at titles, at inputs and at the outputs in references, each of which
draws on one place. Places that are told by texts are apart from all others.
-/
namespace NodeWorkflow.Compile
open Editor

def inputPlace (id name : Scalar) : Place := [.field id, .field (.str "inputs"), .field name]

def titlePlace (id : Scalar) : Place := [.field id, .field (.str "_meta"), .field (.str "title")]

def widgetPlace (id : Scalar) (position : Nat) : Place :=
  [.field id, .field (.str "widgets_values"), .item position]

def classPlace (id : Scalar) : Place := [.field id, .field (.str "class_type")]

def nodePlace (index : Nat) : Place := [.field (.str "nodes"), .item index]

namespace Drawing

def source : Drawing → Place
  | .fromEditor source _ | .fromCompiled source _ => source

def target : Drawing → Place
  | .fromEditor _ target | .fromCompiled _ target => target

end Drawing

/-- What an input draws on, of a compiled node that comes from the editor node with a number. -/
inductive InputDraws (options : Options) (surviving : List Scalar) (graph : Graph) (data : Json)
    (id : Scalar) (index : Nat) (name : Scalar) : Source → Drawing → Prop
  | widget {position : Nat} {v : Json} (hcontainer : v.isContainer = true) :
      InputDraws options surviving graph data id index name (.widget position v)
        (.fromEditor (nodePlace index ++ [.field (.str "widgets_values"), .item position])
          (inputPlace id name))
  | named {position : Nat} {v : Json} (hcontainer : v.isContainer = true) :
      InputDraws options surviving graph data id index name (.named position v)
        (.fromCompiled (widgetPlace id position) (inputPlace id name))
  | link {record : Link} {output : Json} {j : Nat} (hcontainer : output.isContainer = true)
      (hzero : options.zeroIndex = false) (hlink : linkIndex? surviving graph record = some j) :
      InputDraws options surviving graph data id index name (.link record output)
        (.fromEditor [.field (.str "links"), .item j, outputStep data j]
          (inputPlace id name ++ [.item 1]))

/-- What a compiled node draws on. -/
inductive Draws (options : Options) (surviving : List Scalar) (graph : Graph) (data : Json)
    (index : Nat) (e : Scalar × ExecutionNode) : Drawing → Prop
  | title (hcontainer : e.2.title.isContainer = true) (htruthy : e.2.title.truthy = true) :
      Draws options surviving graph data index e
        (.fromEditor (nodePlace index ++ [.field (.str "title")]) (titlePlace e.1))
  | input {name : Scalar} {source : Source} {d : Drawing} (hinput : (name, source) ∈ e.2.inputs)
      (hdraws : InputDraws options surviving graph data e.1 index name source d) :
      Draws options surviving graph data index e d

variable {options : Options} {surviving : List Scalar} {graph filtered : Graph} {data : Json}
  {index : Nat} {id name : Scalar} {source : Source} {compiled : ExecutionGraph} {d d' : Drawing}
  {e e' : Scalar × ExecutionNode}

theorem mem_drawInput : d ∈ drawInput options surviving graph data id index name source ↔
    InputDraws options surviving graph data id index name source d := by
  constructor
  · intro h
    cases source with
    | widget position v =>
      simp only [drawInput] at h
      split at h
      next hcontainer =>
        rw [List.mem_singleton.mp h]
        exact .widget hcontainer
      next => simp at h
    | named position v =>
      simp only [drawInput] at h
      split at h
      next hcontainer =>
        rw [List.mem_singleton.mp h]
        exact .named hcontainer
      next => simp at h
    | link record output =>
      simp only [drawInput] at h
      split at h
      next hboth =>
        simp only [Bool.and_eq_true, Bool.not_eq_true'] at hboth
        split at h
        next j hlink =>
          rw [List.mem_singleton.mp h]
          exact .link hboth.1 hboth.2 hlink
        next => simp at h
      next => simp at h
    | prescribed v => simp [drawInput] at h
  · intro h
    cases h with
    | widget hcontainer => simp [drawInput, hcontainer, nodePlace, inputPlace]
    | named hcontainer => simp [drawInput, hcontainer, widgetPlace, inputPlace]
    | link hcontainer hzero hlink => simp [drawInput, hcontainer, hzero, hlink, inputPlace]

theorem mem_drawNode : d ∈ drawNode options surviving graph data e.1 e.2 ↔
    ∃ index, editorIndex? options graph e.1 = some index ∧
      Draws options surviving graph data index e d := by
  cases hindex : editorIndex? options graph e.1 with
  | none => simp [drawNode, hindex]
  | some index =>
    simp only [drawNode, hindex, Option.some.injEq, exists_eq_left', List.mem_append,
      List.mem_flatMap, mem_drawInput]
    constructor
    · rintro (htitle | ⟨i, hinput, hdraws⟩)
      · split at htitle
        next hboth =>
          rw [Bool.and_eq_true] at hboth
          rw [List.mem_singleton.mp htitle]
          exact .title hboth.1 hboth.2
        next => simp at htitle
      · exact .input hinput hdraws
    · intro h
      cases h with
      | title hcontainer htruthy =>
        exact .inl (by simp [hcontainer, htruthy, nodePlace, titlePlace])
      | input hinput hdraws => exact .inr ⟨_, hinput, hdraws⟩

theorem mem_drawings (hfilter : graph.survivors options.uiTypes = .ok filtered)
    (hids : filtered.nodeIds = .ok surviving) :
    d ∈ drawings options graph data compiled ↔
      ∃ e ∈ compiled, ∃ index, editorIndex? options graph e.1 = some index ∧
        Draws options surviving graph data index e d := by
  simp only [drawings, hfilter, hids, List.mem_flatMap, mem_drawNode]

namespace InputDraws

theorem prefix_target (h : InputDraws options surviving graph data id index name source d) :
    inputPlace id name <+: d.target := by
  cases h with
  | widget | named => exact List.prefix_refl _
  | link => exact List.prefix_append _ _

theorem unique (h : InputDraws options surviving graph data id index name source d)
    (h' : InputDraws options surviving graph data id index name source d') : d' = d := by
  cases h with
  | widget | named => cases h'; rfl
  | link _ _ hlink => cases h' with
    | link _ _ hlink' => rw [Option.some.inj (hlink.symm.trans hlink')]

end InputDraws

private theorem comparable_of_not_apart {a b c d : Place} (hac : a <+: c) (hbd : b <+: d)
    (hmeet : ¬ Apart c d) : a <+: b ∨ b <+: a := by
  simp only [Apart, not_and_or, not_not] at hmeet
  rcases hmeet with hcd | hdc
  · exact List.prefix_or_prefix_of_prefix (hac.trans hcd) hbd
  · exact List.prefix_or_prefix_of_prefix hac (hbd.trans hdc)

namespace Draws

theorem prefix_target (h : Draws options surviving graph data index e d) :
    titlePlace e.1 = d.target ∨ ∃ name, inputPlace e.1 name <+: d.target := by
  cases h with
  | title => exact .inl rfl
  | input hinput hdraws => exact .inr ⟨_, hdraws.prefix_target⟩

theorem prefix_id (h : Draws options surviving graph data index e d) :
    [.field e.1] <+: d.target := by
  rcases h.prefix_target with htitle | ⟨name, hinput⟩
  · rw [← htitle]
    simp [titlePlace]
  · exact List.IsPrefix.trans (by simp [inputPlace]) hinput

/-- No drawing leads to a widget value or below one. -/
theorem apart_widget (h : Draws options surviving graph data index e d) (id : Scalar)
    (position : Nat) : Apart (widgetPlace id position) d.target := by
  by_contra hmeet
  rcases h.prefix_target with htitle | ⟨name, hinput⟩
  · rw [← htitle] at hmeet
    exact hmeet (by simp [Apart, titlePlace, widgetPlace, List.cons_prefix_cons])
  · have hcomparable := comparable_of_not_apart (List.prefix_refl _) hinput hmeet
    simp [inputPlace, widgetPlace, List.cons_prefix_cons] at hcomparable

theorem apart_class (h : Draws options surviving graph data index e d) (id : Scalar) :
    Apart d.target (classPlace id) := by
  by_contra hmeet
  rcases h.prefix_target with htitle | ⟨name, hinput⟩
  · rw [← htitle] at hmeet
    exact hmeet (by simp [Apart, titlePlace, classPlace, List.cons_prefix_cons])
  · have hcomparable := comparable_of_not_apart hinput (List.prefix_refl _) hmeet
    simp [inputPlace, classPlace, List.cons_prefix_cons] at hcomparable

theorem unique (hdistinct : e.2.inputs.Distinct)
    (h : Draws options surviving graph data index e d)
    (h' : Draws options surviving graph data index e d') (htexts : Texts d.target)
    (hmeet : ¬ Apart d'.target d.target) : d' = d := by
  cases h with
  | title => cases h' with
    | title => rfl
    | input hinput hdraws =>
      have hcomparable := comparable_of_not_apart hdraws.prefix_target (List.prefix_refl _) hmeet
      simp [Drawing.target, inputPlace, titlePlace, List.cons_prefix_cons] at hcomparable
  | input hinput hdraws => cases h' with
    | title =>
      have hcomparable := comparable_of_not_apart (List.prefix_refl _) hdraws.prefix_target hmeet
      simp [Drawing.target, inputPlace, titlePlace, List.cons_prefix_cons] at hcomparable
    | input hinput' hdraws' =>
      rename_i name source name' source'
      obtain rfl : name' = name := by
        have hcomparable := comparable_of_not_apart hdraws'.prefix_target hdraws.prefix_target hmeet
        simpa [inputPlace, List.cons_prefix_cons, eq_comm] using hcomparable
      obtain ⟨s, rfl⟩ := htexts name' (hdraws.prefix_target.subset (by simp [inputPlace]))
      obtain rfl : source' = source := hdistinct.unique hinput' hinput (by simp)
      exact hdraws.unique hdraws'

end Draws

/-- Two drawings of a compiled graph whose targets are not apart are one. -/
theorem drawings_unique (hcompiled : (compileGraph options graph).result = .ok compiled)
    (h : d ∈ drawings options graph data compiled) (h' : d' ∈ drawings options graph data compiled)
    (htexts : Texts d.target) (hmeet : ¬ Apart d'.target d.target) : d' = d := by
  obtain ⟨filtered, surviving, links, hfilter, hids, -⟩ := compileGraph_eq_ok.mp hcompiled
  obtain ⟨e, he, index, hindex, hdraws⟩ := (mem_drawings hfilter hids).mp h
  obtain ⟨e', he', index', hindex', hdraws'⟩ := (mem_drawings hfilter hids).mp h'
  have hid : e'.1 = e.1 := by
    have hcomparable := comparable_of_not_apart hdraws'.prefix_id hdraws.prefix_id hmeet
    simpa [List.cons_prefix_cons, eq_comm] using hcomparable
  obtain rfl : e' = e := (compileGraph_textual hcompiled).unique he' he hid
  obtain rfl : index' = index := Option.some.inj (hindex'.symm.trans hindex)
  exact hdraws.unique (compileGraph_distinct hcompiled he') hdraws' htexts hmeet

/-- What is drawn from the compiled graph itself are widget values. -/
theorem drawings_widgets (hcompiled : (compileGraph options graph).result = .ok compiled)
    {source target : Place}
    (h : .fromCompiled source target ∈ drawings options graph data compiled) :
    ∃ id position, source = widgetPlace id position := by
  obtain ⟨filtered, surviving, links, hfilter, hids, -⟩ := compileGraph_eq_ok.mp hcompiled
  obtain ⟨e, -, index, -, hdraws⟩ := (mem_drawings hfilter hids).mp h
  cases hdraws with
  | input hinput hdraws => cases hdraws with
    | named => exact ⟨_, _, rfl⟩

/-- No drawing leads to what is drawn from the compiled graph itself. -/
theorem drawings_roots (hcompiled : (compileGraph options graph).result = .ok compiled)
    {source target : Place} (h : .fromCompiled source target ∈ drawings options graph data compiled)
    (h' : d ∈ drawings options graph data compiled) : Apart source d.target := by
  obtain ⟨filtered, surviving, links, hfilter, hids, -⟩ := compileGraph_eq_ok.mp hcompiled
  obtain ⟨e, -, index, -, hdraws⟩ := (mem_drawings hfilter hids).mp h'
  obtain ⟨id, position, rfl⟩ := drawings_widgets hcompiled h
  exact hdraws.apart_widget id position

theorem outline_append_singleton (ds : List Drawing) (d : Drawing) :
    outline (ds ++ [d]) = (outline ds).draw d := by
  simp [outline]

theorem subset_draw (o : Outline) (d : Drawing) : o ⊆ o.draw d := by
  intro e he
  cases d with
  | fromEditor => exact List.mem_append_left _ he
  | fromCompiled =>
    simp only [Outline.draw]
    split <;> exact List.mem_append_left _ he

theorem mem_draw {o : Outline} {d : Drawing} {e : Place × Origin} (he : e ∈ o.draw d) :
    e ∈ o ∨ (∃ source, d = .fromEditor source e.1 ∧ e.2 = .editor source) ∨
      (∃ source, d = .fromCompiled source e.1 ∧ (source, e.2) ∈ o) ∨
      ∃ source target, d = .fromCompiled source target ∧ (e.1 = source ∨ e.1 = target) ∧
        e.2 = .compiled source := by
  cases d with
  | fromEditor source target =>
    rcases List.mem_append.mp he with he | he
    · exact .inl he
    · obtain rfl := List.mem_singleton.mp he
      exact .inr (.inl ⟨source, rfl, rfl⟩)
  | fromCompiled source target =>
    simp only [Outline.draw] at he
    split at he
    next e' hfind =>
      have hplace : e'.1 = source := by simpa using List.find?_some hfind
      rcases List.mem_append.mp he with he | he
      · exact .inl he
      · obtain rfl := List.mem_singleton.mp he
        exact .inr (.inr (.inl ⟨source, rfl, hplace ▸ List.mem_of_find?_eq_some hfind⟩))
    next =>
      rcases List.mem_append.mp he with he | he
      · exact .inl he
      · simp only [List.mem_cons, List.not_mem_nil, or_false] at he
        rcases he with rfl | rfl
        · exact .inr (.inr (.inr ⟨source, target, rfl, .inl rfl, rfl⟩))
        · exact .inr (.inr (.inr ⟨source, target, rfl, .inr rfl, rfl⟩))

/-- The parts that drawings put at places of the compiled graph, told by where they come from. -/
theorem mem_outline {ds : List Drawing}
    (hroots : ∀ source target, .fromCompiled source target ∈ ds → ∀ d ∈ ds, source ≠ d.target)
    {e : Place × Origin} (he : e ∈ outline ds) :
    (∃ source, .fromEditor source e.1 ∈ ds ∧ e.2 = .editor source) ∨
      ∃ source target, .fromCompiled source target ∈ ds ∧ (e.1 = source ∨ e.1 = target) ∧
        e.2 = .compiled source := by
  induction ds using List.reverseRecOn generalizing e with
  | nil => simp [outline] at he
  | append_singleton ds d ih =>
    have hroots' : ∀ source target, .fromCompiled source target ∈ ds → ∀ d ∈ ds,
        source ≠ d.target := fun source target h d hd =>
      hroots source target (List.mem_append_left _ h) d (List.mem_append_left _ hd)
    have hlast : d ∈ ds ++ [d] := List.mem_append_right _ (List.mem_singleton_self d)
    rw [outline_append_singleton] at he
    rcases mem_draw he with
      he | ⟨source, rfl, horigin⟩ | ⟨source, rfl, hsource⟩ | ⟨source, target, rfl, hplace, horigin⟩
    · rcases ih hroots' he with ⟨source, hmem, horigin⟩ | ⟨source, target, hmem, hplace, horigin⟩
      · exact .inl ⟨source, List.mem_append_left _ hmem, horigin⟩
      · exact .inr ⟨source, target, List.mem_append_left _ hmem, hplace, horigin⟩
    · exact .inl ⟨source, hlast, horigin⟩
    · -- The source stands in the outline as a source, since no drawing leads to one.
      rcases ih hroots' hsource with
        ⟨source', hmem, -⟩ | ⟨source', target', hmem, rfl | rfl, horigin⟩
      · exact absurd rfl (hroots _ _ hlast _ (List.mem_append_left _ hmem))
      · exact .inr ⟨source, e.1, hlast, .inr rfl, horigin⟩
      · exact absurd rfl (hroots _ _ hlast _ (List.mem_append_left _ hmem))
    · exact .inr ⟨source, target, hlast, hplace, horigin⟩

theorem mem_outline_of_mem {ds : List Drawing} {source target : Place}
    (h : .fromEditor source target ∈ ds) : (target, Origin.editor source) ∈ outline ds := by
  induction ds using List.reverseRecOn with
  | nil => simp at h
  | append_singleton ds d ih =>
    rw [outline_append_singleton]
    rcases List.mem_append.mp h with h | h
    · exact subset_draw _ _ (ih h)
    · rw [← List.mem_singleton.mp h]
      exact List.mem_append_right _ (List.mem_singleton_self _)

private theorem roots_ne_target (hcompiled : (compileGraph options graph).result = .ok compiled) :
    ∀ source target, .fromCompiled source target ∈ drawings options graph data compiled →
      ∀ d ∈ drawings options graph data compiled, source ≠ d.target := by
  intro source target h d hd heq
  exact (drawings_roots hcompiled h hd).1 (heq ▸ List.prefix_refl _)

/-- Where drawings of a compiled graph put the parts of the editor graph. -/
theorem outline_editor (hcompiled : (compileGraph options graph).result = .ok compiled)
    {a : Place × Origin} (ha : a ∈ outline (drawings options graph data compiled)) {source : Place}
    (hsource : a.2 = .editor source) :
    .fromEditor source a.1 ∈ drawings options graph data compiled := by
  rcases mem_outline (roots_ne_target hcompiled) ha with
    ⟨source', hmem, horigin⟩ | ⟨source', target, -, -, horigin⟩
  · rw [hsource, Origin.editor.injEq] at horigin
    exact horigin ▸ hmem
  · simp [hsource] at horigin

/-- No part of a compiled graph comes to a class. -/
theorem outline_class (hcompiled : (compileGraph options graph).result = .ok compiled)
    {a : Place × Origin} (ha : a ∈ outline (drawings options graph data compiled)) (id : Scalar) :
    Apart a.1 (classPlace id) := by
  have htarget {d : Drawing} (hd : d ∈ drawings options graph data compiled) :
      Apart d.target (classPlace id) := by
    obtain ⟨filtered, surviving, links, hfilter, hids, -⟩ := compileGraph_eq_ok.mp hcompiled
    obtain ⟨e, -, index, -, hdraws⟩ := (mem_drawings hfilter hids).mp hd
    exact hdraws.apart_class id
  rcases mem_outline (roots_ne_target hcompiled) ha with ⟨source, hmem, -⟩ |
    ⟨source, target, hmem, hplace | hplace, -⟩
  · exact htarget hmem
  · obtain ⟨id', position, rfl⟩ := drawings_widgets hcompiled hmem
    rw [hplace]
    simp [Apart, widgetPlace, classPlace, List.cons_prefix_cons]
  · rw [hplace]
    exact htarget hmem

/-- Places that hold parts of different origins are apart, if one is told by texts and its part
comes from the editor graph. -/
theorem outline_apart (hcompiled : (compileGraph options graph).result = .ok compiled)
    {a b : Place × Origin} (ha : a ∈ outline (drawings options graph data compiled))
    (hb : b ∈ outline (drawings options graph data compiled)) {source : Place}
    (hsource : b.2 = .editor source) (htexts : Texts b.1) (hne : a.2 ≠ b.2) : Apart a.1 b.1 := by
  have hdraw := outline_editor hcompiled hb hsource
  by_contra hmeet
  rcases mem_outline (roots_ne_target hcompiled) ha with ⟨source', hmem, horigin⟩ |
    ⟨source', target, hmem, hplace | hplace, horigin⟩
  · have hsame := drawings_unique hcompiled hdraw hmem htexts hmeet
    obtain ⟨rfl, -⟩ := Drawing.fromEditor.inj hsame
    exact hne (horigin.trans hsource.symm)
  · rw [hplace] at hmeet
    exact hmeet (drawings_roots hcompiled hmem hdraw)
  · rw [hplace] at hmeet
    have hsame := drawings_unique hcompiled hdraw hmem htexts hmeet
    simp at hsame

theorem atPlace?_compiled (hcompiled : (compileGraph options graph).result = .ok compiled)
    (he : e ∈ compiled) (rest : Place) :
    Json.atPlace? (.field e.1 :: rest) compiled.toJson = Json.atPlace? rest e.2.toJson := by
  have htextual := compileGraph_textual hcompiled
  obtain ⟨s, hs⟩ := htextual.texts e he
  have hget : Entries.get? e.1 compiled = some e.2 :=
    Entries.get?_of_mem htextual.distinct he (by simp [hs])
  have hnode : Entries.get? e.1 compiled.entries = some e.2.toJson := by
    rw [ExecutionGraph.entries, Entries.get?_map, hget]
    rfl
  rw [compiled.toJson_eq, Json.atPlace?_cons, Json.child?, hnode, Option.bind_some]

theorem atPlace?_input (hcompiled : (compileGraph options graph).result = .ok compiled)
    (he : e ∈ compiled) {s : String} (hinput : (.str s, source) ∈ e.2.inputs) :
    Json.atPlace? (inputPlace e.1 (.str s)) compiled.toJson = some source.value := by
  have hget : Entries.get? (.str s) e.2.inputs = some source :=
    Entries.get?_of_mem (compileGraph_distinct hcompiled he) hinput (by simp)
  have hfield : e.2.toJson.child? (.field (.str "inputs")) = some (.obj (inputValues e.2.inputs)) :=
    e.2.field?_inputs
  rw [inputPlace, atPlace?_compiled hcompiled he, Json.atPlace?_cons, hfield, Option.bind_some,
    Json.atPlace?_cons, Json.child?, get?_inputValues, hget]
  rfl

theorem atPlace?_title (hcompiled : (compileGraph options graph).result = .ok compiled)
    (he : e ∈ compiled) (htruthy : e.2.title.truthy = true) :
    Json.atPlace? (titlePlace e.1) compiled.toJson = some e.2.title := by
  have hfield : e.2.toJson.child? (.field (.str "_meta")) =
      some (.ofFields [("title", e.2.title)]) := by
    cases hnull : e.2.widgets.isNull <;>
      simp [ExecutionNode.toJson, Json.ofFields, Json.child?, Entries.get?_cons, Editor.optionalField,
        hnull, htruthy]
  rw [titlePlace, atPlace?_compiled hcompiled he, Json.atPlace?_cons, hfield, Option.bind_some]
  simp [Json.atPlace?, Json.child?, Json.ofFields, Entries.get?_cons]

end NodeWorkflow.Compile
