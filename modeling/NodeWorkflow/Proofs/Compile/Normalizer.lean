import NodeWorkflow.Compile.EditorGraph
import NodeWorkflow.Proofs.Compile.Resolution

/-!
# What normalizers leave alone

A normalizer that goes by names gives values that are no references, and one that does not overwrite
gives them to inputs that hold no references. So normalizing a node by names never makes a
reference, and it takes none away unless an input is overwritten. A rule of another kind may do
either; class, widgets and title it leaves alone as well.
-/
namespace NodeWorkflow.Compile

namespace ExecutionNode

variable (node : ExecutionNode)

theorem isObj_toJson : node.toJson.isObj = true := rfl

theorem field_class : node.toJson.field "class_type" = .scalar node.type := by
  simp [toJson, Json.ofFields, Json.field, Json.field?, Entries.get?_cons]

theorem field?_class : node.toJson.field? "class_type" = some (.scalar node.type) := by
  simp [toJson, Json.ofFields, Json.field?, Entries.get?_cons]

theorem field?_widgets : node.toJson.field? "widgets_values" =
    if node.widgets.isNull then none else some node.widgets := by
  unfold toJson Editor.optionalField
  cases node.widgets.isNull <;> cases node.title.truthy <;>
    simp [Json.ofFields, Json.field?, Entries.get?_cons]

theorem field_widgets : node.toJson.field "widgets_values" = node.widgets := by
  rw [Json.field, field?_widgets]
  split
  next hnull =>
    unfold Json.isNull at hnull
    split at hnull <;> simp_all
  next => rfl

theorem field?_meta : node.toJson.field? "_meta" =
    if node.title.truthy then some (.ofFields [("title", node.title)]) else none := by
  unfold toJson Editor.optionalField
  cases node.widgets.isNull <;> cases node.title.truthy <;>
    simp [Json.ofFields, Json.field?, Entries.get?_cons]

theorem field?_inputs : node.toJson.field? "inputs" = some (.obj (inputValues node.inputs)) := by
  simp [toJson, Json.ofFields, Json.field?, Entries.get?_cons]

theorem nodeInputs_toJson : node.toJson.nodeInputs = inputValues node.inputs := by
  rw [Json.nodeInputs, field?_inputs]

end ExecutionNode

theorem get?_inputValues (inputs : Entries Source) (name : Scalar) :
    Entries.get? name (inputValues inputs) = (Entries.get? name inputs).map Source.value :=
  Entries.get?_map Source.value inputs

/-- The source is one that normalizers give. -/
def Source.IsUpdate : Source → Prop
  | .named _ _ | .prescribed _ => True
  | _ => False

namespace Normalizer
open Editor

def inputOf (inputs : Entries Json) (name : Scalar) : Json := (Entries.get? name inputs).getD .null

theorem inputsOf_toJson (node : ExecutionNode) :
    inputsOf node.toJson = .ok (inputValues node.inputs) := by
  have hfield : node.toJson.field "inputs" = .obj (inputValues node.inputs) := by
    rw [Json.field, node.field?_inputs]
    rfl
  rw [inputsOf, hfield, Json.orElse]
  cases inputValues node.inputs <;> rfl

/-- The normalizer goes by names; it is no rule of another kind. -/
def GoesByNames : Normalizer → Prop
  | .custom _ => False
  | _ => True

/-- A normalizer that goes by names and keeps the inputs that hold references. -/
def KeepsLinks : Normalizer → Prop
  | .byName _ overwrite => overwrite = false
  | .dualClip => True
  | .custom _ => False

theorem KeepsLinks.goesByNames {normalizer : Normalizer} (h : normalizer.KeepsLinks) :
    normalizer.GoesByNames := by
  cases normalizer with
  | custom rule => exact h
  | _ => trivial

theorem goesByNames_standard {name : String} {normalizer : Normalizer}
    (h : (name, normalizer) ∈ standard) : normalizer.GoesByNames := by
  simp only [standard, List.mem_cons, Prod.mk.injEq, List.not_mem_nil, or_false] at h
  rcases h with ⟨-, rfl⟩ | ⟨-, rfl⟩ | ⟨-, rfl⟩ | ⟨-, rfl⟩ | ⟨-, rfl⟩ <;> trivial

/-- An update that makes no reference, and takes none away if links are kept. -/
structure Harmless (inputs : Entries Json) (keepsLinks : Prop) (update : Scalar × Source) :
    Prop where
  literal : update.2.value.reference? = none
  given : update.2.IsUpdate
  unlinked : keepsLinks → (inputOf inputs update.1).reference? = none

variable {node : Json} {inputs : Entries Json} {updates out : Entries Source} {overwrite : Bool}

private theorem isReference_eq_false {v : Json} : v.isReference = false ↔ v.reference? = none := by
  simp [Json.isReference]

theorem feeds_eq_true (hinputs : inputsOf node = .ok inputs) {name v : Json}
    (h : feeds overwrite node name v = .ok true) :
    v.reference? = none ∧
      (overwrite = false → ∀ key, name = .scalar key → (inputOf inputs key).reference? = none) := by
  unfold feeds at h
  split at h
  next => simp at h
  next hskip =>
    have hv : v.reference? = none := by
      rw [← isReference_eq_false]
      simp_all
    refine ⟨hv, ?_⟩
    rintro rfl key rfl
    rw [if_neg (by simp)] at h
    obtain ⟨linked, hlinked, hkept⟩ := Except.map_eq_ok.mp h
    simp only [isLinked, hinputs] at hlinked
    obtain ⟨_, hok, hlinked⟩ := Except.bind_eq_ok.mp hlinked
    obtain ⟨_, hkey, hlinked⟩ := Except.bind_eq_ok.mp hlinked
    obtain rfl := Except.ok.inj hok
    obtain rfl := Except.ok.inj hkey
    have hisReference := Except.ok.inj hlinked
    rw [← isReference_eq_false, inputOf, hisReference]
    simpa using hkept

theorem Harmless.put {keepsLinks : Prop} (h : ∀ u ∈ updates, Harmless inputs keepsLinks u)
    {key : Scalar} {source : Source} (hnew : Harmless inputs keepsLinks (key, source)) :
    ∀ u ∈ updates.put key source, Harmless inputs keepsLinks u := by
  intro u hu
  rcases Entries.mem_put hu with hold | ⟨hvalue, hkey⟩
  · exact h u hold
  · refine ⟨hvalue ▸ hnew.literal, hvalue ▸ hnew.given, fun hkeeps => ?_⟩
    rcases hkey with rfl | hagrees
    · exact hnew.unlinked hkeeps
    · rw [inputOf, Entries.get?_congr hagrees]
      exact hnew.unlinked hkeeps

theorem namedUpdates_harmless (hinputs : inputsOf node = .ok inputs) {position : Nat}
    {names values : List Json} (h : namedUpdates overwrite node position names values updates = .ok out)
    (hupdates : ∀ u ∈ updates, Harmless inputs (overwrite = false) u) :
    ∀ u ∈ out, Harmless inputs (overwrite = false) u := by
  induction names generalizing position values updates with
  | nil =>
    obtain rfl : updates = out := by cases values <;> exact Except.ok.inj h
    exact hupdates
  | cons name names ih =>
    cases values with
    | nil =>
      obtain rfl : updates = out := Except.ok.inj h
      exact hupdates
    | cons v values =>
      simp only [namedUpdates] at h
      obtain ⟨fed, hfed, hrest⟩ := Except.bind_eq_ok.mp h
      cases fed with
      | false => exact ih hrest hupdates
      | true =>
        obtain ⟨key, hkey, hrest⟩ := Except.bind_eq_ok.mp hrest
        obtain ⟨hv, hname⟩ := feeds_eq_true hinputs hfed
        refine ih hrest (Harmless.put hupdates ⟨hv, trivial, fun hkeeps => ?_⟩)
        exact hname hkeeps key (Json.key_eq_ok.mp hkey)

theorem byNameUpdates_harmless (hinputs : inputsOf node = .ok inputs) {names : List Json}
    (h : byNameUpdates names overwrite node = .ok out) :
    ∀ u ∈ out, Harmless inputs (overwrite = false) u := by
  unfold byNameUpdates at h
  split at h
  · exact namedUpdates_harmless hinputs h (by simp)
  · obtain rfl := Except.ok.inj h
    simp

/-- The type that is out of date is no reference, wherever it comes from. -/
theorem dualClipUpdates_harmless (hinputs : inputsOf node = .ok inputs)
    (h : dualClipUpdates node = .ok out) : ∀ u ∈ out, Harmless inputs True u := by
  obtain ⟨named, hnamed, hrest⟩ := Except.bind_eq_ok.mp h
  have hharmless : ∀ u ∈ named, Harmless inputs True u := fun u hu =>
    have hu' := byNameUpdates_harmless hinputs hnamed u hu
    ⟨hu'.literal, hu'.given, fun _ => hu'.unlinked rfl⟩
  obtain ⟨_, hok, hrest⟩ := Except.bind_eq_ok.mp hrest
  obtain rfl := Except.ok.inj (hinputs.symm.trans hok)
  have hout := Except.ok.inj hrest
  have hstore (hunlinked : (inputOf inputs (.str "type")).reference? = none) :
      ∀ u ∈ named.put (.str "type") (.prescribed (.str "flux")), Harmless inputs True u :=
    Harmless.put hharmless ⟨by rfl, trivial, fun _ => hunlinked⟩
  cases htype : Entries.get? (.str "type") named with
  | some source =>
    obtain ⟨key, hmem, hagrees⟩ := Entries.exists_of_get? htype
    have hunlinked := (hharmless _ hmem).unlinked trivial
    rw [inputOf, Entries.get?_congr hagrees] at hunlinked
    simp only [htype] at hout
    split at hout
    · exact hout ▸ hstore hunlinked
    · exact hout ▸ hharmless
  | none =>
    simp only [htype] at hout
    split at hout
    next hdual =>
      refine hout ▸ hstore ?_
      rw [inputOf]
      cases hvalue : (Entries.get? (.str "type") inputs).getD .null with
      | list items => simp [hvalue, Json.same, Json.agrees] at hdual
      | _ => rfl
    next => exact hout ▸ hharmless

theorem updates_harmless {normalizer : Normalizer} (hnamed : normalizer.GoesByNames)
    (hinputs : inputsOf node = .ok inputs) (h : normalizer.updates node = .ok out) :
    ∀ u ∈ out, Harmless inputs normalizer.KeepsLinks u := by
  unfold updates at h
  split at h
  · simp at h
  · cases normalizer with
    | byName names overwrite => exact byNameUpdates_harmless hinputs h
    | dualClip => exact dualClipUpdates_harmless hinputs h
    | custom rule => exact hnamed.elim

theorem updates_given {normalizer : Normalizer} (hinputs : inputsOf node = .ok inputs)
    (h : normalizer.updates node = .ok out) : ∀ u ∈ out, u.2.IsUpdate := by
  cases normalizer with
  | custom rule =>
    unfold updates at h
    split at h
    · simp at h
    · obtain ⟨given, -, rfl⟩ := Except.map_eq_ok.mp h
      intro u hu
      obtain ⟨e, -, rfl⟩ := List.mem_map.mp hu
      trivial
  | byName names overwrite =>
    have hnamed : (byName names overwrite).GoesByNames := trivial
    exact fun u hu => (updates_harmless hnamed hinputs h u hu).given
  | dualClip =>
    have hnamed : dualClip.GoesByNames := trivial
    exact fun u hu => (updates_harmless hnamed hinputs h u hu).given

end Normalizer

variable {options : Options} {node out : ExecutionNode}

theorem Options.mem_of_normalizer? {type : Scalar} {normalizer : Normalizer}
    (h : options.normalizer? type = some normalizer) :
    ∃ name, (name, normalizer) ∈ options.normalizers := by
  unfold normalizer? at h
  split at h
  next name =>
    obtain ⟨l, r, heq, -⟩ := List.lookup_eq_some_iff.mp h
    exact ⟨name, by simp [heq]⟩
  next => simp at h

/-- Normalization keeps class, widgets and title; every input was there before or is one that the
normalizer gave. -/
theorem normalize_eq_ok (h : normalize options node = .ok out) :
    out.type = node.type ∧ out.widgets = node.widgets ∧ out.title = node.title ∧
      ∀ e ∈ out.inputs, e ∈ node.inputs ∨ e.2.IsUpdate := by
  unfold normalize at h
  split at h
  · obtain rfl := Except.ok.inj h
    exact ⟨rfl, rfl, rfl, fun e he => .inl he⟩
  · obtain ⟨updates, hupdates, rfl⟩ := Except.map_eq_ok.mp h
    refine ⟨rfl, rfl, rfl, fun e he => ?_⟩
    rcases Entries.mem_putAll he with hold | ⟨u, hu, hvalue⟩
    · exact .inl hold
    · exact .inr (hvalue ▸ Normalizer.updates_given (Normalizer.inputsOf_toJson node) hupdates u hu)

theorem mem_of_normalize (hnormalizers : ∀ e ∈ options.normalizers, e.2.GoesByNames)
    (h : normalize options node = .ok out) :
    ∀ e ∈ out.inputs, e ∈ node.inputs ∨ e.2.value.reference? = none ∧ e.2.IsUpdate := by
  unfold normalize at h
  split at h
  · exact fun e he => .inl (Except.ok.inj h ▸ he)
  next normalizer hnormalizer =>
    obtain ⟨_, hmem⟩ := Options.mem_of_normalizer? hnormalizer
    obtain ⟨updates, hupdates, rfl⟩ := Except.map_eq_ok.mp h
    intro e he
    rcases Entries.mem_putAll he with hold | ⟨u, hu, hvalue⟩
    · exact .inl hold
    · have hharmless := Normalizer.updates_harmless (hnormalizers _ hmem)
        (Normalizer.inputsOf_toJson node) hupdates u hu
      exact .inr ⟨hvalue ▸ hharmless.literal, hvalue ▸ hharmless.given⟩

theorem normalize_distinct (h : normalize options node = .ok out) (hinputs : node.inputs.Distinct) :
    out.inputs.Distinct := by
  unfold normalize at h
  split at h
  · exact Except.ok.inj h ▸ hinputs
  · obtain ⟨updates, -, rfl⟩ := Except.map_eq_ok.mp h
    exact Entries.distinct_putAll hinputs updates

/-- The references of a node, by the names of the inputs. -/
def referenceAt? (inputs : Entries Source) (name : Scalar) : Option Reference :=
  (Entries.get? name inputs).bind fun source => source.value.reference?

def Normalizer.merge (normalizer : Normalizer) (node : ExecutionNode) :
    Except Fault ExecutionNode :=
  (normalizer.updates node.toJson).map fun updates =>
    { node with inputs := Entries.putAll updates node.inputs }

theorem normalize_of_normalizer {normalizer : Normalizer}
    (h : options.normalizer? node.type = some normalizer) :
    normalize options node = normalizer.merge node := by
  rw [normalize, h]
  rfl

theorem Normalizer.referenceAt?_merge {normalizer : Normalizer} (hkeeps : normalizer.KeepsLinks)
    (h : normalizer.merge node = .ok out) (name : Scalar) :
    referenceAt? out.inputs name = referenceAt? node.inputs name := by
  obtain ⟨updates, hupdates, rfl⟩ := Except.map_eq_ok.mp h
  rw [referenceAt?, Entries.get?_putAll]
  cases hupdate : Entries.get? name updates.reverse with
  | none => rfl
  | some source =>
    obtain ⟨key, hmem, hagrees⟩ := Entries.exists_of_get? hupdate
    have hharmless := updates_harmless hkeeps.goesByNames (inputsOf_toJson node) hupdates _
      (List.mem_reverse.mp hmem)
    have hbefore := hharmless.unlinked hkeeps
    rw [inputOf, Entries.get?_congr hagrees, get?_inputValues] at hbefore
    rw [Option.some_or, Option.bind_some, hharmless.literal, referenceAt?]
    cases hold : Entries.get? name node.inputs with
    | none => rfl
    | some old => simpa [hold] using hbefore.symm

/-- If all normalizers keep links, the references of a node are the same before and after. -/
theorem referenceAt?_normalize (hkeeps : ∀ e ∈ options.normalizers, e.2.KeepsLinks)
    (h : normalize options node = .ok out) (name : Scalar) :
    referenceAt? out.inputs name = referenceAt? node.inputs name := by
  cases hnormalizer : options.normalizer? node.type with
  | none =>
    rw [normalize, hnormalizer] at h
    rw [Except.ok.inj h]
  | some normalizer =>
    obtain ⟨_, hmem⟩ := Options.mem_of_normalizer? hnormalizer
    rw [normalize_of_normalizer hnormalizer] at h
    exact Normalizer.referenceAt?_merge (hkeeps _ hmem) h name

end NodeWorkflow.Compile
