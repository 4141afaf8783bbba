import NodeWorkflow.Proofs.Compile.Normalizer

/-!
# What normalizers supply

A normalizer pairs names with widget values. An input that a node does not have yet comes in if one
of these pairs has its name and a value that can be taken, and in no other way.
-/
namespace NodeWorkflow.Compile

namespace Normalizer

/-- The names that the normalizer pairs with the widget values, in order. -/
def names : Normalizer → List Json
  | .byName names _ => names
  | .dualClip => dualClipNames
  | .custom _ => []

/-- A widget value can be taken for an input if it is neither null nor a reference. -/
def usable (v : Json) : Bool := !(v.isNull || v.isReference)

def Pairs (names values : List Json) (name : String) : Prop :=
  ∃ v, (.str name, v) ∈ names.zip values ∧ usable v = true

/-- The normalizer has a widget value for the name. -/
def Supplies (normalizer : Normalizer) (widgets : Json) (name : String) : Prop :=
  ∃ values, widgets = .list values ∧ Pairs normalizer.names values name

variable {node : Json} {inputs : Entries Json} {updates out : Entries Source} {overwrite : Bool}
  {name : String} {names values : List Json}

@[simp] theorem not_pairs_nil_left : ¬ Pairs [] values name := by simp [Pairs]

@[simp] theorem not_pairs_nil_right : ¬ Pairs names [] name := by simp [Pairs]

theorem pairs_cons {n v : Json} : Pairs (n :: names) (v :: values) name ↔
    n = .str name ∧ usable v = true ∨ Pairs names values name := by
  simp only [Pairs, List.zip_cons_cons, List.mem_cons, Prod.mk.injEq]
  constructor
  · rintro ⟨w, ⟨rfl, rfl⟩ | hmem, hw⟩
    · exact .inl ⟨rfl, hw⟩
    · exact .inr ⟨w, hmem, hw⟩
  · rintro (⟨rfl, hv⟩ | ⟨w, hmem, hw⟩)
    · exact ⟨v, .inl ⟨rfl, rfl⟩, hv⟩
    · exact ⟨w, .inr hmem, hw⟩

/-- The last widget value that goes with a name and can be taken, with its position. -/
def lastOffer? (name : String) : Nat → List Json → List Json → Option Source
  | position, n :: names, v :: values =>
    (lastOffer? name (position + 1) names values).or
      (if n = .str name ∧ usable v = true then some (.named position v) else none)
  | _, _, _ => none

theorem isSome_lastOffer? {position : Nat} :
    (lastOffer? name position names values).isSome ↔ Pairs names values name := by
  induction names generalizing position values with
  | nil => simp [lastOffer?]
  | cons n names ih =>
    cases values with
    | nil => simp [lastOffer?]
    | cons v values =>
      rw [lastOffer?, pairs_cons, ← @ih values (position + 1), Option.isSome_or, Bool.or_eq_true,
        or_comm]
      split <;> simp_all

/-- What is offered for the input with a name is taken unless the input is linked and kept. -/
def takes (overwrite : Bool) (inputs : Entries Json) (name : String) : Bool :=
  overwrite || !(inputOf inputs (.str name)).isReference

theorem feeds_str (hinputs : inputsOf node = .ok inputs) (v : Json) :
    feeds overwrite node (.str name) v = .ok (usable v && takes overwrite inputs name) := by
  have hlinked : isLinked node (.str name) = .ok (inputOf inputs (.str name)).isReference := by
    rw [isLinked, hinputs]
    rfl
  have hname : (Json.str name).isNull = false := rfl
  unfold feeds usable takes
  rw [hlinked, hname, Bool.false_or]
  cases v.isNull || v.isReference <;> cases overwrite <;> rfl

/-- An input is given the last value that is offered for its name, if it takes any. -/
theorem get?_namedUpdates (hinputs : inputsOf node = .ok inputs) {position : Nat}
    (h : namedUpdates overwrite node position names values updates = .ok out) :
    Entries.get? (.str name) out =
      (if takes overwrite inputs name then lastOffer? name position names values else none).or
        (Entries.get? (.str name) updates) := by
  induction names generalizing position values updates with
  | nil =>
    obtain rfl : updates = out := by cases values <;> exact Except.ok.inj h
    simp [lastOffer?]
  | cons n names ih =>
    cases values with
    | nil =>
      obtain rfl : updates = out := Except.ok.inj h
      simp [lastOffer?]
    | cons v values =>
      simp only [namedUpdates] at h
      obtain ⟨fed, hfed, hrest⟩ := Except.bind_eq_ok.mp h
      rw [lastOffer?]
      by_cases hname : n = .str name
      · subst hname
        obtain rfl := Except.ok.inj ((feeds_str hinputs v).symm.trans hfed)
        cases husable : usable v <;> cases htakes : takes overwrite inputs name <;>
          rw [husable, htakes] at hrest <;> rw [ih hrest] <;>
          simp [htakes, Entries.get?_put]
      · cases fed with
        | false => simp [ih hrest, hname]
        | true =>
          obtain ⟨key, hkey, hrest⟩ := Except.bind_eq_ok.mp hrest
          rw [Json.key_eq_ok] at hkey
          have hother : key.agrees (.str name) = false := by
            rw [← Bool.not_eq_true, Scalar.agrees_str_iff]
            rintro rfl
            exact hname hkey
          simp [ih hrest, Entries.get?_put, hother, hname]

def offer? (names : List Json) (widgets : Json) (name : String) : Option Source :=
  match widgets with
  | .list values => lastOffer? name 0 names values
  | _ => none

theorem get?_byNameUpdates (hinputs : inputsOf node = .ok inputs)
    (h : byNameUpdates names overwrite node = .ok out) :
    Entries.get? (.str name) out = if takes overwrite inputs name then
      offer? names (node.field "widgets_values") name else none := by
  rw [byNameUpdates] at h
  cases hwidgets : node.field "widgets_values" with
  | list values =>
    rw [hwidgets] at h
    rw [get?_namedUpdates hinputs h, Entries.get?_nil, Option.or_none, offer?]
  | _ =>
    rw [hwidgets] at h
    obtain rfl := Except.ok.inj h
    simp [offer?]

theorem isSome_byNameUpdates (hinputs : inputsOf node = .ok inputs)
    (habsent : Entries.get? (.str name) inputs = none)
    (h : byNameUpdates names overwrite node = .ok out) :
    (Entries.get? (.str name) out).isSome ↔
      ∃ values, node.field "widgets_values" = .list values ∧ Pairs names values name := by
  have htakes : takes overwrite inputs name = true := by
    simp [takes, inputOf, habsent, Json.isReference, Json.reference?]
  rw [get?_byNameUpdates hinputs h, if_pos htakes]
  unfold offer?
  split
  next values hvalues => simp [isSome_lastOffer?, hvalues]
  next hvalues => simp_all

/-- A type that is out of date is replaced where there is one; it does not come in. -/
theorem isSome_dualClipUpdates (hinputs : inputsOf node = .ok inputs)
    (habsent : Entries.get? (.str name) inputs = none) (h : dualClipUpdates node = .ok out) :
    (Entries.get? (.str name) out).isSome ↔
      ∃ values, node.field "widgets_values" = .list values ∧ Pairs dualClipNames values name := by
  obtain ⟨named, hnamed, hrest⟩ := Except.bind_eq_ok.mp h
  obtain ⟨_, hok, hrest⟩ := Except.bind_eq_ok.mp hrest
  obtain rfl := Except.ok.inj (hinputs.symm.trans hok)
  rw [← isSome_byNameUpdates hinputs habsent hnamed]
  have hout := Except.ok.inj hrest
  by_cases hname : name = "type"
  · subst hname
    cases htype : Entries.get? (.str "type") named with
    | none =>
      have hnull : Json.null.same (.str "dual") = false := by decide
      simp only [htype, habsent, Option.getD_none, hnull] at hout
      simp [← hout, htype]
    | some source =>
      simp only [htype] at hout
      split at hout <;> simp [← hout, htype, Entries.get?_put]
  · have hother : (Scalar.str "type").agrees (.str name) = false := by
      rw [← Bool.not_eq_true, Scalar.agrees_str_iff, Scalar.str.injEq]
      exact Ne.symm hname
    rw [← hout, apply_ite (Entries.get? (.str name)), Entries.get?_put, hother]
    simp

theorem isSome_updates {normalizer : Normalizer} (hnamed : normalizer.GoesByNames)
    (hinputs : inputsOf node = .ok inputs) (habsent : Entries.get? (.str name) inputs = none)
    (h : normalizer.updates node = .ok out) :
    (Entries.get? (.str name) out).isSome ↔
      normalizer.Supplies (node.field "widgets_values") name := by
  unfold updates at h
  split at h
  · simp at h
  · cases normalizer with
    | byName names overwrite => exact isSome_byNameUpdates hinputs habsent h
    | dualClip => exact isSome_dualClipUpdates hinputs habsent h
    | custom rule => exact hnamed.elim

end Normalizer

variable {options : Options} {node out : ExecutionNode} {name : String}

/-- An input is missing after normalization if it was before and the normalizer does not supply
it. -/
theorem get?_normalize_eq_none (hnormalizers : ∀ e ∈ options.normalizers, e.2.GoesByNames)
    (h : normalize options node = .ok out) :
    Entries.get? (.str name) out.inputs = none ↔
      Entries.get? (.str name) node.inputs = none ∧
        ∀ normalizer, options.normalizer? node.type = some normalizer →
          ¬ normalizer.Supplies node.widgets name := by
  unfold normalize at h
  split at h
  next hnone =>
    obtain rfl := Except.ok.inj h
    simp [hnone]
  next normalizer hnormalizer =>
    obtain ⟨_, hmem⟩ := Options.mem_of_normalizer? hnormalizer
    obtain ⟨updates, hupdates, rfl⟩ := Except.map_eq_ok.mp h
    rw [Entries.get?_putAll, Option.or_eq_none_iff, and_comm, Entries.get?_reverse_eq_none_iff]
    refine and_congr_right fun habsent => ?_
    have habsent : Entries.get? (.str name) (inputValues node.inputs) = none := by
      rw [get?_inputValues, habsent, Option.map_none]
    have hsome := Normalizer.isSome_updates (hnormalizers _ hmem) (Normalizer.inputsOf_toJson node)
      habsent hupdates
    rw [node.field_widgets] at hsome
    simp [hnormalizer, ← hsome]

end NodeWorkflow.Compile
