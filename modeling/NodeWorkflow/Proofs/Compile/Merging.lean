import NodeWorkflow.Proofs.Compile.Keys
import NodeWorkflow.Proofs.Compile.Supply
import NodeWorkflow.Proofs.Json.Decoded
import NodeWorkflow.Proofs.Validation.Acyclic

/-!
# Merging what normalizers give

A normalizer reads the inputs that its updates are stored over. Inputs of other names and inputs
that are kept stay as they are, and each other input takes the last widget value that goes with its
name. A second run finds the same links and the same widgets, so it changes nothing; a clip type
that was out of date is not any more.
-/
namespace NodeWorkflow.Compile

def ExecutionNode.input? (node : ExecutionNode) (key : Scalar) : Option Json :=
  Entries.get? key (inputValues node.inputs)

namespace Normalizer

/-- The data that stands for a name, or for a gap among names. -/
def label : Option String → Json
  | some name => .str name
  | none => .null

/-- Widgets feed the inputs named at their positions; a gap skips one. -/
def ofNames (names : List (Option String)) (overwrite : Bool) : Normalizer :=
  .byName (names.map label) overwrite

example : standard.lookup "KSampler" = some (ofNames [some "seed", none, some "steps", some "cfg",
    some "sampler_name", some "scheduler", some "denoise"] false) := rfl

/-- The name and the widget at a position go together, and the value can be taken. -/
structure Offers (names : List (Option String)) (widgets : Json) (name : String) (i : Nat)
    (v : Json) : Prop where
  named : names[i]? = some (some name)
  widget : ∃ values, widgets = .list values ∧ values[i]? = some v
  notNull : v.isNull = false
  notReference : v.isReference = false

def Open (overwrite : Bool) (node : ExecutionNode) (name : String) : Prop :=
  overwrite = true ∨ ∀ v, node.input? (.str name) = some v → v.isReference = false

def KeepsReferences (node merged : ExecutionNode) : Prop :=
  ∀ key v, node.input? key = some v → v.isReference = true → merged.input? key = some v

/-- The inputs of a node after a normalizer that goes by names. -/
structure MergedByName (names : List (Option String)) (overwrite : Bool)
    (node merged : ExecutionNode) : Prop where
  others : ∀ key, (∀ name, some name ∈ names → key ≠ .str name) →
    merged.input? key = node.input? key
  linked : overwrite = false → KeepsReferences node merged
  given : ∀ name i v, Open overwrite node name → Offers names node.widgets name i v →
    (∀ j w, i < j → ¬ Offers names node.widgets name j w) → merged.input? (.str name) = some v
  left : ∀ name, (∀ i v, ¬ Offers names node.widgets name i v) →
    merged.input? (.str name) = node.input? (.str name)

variable {normalizer : Normalizer} {node merged : ExecutionNode} {data : Json}
  {inputs : Entries Json} {updates out : Entries Source} {overwrite : Bool} {name : String}
  {names values : List Json} {labels : List (Option String)}

theorem label_eq_str {n : Option String} : label n = .str name ↔ n = some name := by
  cases n <;> simp [label]

theorem usable_iff {v : Json} : usable v = true ↔ v.isNull = false ∧ v.isReference = false := by
  simp [usable]

theorem pairs_iff : Pairs names values name ↔
    ∃ (i : Nat) (v : Json), names[i]? = some (.str name) ∧ values[i]? = some v ∧
      usable v = true := by
  constructor
  · rintro ⟨v, hmem, hv⟩
    obtain ⟨i, hi⟩ := List.mem_iff_getElem?.mp hmem
    obtain ⟨hname, hvalue⟩ := List.getElem?_zip_eq_some.mp hi
    exact ⟨i, v, hname, hvalue, hv⟩
  · rintro ⟨i, v, hname, hvalue, hv⟩
    exact ⟨v, List.mem_iff_getElem?.mpr ⟨i, List.getElem?_zip_eq_some.mpr ⟨hname, hvalue⟩⟩, hv⟩

theorem lastOffer?_of_last {position i : Nat} {v : Json} (hname : names[i]? = some (.str name))
    (hvalue : values[i]? = some v) (hv : usable v = true)
    (hlast : ∀ j w, i < j → names[j]? = some (.str name) → values[j]? = some w → usable w = false) :
    lastOffer? name position names values = some (.named (position + i) v) := by
  induction names generalizing position values i with
  | nil => simp at hname
  | cons n names ih =>
    cases values with
    | nil => simp at hvalue
    | cons w values =>
      rw [lastOffer?]
      cases i with
      | zero =>
        obtain rfl : n = .str name := by simpa using hname
        obtain rfl : w = v := by simpa using hvalue
        have hlater : lastOffer? name (position + 1) names values = none := by
          rw [← Option.not_isSome_iff_eq_none, isSome_lastOffer?, pairs_iff]
          rintro ⟨j, w', hn, hw, husable⟩
          simpa [husable] using hlast (j + 1) w' (Nat.succ_pos j) hn hw
        simp [hlater, hv]
      | succ i =>
        rw [ih (by simpa using hname) (by simpa using hvalue) fun j w hij hn hw =>
          hlast (j + 1) w (Nat.succ_lt_succ hij) hn hw, Option.some_or]
        congr 2
        omega

theorem offer?_of_last {i : Nat} {v : Json} {widgets : Json}
    (hoffers : Offers labels widgets name i v)
    (hlast : ∀ j w, i < j → ¬ Offers labels widgets name j w) :
    offer? (labels.map label) widgets name = some (.named i v) := by
  obtain ⟨values, rfl, hvalue⟩ := hoffers.widget
  have hlabel : (labels.map label)[i]? = some (.str name) := by
    rw [List.getElem?_map, hoffers.named]
    rfl
  have husable := usable_iff.mpr ⟨hoffers.notNull, hoffers.notReference⟩
  rw [offer?, lastOffer?_of_last hlabel hvalue husable, Nat.zero_add]
  intro j w hij hn hw
  rw [List.getElem?_map, Option.map_eq_some_iff] at hn
  obtain ⟨n, hn, hlabelled⟩ := hn
  rw [label_eq_str.mp hlabelled] at hn
  rw [← Bool.not_eq_true, usable_iff]
  rintro ⟨hnull, href⟩
  exact hlast j w hij ⟨hn, ⟨values, rfl, hw⟩, hnull, href⟩

theorem offers_of_offer? {widgets : Json} {source : Source}
    (h : offer? (labels.map label) widgets name = some source) :
    ∃ i v, Offers labels widgets name i v := by
  unfold offer? at h
  split at h
  next values =>
    have hpairs := isSome_lastOffer?.mp (Option.isSome_of_eq_some h)
    obtain ⟨i, v, hn, hv, husable⟩ := pairs_iff.mp hpairs
    rw [List.getElem?_map, Option.map_eq_some_iff] at hn
    obtain ⟨n, hn, hlabelled⟩ := hn
    rw [label_eq_str.mp hlabelled] at hn
    obtain ⟨hnull, href⟩ := usable_iff.mp husable
    exact ⟨i, v, hn, ⟨values, rfl, hv⟩, hnull, href⟩
  next => simp at h

section Textual

variable (hnames : ∀ n ∈ names, ∃ m, n = label m)
include hnames

theorem textual_namedUpdates {position : Nat}
    (h : namedUpdates overwrite data position names values updates = .ok out)
    (hupdates : updates.Textual) : out.Textual := by
  induction names generalizing position values updates with
  | nil =>
    obtain rfl : updates = out := by cases values <;> exact Except.ok.inj h
    exact hupdates
  | cons n names ih =>
    obtain ⟨⟨m, rfl⟩, hrest⟩ := List.forall_mem_cons.mp hnames
    cases values with
    | nil =>
      obtain rfl : updates = out := Except.ok.inj h
      exact hupdates
    | cons v values =>
      simp only [namedUpdates] at h
      obtain ⟨fed, hfed, hnext⟩ := Except.bind_eq_ok.mp h
      cases fed with
      | false => exact ih hrest hnext hupdates
      | true => cases m with
        | none => simp [label, feeds, Json.isNull] at hfed
        | some s =>
          obtain ⟨key, hkey, hnext⟩ := Except.bind_eq_ok.mp hnext
          obtain rfl : Scalar.str s = key := Except.ok.inj hkey
          exact ih hrest hnext (hupdates.put s _)

theorem textual_byNameUpdates (h : byNameUpdates names overwrite data = .ok out) : out.Textual := by
  have hempty : Entries.Textual ([] : Entries Source) := ⟨by simp, List.Pairwise.nil⟩
  unfold byNameUpdates at h
  split at h
  · exact textual_namedUpdates hnames h hempty
  · exact Except.ok.inj h ▸ hempty

end Textual

/-- The type of a loader of two clips as it is judged: what a widget gives it, or what it is. -/
def clipType (named : Entries Source) (inputs : Entries Json) : Json :=
  match Entries.get? (.str "type") named with
  | some source => source.value
  | none => inputOf inputs (.str "type")

/-- The clip type is replaced if it is out of date, and all else goes by names. -/
theorem dualClipUpdates_eq_ok (hinputs : inputsOf data = .ok inputs)
    (h : dualClipUpdates data = .ok out) :
    ∃ named, byNameUpdates dualClipNames false data = .ok named ∧
      out = if clipType named inputs = .str "dual" then
        named.put (.str "type") (.prescribed (.str "flux")) else named := by
  obtain ⟨named, hnamed, hrest⟩ := Except.bind_eq_ok.mp h
  obtain ⟨_, hok, hrest⟩ := Except.bind_eq_ok.mp hrest
  obtain rfl := Except.ok.inj (hinputs.symm.trans hok)
  have hout : (if (clipType named inputs).same (.str "dual") then
      named.put (.str "type") (.prescribed (.str "flux")) else named) = out := Except.ok.inj hrest
  exact ⟨named, hnamed, hout.symm.trans (if_congr Json.same_str_iff rfl rfl)⟩

theorem clipType_of_given {source : Source}
    (h : Entries.get? (.str "type") updates = some source) :
    clipType updates inputs = source.value := by
  rw [clipType, h]

theorem clipType_of_absent (h : Entries.get? (.str "type") updates = none) :
    clipType updates inputs = inputOf inputs (.str "type") := by
  rw [clipType, h]

theorem get?_replaced (c : Prop) [Decidable c] (named : Entries Source) (name : String) :
    Entries.get? (.str name)
        (if c then named.put (.str "type") (.prescribed (.str "flux")) else named) =
      if c ∧ name = "type" then some (.prescribed (.str "flux"))
      else Entries.get? (.str name) named := by
  by_cases hc : c
  · rw [if_pos hc, Entries.get?_put, Scalar.agrees_str]
    by_cases hname : name = "type"
    · simp [hc, hname]
    · rw [if_neg (by simpa using Ne.symm hname), if_neg fun hboth => hname hboth.2]
  · rw [if_neg hc, if_neg fun hboth => hc hboth.1]

def GoesByTexts (normalizer : Normalizer) : Prop :=
  normalizer.GoesByNames ∧ ∀ n ∈ normalizer.names, ∃ m, n = label m

theorem goesByTexts_dualClip : dualClip.GoesByTexts := by
  refine ⟨trivial, fun n hn => ?_⟩
  simp only [Normalizer.names, dualClipNames, List.mem_cons, List.not_mem_nil, or_false] at hn
  rcases hn with rfl | rfl | rfl
  · exact ⟨some "clip_name1", rfl⟩
  · exact ⟨some "clip_name2", rfl⟩
  · exact ⟨some "type", rfl⟩

theorem namesKeys_dualClip : dualClip.NamesKeys := trivial

theorem keepsLinks_dualClip : dualClip.KeepsLinks := trivial

theorem textual_updates (htexts : normalizer.GoesByTexts)
    (h : normalizer.updates node.toJson = .ok out) : out.Textual := by
  unfold Normalizer.updates at h
  rw [node.isObj_toJson] at h
  cases normalizer with
  | byName names overwrite => exact textual_byNameUpdates htexts.2 h
  | custom rule => exact htexts.1.elim
  | dualClip =>
    obtain ⟨named, hnamed, rfl⟩ := dualClipUpdates_eq_ok (inputsOf_toJson node) h
    have htextual := textual_byNameUpdates htexts.2 hnamed
    split
    · exact htextual.put "type" _
    · exact htextual

theorem merge_eq_ok (htexts : normalizer.GoesByTexts)
    (h : normalizer.merge node = .ok merged) :
    ∃ updates, normalizer.updates node.toJson = .ok updates ∧ updates.Textual ∧
      merged.widgets = node.widgets ∧ ∀ key, Entries.get? key merged.inputs =
        (Entries.get? key updates).or (Entries.get? key node.inputs) := by
  obtain ⟨updates, hupdates, rfl⟩ := Except.map_eq_ok.mp h
  have htextual := textual_updates htexts hupdates
  exact ⟨updates, hupdates, htextual, rfl,
    fun key => Entries.get?_putAll_of_distinct htextual.distinct key node.inputs⟩

/-- A node is settled once its inputs hold what the normalizer gives. -/
theorem merge_of_settled (htexts : normalizer.GoesByTexts)
    (hupdates : normalizer.updates node.toJson = .ok updates)
    (h : ∀ name source, Entries.get? (.str name) updates = some source →
      Entries.get? (.str name) node.inputs = some source) : normalizer.merge node = .ok node := by
  have htextual := textual_updates htexts hupdates
  have hstored : Entries.putAll updates node.inputs = node.inputs := by
    refine Entries.putAll_of_stored fun e he => ?_
    obtain ⟨s, hs⟩ := htextual.texts e he
    rw [hs]
    exact h s e.2 (htextual.get?_of_mem (hs ▸ he))
  rw [merge, hupdates]
  exact congrArg (fun inputs => Except.ok { node with inputs }) hstored

theorem reference?_inputOf (inputs : Entries Source) (key : Scalar) :
    (inputOf (inputValues inputs) key).reference? = referenceAt? inputs key := by
  rw [inputOf, get?_inputValues, referenceAt?]
  cases Entries.get? key inputs <;> rfl

theorem keepsReferences_merge (hkeeps : normalizer.KeepsLinks)
    (h : normalizer.merge node = .ok merged) : KeepsReferences node merged := by
  intro key v hv href
  have hsame := referenceAt?_merge hkeeps h key
  rw [ExecutionNode.input?, get?_inputValues, Option.map_eq_some_iff] at hv ⊢
  obtain ⟨source, hsource, rfl⟩ := hv
  obtain ⟨r, hr⟩ := Option.isSome_iff_exists.mp href
  have hbefore : referenceAt? node.inputs key = some r := by
    rw [referenceAt?, hsource, Option.bind_some, hr]
  obtain ⟨after, hafter, hr'⟩ := Option.bind_eq_some_iff.mp (hsame.trans hbefore)
  exact ⟨after, hafter, (Validation.reference?_eq_some.mp hr').trans
    (Validation.reference?_eq_some.mp hr).symm⟩

theorem takes_merged (hkeeps : overwrite = false → normalizer.KeepsLinks)
    (h : normalizer.merge node = .ok merged) (name : String) :
    takes overwrite (inputValues merged.inputs) name = takes overwrite (inputValues node.inputs) name := by
  cases overwrite with
  | true => rfl
  | false => rw [takes, takes, Json.isReference, Json.isReference, reference?_inputOf,
      reference?_inputOf, referenceAt?_merge (hkeeps rfl) h]

theorem takes_iff : takes overwrite (inputValues node.inputs) name = true ↔
    Open overwrite node name := by
  rw [takes, Bool.or_eq_true, Open]
  refine or_congr_right ?_
  rw [inputOf, ExecutionNode.input?]
  cases Entries.get? (.str name) (inputValues node.inputs) with
  | none => simp [Json.isReference, Json.reference?]
  | some v => simp

theorem get?_byNameUpdates_merged {before after : Entries Source}
    (hkeeps : overwrite = false → normalizer.KeepsLinks) (h : normalizer.merge node = .ok merged)
    (hwidgets : merged.widgets = node.widgets)
    (hbefore : byNameUpdates names overwrite node.toJson = .ok before)
    (hafter : byNameUpdates names overwrite merged.toJson = .ok after) (name : String) :
    Entries.get? (.str name) after = Entries.get? (.str name) before := by
  rw [get?_byNameUpdates (inputsOf_toJson merged) hafter,
    get?_byNameUpdates (inputsOf_toJson node) hbefore, takes_merged hkeeps h,
    merged.field_widgets, node.field_widgets, hwidgets]

section ByName

theorem goesByTexts_ofNames : (ofNames labels overwrite).GoesByTexts := by
  refine ⟨trivial, fun n hn => ?_⟩
  obtain ⟨m, -, rfl⟩ := List.mem_map.mp hn
  exact ⟨m, rfl⟩

theorem namesKeys_ofNames : (ofNames labels overwrite).NamesKeys := by
  intro n hn
  obtain ⟨m, -, rfl⟩ := List.mem_map.mp hn
  cases m
  · exact ⟨_, rfl⟩
  · exact ⟨_, rfl⟩

variable (h : (ofNames labels overwrite).merge node = .ok merged)
include h

theorem input?_merged_byName (name : String) : merged.input? (.str name) =
    if takes overwrite (inputValues node.inputs) name then
      ((offer? (labels.map label) node.widgets name).map Source.value).or (node.input? (.str name))
    else node.input? (.str name) := by
  obtain ⟨updates, hupdates, -, -, hget⟩ := merge_eq_ok goesByTexts_ofNames h
  rw [ExecutionNode.input?, ExecutionNode.input?, get?_inputValues, get?_inputValues, hget,
    get?_byNameUpdates (inputsOf_toJson node) hupdates, node.field_widgets]
  split
  · cases offer? (labels.map label) node.widgets name <;> rfl
  · rfl

theorem mergedByName_merge : MergedByName labels overwrite node merged where
  others key hkey := by
    obtain ⟨updates, hupdates, htextual, -, hget⟩ := merge_eq_ok goesByTexts_ofNames h
    have habsent : Entries.get? key updates = none := by
      rw [Entries.get?_eq_none_iff]
      intro e he
      obtain ⟨s, hs⟩ := htextual.texts e he
      rw [← Bool.not_eq_true]
      intro hagrees
      rw [hs] at hagrees
      obtain rfl := Scalar.agrees_str_iff.mp (Scalar.agrees_symm hagrees)
      have hgiven := htextual.get?_of_mem (hs ▸ he : (Scalar.str s, e.2) ∈ updates)
      rw [get?_byNameUpdates (inputsOf_toJson node) hupdates] at hgiven
      split at hgiven
      · obtain ⟨i, v, hoffers⟩ := offers_of_offer? hgiven
        exact hkey s (List.mem_of_getElem? hoffers.named) rfl
      · simp at hgiven
    rw [ExecutionNode.input?, ExecutionNode.input?, get?_inputValues, get?_inputValues, hget,
      habsent, Option.none_or]
  linked hkeeps := by
    have hlinks : (ofNames labels overwrite).KeepsLinks := hkeeps
    exact keepsReferences_merge hlinks h
  given name i v hopen hoffers hlast := by
    rw [input?_merged_byName h, if_pos (takes_iff.mpr hopen), offer?_of_last hoffers hlast]
    rfl
  left name hnone := by
    have hoffer : offer? (labels.map label) node.widgets name = none := by
      rw [Option.eq_none_iff_forall_not_mem]
      intro source hsource
      obtain ⟨i, v, hoffers⟩ := offers_of_offer? hsource
      exact hnone i v hoffers
    rw [input?_merged_byName h, hoffer]
    exact ite_self _

theorem merge_merged_byName : (ofNames labels overwrite).merge merged = .ok merged := by
  obtain ⟨before, hbefore, -, hwidgets, hget⟩ := merge_eq_ok goesByTexts_ofNames h
  obtain ⟨after, hafter⟩ := exists_updates (@namesKeys_ofNames overwrite labels) merged
  refine merge_of_settled goesByTexts_ofNames hafter fun name source hsource => ?_
  rw [get?_byNameUpdates_merged id h hwidgets hbefore hafter] at hsource
  rw [hget, hsource, Option.some_or]

end ByName

section DualClip

variable (h : dualClip.merge node = .ok merged)
include h

/-- The clip type is not out of date after a merger. -/
theorem clipType_merged : merged.input? (.str "type") ≠ some (.str "dual") := by
  obtain ⟨updates, hupdates, -, -, hget⟩ := merge_eq_ok goesByTexts_dualClip h
  obtain ⟨named, hnamed, rfl⟩ := dualClipUpdates_eq_ok (inputsOf_toJson node) hupdates
  rw [ExecutionNode.input?, get?_inputValues, hget, get?_replaced]
  by_cases htype : clipType named (inputValues node.inputs) = .str "dual"
  · simp [htype, Source.value]
  · rw [if_neg fun hboth => htype hboth.1]
    cases hgiven : Entries.get? (.str "type") named with
    | some source =>
      rw [clipType_of_given hgiven] at htype
      simpa using htype
    | none =>
      rw [clipType_of_absent hgiven, inputOf, get?_inputValues] at htype
      rw [Option.none_or]
      intro hdual
      rw [hdual] at htype
      exact htype rfl

/-- What is not given by name is not out of date any more, so that nothing else is given. -/
theorem merge_merged_dualClip : dualClip.merge merged = .ok merged := by
  obtain ⟨before, hbefore, -, hwidgets, hget⟩ := merge_eq_ok goesByTexts_dualClip h
  obtain ⟨named, hnamed, rfl⟩ := dualClipUpdates_eq_ok (inputsOf_toJson node) hbefore
  obtain ⟨after, hafter⟩ := exists_updates namesKeys_dualClip merged
  obtain ⟨again, hagain, rfl⟩ := dualClipUpdates_eq_ok (inputsOf_toJson merged) hafter
  have hsame := get?_byNameUpdates_merged (fun _ => keepsLinks_dualClip) h hwidgets hnamed hagain
  refine merge_of_settled goesByTexts_dualClip hafter fun name source hsource => ?_
  rw [get?_replaced, hsame] at hsource
  rw [hget, get?_replaced]
  by_cases hname : name = "type"
  · subst hname
    cases hgiven : Entries.get? (.str "type") named with
    | some given =>
      rw [clipType_of_given ((hsame "type").trans hgiven), hgiven] at hsource
      rw [clipType_of_given hgiven, hsource, Option.some_or]
    | none =>
      have hdated : inputOf (inputValues merged.inputs) (.str "type") ≠ .str "dual" := by
        intro hdual
        have htype := clipType_merged h
        rw [inputOf] at hdual
        cases hinput : Entries.get? (.str "type") (inputValues merged.inputs) with
        | none => simp [hinput] at hdual
        | some v =>
          rw [hinput, Option.getD_some] at hdual
          exact htype (hdual ▸ hinput)
      rw [clipType_of_absent ((hsame "type").trans hgiven), if_neg fun hboth => hdated hboth.1,
        hgiven] at hsource
      simp at hsource
  · rw [if_neg fun hboth => hname hboth.2] at hsource ⊢
    rw [hsource, Option.some_or]

end DualClip

/-- Merging goes by names as it should, keeps links that are not overwritten, and is done after one
run; the last two also hold of the loader of two clips. -/
theorem merged_and_settled (node : ExecutionNode) :
    (∀ labels overwrite, ∃ merged, (ofNames labels overwrite).merge node = .ok merged ∧
      MergedByName labels overwrite node merged ∧
      (ofNames labels overwrite).merge merged = .ok merged) ∧
    ∃ merged, dualClip.merge node = .ok merged ∧ KeepsReferences node merged ∧
      dualClip.merge merged = .ok merged := by
  constructor
  · intro labels overwrite
    obtain ⟨merged, h⟩ := exists_merge (@namesKeys_ofNames overwrite labels) node
    exact ⟨merged, h, mergedByName_merge h, merge_merged_byName h⟩
  · obtain ⟨merged, h⟩ := exists_merge namesKeys_dualClip node
    exact ⟨merged, h, keepsReferences_merge keepsLinks_dualClip h, merge_merged_dualClip h⟩

/-- The later widget of a name is null, so that the earlier one counts. -/
example : ((ofNames [some "a", none, some "a"] false).merge
    ⟨.str "T", [(.str "a", .widget 0 (.int 7))], .list [.int 1, .int 2, .null], .null⟩).map
      (·.input? (.str "a")) = .ok (some (.int 1)) := rfl

end Normalizer

end NodeWorkflow.Compile
