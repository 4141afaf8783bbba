import NodeWorkflow.Proofs.Compile.Normalizer
import NodeWorkflow.Proofs.Editor.Keys
import NodeWorkflow.Proofs.Json.Decoded

/-!
# What compiling a node needs

The slots of a node can be resolved if and only if their links are keys, and the names of those that
get values too. Normalizers that name inputs by scalars then cannot fail.
-/
namespace NodeWorkflow.Compile
open Editor

namespace Normalizer

/-- The normalizer goes by names, and they are scalars. -/
def NamesKeys : Normalizer → Prop
  | .byName names _ => ∀ name ∈ names, name.IsScalar
  | .dualClip => True
  | .custom _ => False

theorem namesKeys_standard {name : String} {normalizer : Normalizer}
    (h : (name, normalizer) ∈ standard) : normalizer.NamesKeys := by
  simp only [standard, List.mem_cons, Prod.mk.injEq, List.not_mem_nil, or_false] at h
  rcases h with ⟨-, rfl⟩ | ⟨-, rfl⟩ | ⟨-, rfl⟩ | ⟨-, rfl⟩ | ⟨-, rfl⟩ <;>
    simp [NamesKeys, Json.IsScalar]

variable {node : Json} {inputs : Entries Json}

theorem exists_feeds (overwrite : Bool) (hinputs : inputsOf node = .ok inputs) {name : Json}
    (hname : name.IsScalar) (v : Json) : ∃ b, feeds overwrite node name v = .ok b := by
  obtain ⟨key, rfl⟩ := hname
  unfold feeds
  split
  · exact ⟨_, rfl⟩
  · split
    · exact ⟨_, rfl⟩
    · exact ⟨_, Except.map_eq_ok.mpr ⟨_, Except.bind_eq_ok.mpr ⟨inputs, hinputs, rfl⟩, rfl⟩⟩

theorem exists_namedUpdates (overwrite : Bool) (hinputs : inputsOf node = .ok inputs)
    {names : List Json} (hnames : ∀ name ∈ names, name.IsScalar) (position : Nat)
    (values : List Json) (updates : Entries Source) :
    ∃ out, namedUpdates overwrite node position names values updates = .ok out := by
  induction names generalizing position values updates with
  | nil => exact ⟨updates, by cases values <;> rfl⟩
  | cons name names ih =>
    obtain ⟨hname, hrest⟩ := List.forall_mem_cons.mp hnames
    cases values with
    | nil => exact ⟨updates, rfl⟩
    | cons v values =>
      obtain ⟨fed, hfed⟩ := exists_feeds overwrite hinputs hname v
      obtain ⟨key, rfl⟩ := hname
      simp only [namedUpdates, hfed]
      cases fed with
      | false => exact ih hrest (position + 1) values updates
      | true => exact ih hrest (position + 1) values (updates.put key (.named position v))

theorem exists_byNameUpdates (overwrite : Bool) (hinputs : inputsOf node = .ok inputs)
    {names : List Json} (hnames : ∀ name ∈ names, name.IsScalar) :
    ∃ updates, byNameUpdates names overwrite node = .ok updates := by
  unfold byNameUpdates
  split
  · exact exists_namedUpdates overwrite hinputs hnames 0 _ []
  · exact ⟨[], rfl⟩

/-- Such a normalizer never fails on a compiled node. -/
theorem exists_updates {normalizer : Normalizer} (h : normalizer.NamesKeys) (node : ExecutionNode) :
    ∃ updates, normalizer.updates node.toJson = .ok updates := by
  have hinputs := inputsOf_toJson node
  simp only [updates, node.isObj_toJson]
  cases normalizer with
  | byName names overwrite => exact exists_byNameUpdates overwrite hinputs h
  | dualClip =>
    obtain ⟨named, hnamed⟩ := @exists_byNameUpdates _ _ false hinputs dualClipNames
      (by simp [dualClipNames, Json.IsScalar])
    exact ⟨_, Except.bind_eq_ok.mpr ⟨named, hnamed, Except.bind_eq_ok.mpr ⟨_, hinputs, rfl⟩⟩⟩
  | custom rule => exact h.elim

theorem exists_merge {normalizer : Normalizer} (h : normalizer.NamesKeys) (node : ExecutionNode) :
    ∃ merged, normalizer.merge node = .ok merged := by
  obtain ⟨updates, hupdates⟩ := exists_updates h node
  exact ⟨_, Except.map_eq_ok.mpr ⟨updates, hupdates, rfl⟩⟩

end Normalizer

theorem exists_normalize {options : Options} (h : ∀ e ∈ options.normalizers, e.2.NamesKeys)
    (node : ExecutionNode) : ∃ out, normalize options node = .ok out := by
  cases hnormalizer : options.normalizer? node.type with
  | none =>
    rw [normalize, hnormalizer]
    exact ⟨node, rfl⟩
  | some normalizer =>
    obtain ⟨_, hmem⟩ := Options.mem_of_normalizer? hnormalizer
    rw [normalize_of_normalizer hnormalizer]
    exact Normalizer.exists_merge (h _ hmem) node

section Slots

variable {links : Entries Link} {surviving : List Scalar} {zeroIndex : Bool} {slot : Slot}
  {slots : List Slot} {node : Node} {widgets : Json} {position : Nat} {inputs : Entries Source}

/-- The link of the slot serves as a key, and so does the source node of the link that it names. -/
def LinkKeyed (links : Entries Link) (slot : Slot) : Prop :=
  slot.link.IsScalar ∧ ∀ id link, slot.link = .scalar id → id ≠ .null →
    Entries.get? id links = some link → link.sourceNode.IsScalar

theorem exists_throughLink : (∃ source, throughLink links surviving zeroIndex slot = .ok source) ↔
    LinkKeyed links slot := by
  unfold throughLink
  split
  next hnull =>
    have hid : slot.link = .null := Json.isNull_iff.mp hnull
    refine iff_of_true ⟨none, rfl⟩ ⟨⟨_, hid⟩, fun id link hlink hne => absurd ?_ hne⟩
    rw [hid, Json.scalar.injEq] at hlink
    exact hlink.symm
  next hnull =>
    simp only [Except.bind_eq_ok, Json.key_eq_ok]
    constructor
    · rintro ⟨source, id, hid, hsource⟩
      refine ⟨⟨id, hid⟩, fun id' link hid' _ hget => ?_⟩
      obtain rfl : id = id' := Json.scalar.inj (hid.symm.trans hid')
      rw [hget] at hsource
      obtain ⟨survives, hsurvives, -⟩ := Except.bind_eq_ok.mp hsource
      exact (exists_isAmong surviving).mp ⟨survives, hsurvives⟩
    · rintro ⟨⟨id, hid⟩, hsources⟩
      have hne : id ≠ .null := fun heq => hnull (Json.isNull_iff.mpr (hid.trans (by rw [heq])))
      cases hget : Entries.get? id links with
      | none => exact ⟨none, id, hid, by rw [hget]; rfl⟩
      | some link =>
        obtain ⟨survives, hsurvives⟩ :=
          (exists_isAmong surviving).mpr (hsources id link hid hne hget)
        refine ⟨if survives then some (.link link (outputOf zeroIndex link)) else none, id, hid, ?_⟩
        rw [hget]
        refine Except.bind_eq_ok.mpr ⟨survives, hsurvives, ?_⟩
        cases survives <;> rfl

theorem exists_slotSource :
    (∃ source, slotSource links surviving zeroIndex widgets position slot = .ok source) ↔
      LinkKeyed links slot := by
  rw [← @exists_throughLink links surviving zeroIndex slot]
  simp only [slotSource, Except.bind_eq_ok]
  constructor
  · rintro ⟨_, linked, hlinked, -⟩
    exact ⟨linked, hlinked⟩
  · rintro ⟨linked, hlinked⟩
    cases linked with
    | none => exact ⟨_, none, hlinked, rfl⟩
    | some source => exact ⟨_, some source, hlinked, rfl⟩

def AllSurvive (links : Entries Link) (surviving : List Scalar) : Prop :=
  ∀ id link, Entries.get? id links = some link → isAmong link.sourceNode surviving = .ok true

theorem AllSurvive.linkKeyed_iff (hlinks : AllSurvive links surviving) :
    LinkKeyed links slot ↔ slot.link.IsScalar :=
  and_iff_left fun id link _ _ hget =>
    (exists_isAmong surviving).mp ⟨true, hlinks id link hget⟩

theorem failsIn_slotSource :
    FailsIn Fault.IsKey (slotSource links surviving zeroIndex widgets position slot) := by
  refine failsIn_bind.mpr ⟨?_, fun linked _ => ?_⟩
  · unfold throughLink
    split
    · exact failsIn_ok _
    · refine failsIn_bind.mpr ⟨Json.failsIn_key _, fun id _ => ?_⟩
      split
      · exact failsIn_pure _
      · refine failsIn_bind.mpr ⟨failsIn_isAmong, fun survives _ => ?_⟩
        cases survives <;> exact failsIn_pure _
  · cases linked <;> exact failsIn_pure _

/-- A slot gets a value if a link feeds it or a widget stands at its position. -/
def GetsValue (links : Entries Link) (surviving : List Scalar) (widgets : Json) (position : Nat)
    (slot : Slot) : Prop :=
  (∃ link, FedBy links surviving slot link) ∨ (widgetAt widgets position).isNull = false

theorem isSome_slotSource {source : Option Source}
    (h : slotSource links surviving zeroIndex widgets position slot = .ok source) :
    source.isSome ↔ GetsValue links surviving widgets position slot := by
  obtain ⟨linked, hlinked, hrest⟩ := Except.bind_eq_ok.mp h
  unfold GetsValue
  rcases throughLink_eq_ok hlinked with ⟨link, hfed, rfl⟩ | ⟨hnone, rfl⟩
  · obtain rfl := Except.ok.inj hrest
    exact ⟨fun _ => .inl ⟨link, hfed⟩, fun _ => rfl⟩
  · have hsource := Except.ok.inj hrest
    cases hnull : (widgetAt widgets position).isNull <;> simp [← hsource, hnull, hnone]

theorem exists_storeSource {source : Option Source} :
    (∃ out, storeSource inputs slot source = .ok out) ↔ (source.isSome → slot.name.IsScalar) := by
  cases source with
  | none => simp [storeSource]
  | some source =>
    rw [← Json.exists_key]
    simp [storeSource, Except.map_eq_ok]

/-- The link of the slot serves as a key, and so does its name if the slot gets a value. -/
def SlotKeyed (links : Entries Link) (surviving : List Scalar) (widgets : Json) (position : Nat)
    (slot : Slot) : Prop :=
  slot.link.IsScalar ∧ (GetsValue links surviving widgets position slot → slot.name.IsScalar)

/-- The slots can be resolved if and only if keys stand where they are needed. -/
theorem exists_resolveSlots :
    (∃ out, (resolveSlots links surviving zeroIndex node position slots inputs).result = .ok out) ↔
      ∀ i slot, slots[i]? = some slot → LinkKeyed links slot ∧
        (GetsValue links surviving node.widgets (position + i) slot → slot.name.IsScalar) := by
  induction slots generalizing position inputs with
  | nil => simp [resolveSlots]
  | cons slot slots ih =>
    simp only [resolveSlots_cons]
    constructor
    · rintro ⟨out, source, stored, hsource, hstored, hrest⟩ i slot' hslot'
      cases i with
      | zero =>
        obtain rfl : slot = slot' := by simpa using hslot'
        refine ⟨exists_slotSource.mp ⟨source, hsource⟩, fun hvalue => ?_⟩
        exact exists_storeSource.mp ⟨stored, hstored⟩ ((isSome_slotSource hsource).mpr hvalue)
      | succ i =>
        rw [show position + (i + 1) = position + 1 + i by omega]
        exact ih.mp ⟨out, hrest⟩ i slot' (by simpa using hslot')
    · intro h
      obtain ⟨hlink, hname⟩ := h 0 slot rfl
      obtain ⟨source, hsource⟩ := exists_slotSource.mpr hlink
      obtain ⟨stored, hstored⟩ := exists_storeSource.mpr fun hsome =>
        hname ((isSome_slotSource hsource).mp hsome)
      obtain ⟨out, hrest⟩ := ih.mpr fun i slot' hslot' => by
        rw [show position + 1 + i = position + (i + 1) by omega]
        exact h (i + 1) slot' hslot'
      exact ⟨out, source, stored, hsource, hstored, hrest⟩

theorem failsIn_resolveSlots : FailsIn Fault.IsKey
    (resolveSlots links surviving zeroIndex node position slots inputs).result := by
  induction slots generalizing position inputs with
  | nil => exact failsIn_ok _
  | cons slot slots ih =>
    refine Traced.failsIn_bind.mpr ⟨failsIn_slotSource, fun source _ => ?_⟩
    refine Traced.failsIn_bind.mpr ⟨failsIn_ok _, fun _ _ => ?_⟩
    refine Traced.failsIn_bind.mpr ⟨?_, fun _ _ => ih⟩
    cases source with
    | none => exact failsIn_ok _
    | some source => exact failsIn_map.mpr (Json.failsIn_key _)

def SlotsKeyed (links : Entries Link) (surviving : List Scalar) (node : Node) : Prop :=
  ∀ i slot, node.slots[i]? = some slot → SlotKeyed links surviving node.widgets i slot

theorem exists_resolveInputs (zeroIndex : Bool) (hlinks : AllSurvive links surviving) :
    (∃ inputs, (resolveInputs links surviving zeroIndex node).result = .ok inputs) ↔
      SlotsKeyed links surviving node := by
  unfold resolveInputs SlotsKeyed SlotKeyed
  simp only [exists_resolveSlots, hlinks.linkKeyed_iff, Nat.zero_add]

end Slots

end NodeWorkflow.Compile
