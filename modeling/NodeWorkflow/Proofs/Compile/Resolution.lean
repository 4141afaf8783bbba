import NodeWorkflow.Compile.Resolution
import NodeWorkflow.Proofs.Editor.Filter

/-!
# What slots resolve to

A slot is fed by a link if the link is known and its source survives, and by a widget value that is
no reference otherwise. The inputs of a node hold what its slots resolve to, each under the name of
its slot.
-/
namespace NodeWorkflow.Compile
open Editor

variable {links : Entries Link} {surviving : List Scalar} {zeroIndex : Bool} {slot : Slot}
  {slots : List Slot} {node : Node} {position : Nat} {inputs out : Entries Source}

def outputOf (zeroIndex : Bool) (link : Link) : Json :=
  if zeroIndex then .int 0 else link.sourceOutput

/-- A slot is fed by the link with its id, if that is known and its source survives. -/
def FedBy (links : Entries Link) (surviving : List Scalar) (slot : Slot) (link : Link) : Prop :=
  ∃ id, slot.link = .scalar id ∧ id ≠ .null ∧ Entries.get? id links = some link ∧
    isAmong link.sourceNode surviving = .ok true

theorem throughLink_eq_ok {source : Option Source}
    (h : throughLink links surviving zeroIndex slot = .ok source) :
    (∃ link, FedBy links surviving slot link ∧
      source = some (.link link (outputOf zeroIndex link))) ∨
    (∀ link, ¬ FedBy links surviving slot link) ∧ source = none := by
  unfold throughLink at h
  split at h
  next hnull =>
    refine .inr ⟨?_, (Except.ok.inj h).symm⟩
    rintro link ⟨id, hid, hne, -⟩
    rw [hid] at hnull
    cases id <;> simp_all [Json.isNull]
  next hnull =>
    obtain ⟨id, hid, hrest⟩ := Except.bind_eq_ok.mp h
    rw [Json.key_eq_ok] at hid
    have hne : id ≠ .null := by
      rintro rfl
      simp [hid, Json.isNull] at hnull
    cases hlink : Entries.get? id links with
    | none =>
      rw [hlink] at hrest
      refine .inr ⟨?_, (Except.ok.inj hrest).symm⟩
      rintro link ⟨id', hid', -, hget, -⟩
      rw [hid, Json.scalar.injEq] at hid'
      rw [← hid', hlink] at hget
      simp at hget
    | some record =>
      rw [hlink] at hrest
      obtain ⟨survives, hsurvives, hsource⟩ := Except.bind_eq_ok.mp hrest
      cases survives with
      | true =>
        refine .inl ⟨record, ⟨id, hid, hne, hlink, hsurvives⟩, ?_⟩
        exact (Except.ok.inj hsource).symm
      | false =>
        refine .inr ⟨?_, (Except.ok.inj hsource).symm⟩
        rintro link ⟨id', hid', -, hget, hamong⟩
        rw [hid, Json.scalar.injEq] at hid'
        rw [← hid', hlink, Option.some.injEq] at hget
        rw [← hget, hsurvives] at hamong
        simp at hamong

theorem widgetAt_not_reference (widgets : Json) (position : Nat) :
    (widgetAt widgets position).reference? = none := by
  cases widgets with
  | list values =>
    simp only [widgetAt]
    cases href : (values[position]?.getD .null).isReference with
    | true => rfl
    | false => simpa [Json.isReference] using href
  | _ => rfl

/-- The value of a slot comes through its link, or else from the widget at its position. -/
theorem slotSource_eq_ok {widgets : Json} {source : Option Source}
    (h : slotSource links surviving zeroIndex widgets position slot = .ok source) :
    (∃ link, FedBy links surviving slot link ∧
      source = some (.link link (outputOf zeroIndex link))) ∨
    (∀ link, ¬ FedBy links surviving slot link) ∧
      (source = none ∨ source = some (.widget position (widgetAt widgets position))) := by
  obtain ⟨linked, hlinked, hrest⟩ := Except.bind_eq_ok.mp h
  rcases throughLink_eq_ok hlinked with ⟨link, hfed, rfl⟩ | ⟨hnone, rfl⟩
  · exact .inl ⟨link, hfed, (Except.ok.inj hrest).symm⟩
  · refine .inr ⟨hnone, ?_⟩
    have hsource := Except.ok.inj hrest
    cases hnull : (widgetAt widgets position).isNull <;> simp [hnull] at hsource
    · exact .inr hsource.symm
    · exact .inl hsource.symm

theorem resolveSlots_nil :
    (resolveSlots links surviving zeroIndex node position [] inputs).result = .ok out ↔
      inputs = out := by
  simp [resolveSlots]

theorem resolveSlots_cons :
    (resolveSlots links surviving zeroIndex node position (slot :: slots) inputs).result = .ok out ↔
      ∃ source stored,
        slotSource links surviving zeroIndex node.widgets position slot = .ok source ∧
        storeSource inputs slot source = .ok stored ∧
        (resolveSlots links surviving zeroIndex node (position + 1) slots stored).result = .ok out := by
  simp [resolveSlots, Traced.result_bind_eq_ok]

theorem storeSource_eq_ok {source : Option Source}
    (h : storeSource inputs slot source = .ok out) :
    (source = none ∧ out = inputs) ∨
      ∃ found name, source = some found ∧ slot.name = .scalar name ∧ out = inputs.put name found := by
  cases source with
  | none => exact .inl ⟨rfl, (Except.ok.inj h).symm⟩
  | some found =>
    obtain ⟨name, hname, hout⟩ := Except.map_eq_ok.mp h
    exact .inr ⟨found, name, rfl, Json.key_eq_ok.mp hname, hout.symm⟩

theorem resolveSlots_distinct
    (h : (resolveSlots links surviving zeroIndex node position slots inputs).result = .ok out)
    (hinputs : inputs.Distinct) : out.Distinct := by
  induction slots generalizing position inputs with
  | nil => exact resolveSlots_nil.mp h ▸ hinputs
  | cons slot slots ih =>
    obtain ⟨source, stored, -, hstored, hrest⟩ := resolveSlots_cons.mp h
    rcases storeSource_eq_ok hstored with ⟨-, rfl⟩ | ⟨found, name, -, -, rfl⟩
    · exact ih hrest hinputs
    · exact ih hrest (Entries.distinct_put hinputs name found)

/-- Every input was there before, or a slot resolves to it. -/
theorem mem_resolveSlots
    (h : (resolveSlots links surviving zeroIndex node position slots inputs).result = .ok out)
    {e : Scalar × Source} (he : e ∈ out) :
    e ∈ inputs ∨ ∃ i, ∃ slot ∈ slots,
      slotSource links surviving zeroIndex node.widgets i slot = .ok (some e.2) := by
  induction slots generalizing position inputs with
  | nil => exact .inl (resolveSlots_nil.mp h ▸ he)
  | cons slot slots ih =>
    obtain ⟨source, stored, hsource, hstored, hrest⟩ := resolveSlots_cons.mp h
    rcases ih hrest with hmem | ⟨i, slot', hslot', hfound⟩
    · rcases storeSource_eq_ok hstored with ⟨-, rfl⟩ | ⟨found, name, rfl, -, rfl⟩
      · exact .inl hmem
      · rcases Entries.mem_put hmem with hinputs | ⟨hvalue, -⟩
        · exact .inl hinputs
        · exact .inr ⟨position, slot, List.mem_cons_self, hvalue ▸ hsource⟩
    · exact .inr ⟨i, slot', List.mem_cons_of_mem _ hslot', hfound⟩

def Slot.IsNamed (slot : Slot) (name : Scalar) : Prop := ∃ k, slot.name = .scalar k ∧ k.agrees name

theorem Slot.isNamed_str_iff {slot : Slot} {s : String} :
    Slot.IsNamed slot (.str s) ↔ slot.name = .str s := by
  constructor
  · rintro ⟨k, hk, hagrees⟩
    rw [hk, Scalar.agrees_str_iff.mp hagrees]
  · exact fun h => ⟨.str s, h, by simp⟩

theorem get?_storeSource {source : Option Source} (h : storeSource inputs slot source = .ok out)
    {name : Scalar} : (¬ Slot.IsNamed slot name → Entries.get? name out = Entries.get? name inputs) ∧
      (Slot.IsNamed slot name → Entries.get? name out = source.or (Entries.get? name inputs)) := by
  rcases storeSource_eq_ok h with ⟨rfl, rfl⟩ | ⟨found, k, rfl, hk, rfl⟩
  · exact ⟨fun _ => rfl, fun _ => by simp⟩
  · rw [Entries.get?_put]
    refine ⟨fun hname => if_neg fun hagrees => hname ⟨k, hk, hagrees⟩, ?_⟩
    rintro ⟨l, hl, hagrees⟩
    rw [hk, Json.scalar.injEq] at hl
    rw [hl, if_pos hagrees, Option.some_or]

/-- Slots that have other names or stay unresolved do not touch an input. -/
theorem get?_resolveSlots_of_unresolved
    (h : (resolveSlots links surviving zeroIndex node position slots inputs).result = .ok out)
    {name : Scalar} (hnone : ∀ i slot source, slots[i]? = some slot → Slot.IsNamed slot name →
      slotSource links surviving zeroIndex node.widgets (position + i) slot = .ok source →
      source = none) :
    Entries.get? name out = Entries.get? name inputs := by
  induction slots generalizing position inputs with
  | nil => rw [resolveSlots_nil.mp h]
  | cons slot slots ih =>
    obtain ⟨source, stored, hsource, hstored, hrest⟩ := resolveSlots_cons.mp h
    have hstep : Entries.get? name stored = Entries.get? name inputs := by
      by_cases hname : Slot.IsNamed slot name
      · rw [(get?_storeSource hstored).2 hname, hnone 0 slot source rfl hname hsource,
          Option.none_or]
      · exact (get?_storeSource hstored).1 hname
    rw [ih hrest fun i slot' source' hslot' hname hsource' => ?_, hstep]
    rw [show position + 1 + i = position + (i + 1) by omega] at hsource'
    exact hnone (i + 1) slot' source' hslot' hname hsource'

theorem get?_resolveSlots_of_unnamed
    (h : (resolveSlots links surviving zeroIndex node position slots inputs).result = .ok out)
    {name : Scalar} (hname : ∀ slot ∈ slots, ¬ Slot.IsNamed slot name) :
    Entries.get? name out = Entries.get? name inputs :=
  get?_resolveSlots_of_unresolved h fun _ slot _ hslot hnamed =>
    absurd hnamed (hname slot (List.mem_of_getElem? hslot))

/-- Of the slots of one name the last that is resolved gives the input. -/
theorem get?_resolveSlots_last
    (h : (resolveSlots links surviving zeroIndex node position slots inputs).result = .ok out)
    {i : Nat} (hslot : slots[i]? = some slot) {name : Scalar} (hname : Slot.IsNamed slot name)
    {source : Source} (hsource :
      slotSource links surviving zeroIndex node.widgets (position + i) slot = .ok (some source))
    (hlater : ∀ j later source, i < j → slots[j]? = some later → Slot.IsNamed later name →
      slotSource links surviving zeroIndex node.widgets (position + j) later = .ok source →
      source = none) :
    Entries.get? name out = some source := by
  induction slots generalizing position inputs i with
  | nil => simp at hslot
  | cons head slots ih =>
    obtain ⟨found, stored, hfound, hstored, hrest⟩ := resolveSlots_cons.mp h
    cases i with
    | zero =>
      obtain rfl : head = slot := by simpa using hslot
      obtain rfl : found = some source := Except.ok.inj (hfound.symm.trans hsource)
      rw [get?_resolveSlots_of_unresolved hrest fun j later source' hj hnamed hsource' => ?_,
        (get?_storeSource hstored).2 hname, Option.some_or]
      rw [show position + 1 + j = position + (j + 1) by omega] at hsource'
      exact hlater (j + 1) later source' (by omega) hj hnamed hsource'
    | succ i =>
      rw [show position + (i + 1) = position + 1 + i by omega] at hsource
      refine ih hrest (by simpa using hslot) hsource fun j later source' hij hj hnamed hsource' => ?_
      rw [show position + 1 + j = position + (j + 1) by omega] at hsource'
      exact hlater (j + 1) later source' (by omega) hj hnamed hsource'

def DistinctNames (slots : List Slot) : Prop :=
  slots.Pairwise fun a b => ∀ name, Slot.IsNamed a name → ¬ Slot.IsNamed b name

/-- Of slots with distinct names each gives what it resolves to, and nothing else does. -/
theorem get?_resolveSlots
    (h : (resolveSlots links surviving zeroIndex node position slots inputs).result = .ok out)
    (hdistinct : DistinctNames slots) {i : Nat} (hslot : slots[i]? = some slot) {name : Scalar}
    (hname : Slot.IsNamed slot name) :
    ∃ source, slotSource links surviving zeroIndex node.widgets (position + i) slot = .ok source ∧
      Entries.get? name out = source.or (Entries.get? name inputs) := by
  induction slots generalizing position inputs i with
  | nil => simp at hslot
  | cons head slots ih =>
    obtain ⟨source, stored, hsource, hstored, hrest⟩ := resolveSlots_cons.mp h
    obtain ⟨hhead, htail⟩ := List.pairwise_cons.mp hdistinct
    cases i with
    | zero =>
      obtain rfl : head = slot := by simpa using hslot
      have hothers := get?_resolveSlots_of_unnamed hrest fun s hs => hhead s hs name hname
      exact ⟨source, hsource, hothers.trans ((get?_storeSource hstored).2 hname)⟩
    | succ i =>
      have hmem : slot ∈ slots := List.mem_of_getElem? (by simpa using hslot)
      obtain ⟨found, hfound, hget⟩ := ih hrest htail (by simpa using hslot)
      refine ⟨found, ?_, ?_⟩
      · rwa [show position + (i + 1) = position + 1 + i by omega]
      · have hhead' : ¬ Slot.IsNamed head name := fun hn => hhead slot hmem name hn hname
        rw [hget, (get?_storeSource hstored).1 hhead']

end NodeWorkflow.Compile
