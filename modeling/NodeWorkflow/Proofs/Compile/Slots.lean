import NodeWorkflow.Proofs.Compile.Unresolved

/-!
# What each slot of a node gives

A slot gives a reference if it names a link whose source is there, and failing that the widget value
at its own position. What a node is resolved to holds the values of the slots that give one, each
under the name of its slot, and every other slot is reported.
-/
namespace NodeWorkflow.Compile
open Editor

variable {links : List Link} {index : Entries Link} {surviving : List Scalar} {zeroIndex : Bool}
  {node : Node} {position : Nat} {slot : Slot} {slots : List Slot} {record : Link}
  {inputs out : Entries Source} {v : Json}

/-- The link that a slot names: the last of those whose id agrees with that of the slot. -/
def Slot.Names (links : List Link) (slot : Slot) (record : Link) : Prop :=
  slot.link ≠ .null ∧ ∃ before after, links = before ++ record :: after ∧
    record.id.agrees slot.link ∧ ∀ later ∈ after, ¬ later.id.agrees slot.link

def Slot.Linked (links : List Link) (surviving : List Scalar) (slot : Slot) (record : Link) :
    Prop :=
  Slot.Names links slot record ∧
    ∃ s, record.sourceNode = .scalar s ∧ ∃ id ∈ surviving, id.agrees s

/-- The value that the slot at a position gives. Only null and references are no values of widgets;
zero, the empty text and false are. -/
inductive Resolves (links : List Link) (surviving : List Scalar) (zeroIndex : Bool) (node : Node)
    (position : Nat) (slot : Slot) : Json → Prop
  | link {record : Link} (hlinked : Slot.Linked links surviving slot record) :
    Resolves links surviving zeroIndex node position slot
      (.list [.str record.sourceNode.text, outputOf zeroIndex record])
  | widget {values : List Json} {v : Json}
    (hunlinked : ∀ record, ¬ Slot.Linked links surviving slot record)
    (hwidgets : node.widgets = .list values) (hvalue : values[position]? = some v)
    (hnull : v ≠ .null) (hliteral : v.isReference = false) :
    Resolves links surviving zeroIndex node position slot v

def Resolvable (links : List Link) (surviving : List Scalar) (zeroIndex : Bool) (node : Node)
    (position : Nat) (slot : Slot) : Prop :=
  ∃ v, Resolves links surviving zeroIndex node position slot v

/-- What is looked up or stored under can serve as a key: the ids of the links, those that the slots
name, the source nodes of the links that they find, and the names of the slots that give a value. -/
structure SlotsHashable (links : List Link) (surviving : List Scalar) (zeroIndex : Bool)
    (node : Node) : Prop where
  ids : ∀ record ∈ links, record.id.IsScalar
  named : ∀ slot ∈ node.slots, slot.link.IsScalar
  sources : ∀ slot ∈ node.slots, ∀ record, Slot.Names links slot record →
    record.sourceNode.IsScalar
  names : ∀ i slot, node.slots[i]? = some slot →
    Resolvable links surviving zeroIndex node i slot → slot.name.IsScalar

section Index

variable (hindex : Graph.linksById ⟨[], links⟩ = .ok index)
include hindex

theorem names_iff : Slot.Names links slot record ↔
    ∃ id, slot.link = .scalar id ∧ id ≠ .null ∧ Entries.get? id index = some record := by
  have hget (id : Scalar) := @Graph.get?_linksById_eq_some ⟨[], links⟩ index hindex id record
  constructor
  · rintro ⟨hne, before, after, hsplit, hagrees, hafter⟩
    obtain ⟨key, hkey⟩ := Graph.exists_linksById.mp ⟨index, hindex⟩ record (by simp [hsplit])
    cases hlink : slot.link with
    | scalar id =>
      rw [hlink] at hne hagrees hafter
      refine ⟨id, rfl, fun hnull => hne (congrArg Json.scalar hnull), ?_⟩
      exact (hget id).mpr ⟨before, after, hsplit, hagrees, hafter⟩
    | _ => simp [hlink, hkey, Json.agrees] at hagrees
  · rintro ⟨id, hid, hne, hfound⟩
    rw [Slot.Names, hid]
    exact ⟨fun hnull => hne (Json.scalar.inj hnull), (hget id).mp hfound⟩

theorem linked_iff : Slot.Linked links surviving slot record ↔ FedBy index surviving slot record := by
  simp only [Slot.Linked, FedBy, names_iff hindex, isAmong_eq_ok, List.any_eq_true]
  constructor
  · rintro ⟨⟨id, hid, hne, hget⟩, hsource⟩
    exact ⟨id, hid, hne, hget, hsource⟩
  · rintro ⟨id, hid, hne, hget, hsource⟩
    exact ⟨⟨id, hid, hne, hget⟩, hsource⟩

theorem linkKeyed_iff : LinkKeyed index slot ↔
    slot.link.IsScalar ∧ ∀ record, Slot.Names links slot record → record.sourceNode.IsScalar := by
  simp only [LinkKeyed, names_iff hindex]
  refine and_congr_right fun _ => ⟨?_, ?_⟩
  · rintro h record ⟨id, hid, hne, hget⟩
    exact h id record hid hne hget
  · exact fun h id record hid hne hget => h record ⟨id, hid, hne, hget⟩

end Index

/-- The widget value at a position is the item there, unless that is a reference. -/
theorem widgetAt_eq_iff {widgets : Json} (hnull : v ≠ .null) : widgetAt widgets position = v ↔
    ∃ values, widgets = .list values ∧ values[position]? = some v ∧ v.isReference = false := by
  cases widgets with
  | list values =>
    simp only [widgetAt, Json.list.injEq, exists_eq_left']
    cases hvalue : values[position]? with
    | none => simp [hnull.symm]
    | some w =>
      rw [Option.getD_some, Option.some.injEq]
      constructor
      · intro h
        split at h
        next => exact absurd h.symm hnull
        next href => exact ⟨h, by simpa [← h] using href⟩
      · rintro ⟨rfl, href⟩
        simp [href]
  | _ => simp [widgetAt, hnull.symm]

/-- A slot gives a value if and only if it has a source with that value. -/
theorem value_slotSource {source : Option Source}
    (hindex : Graph.linksById ⟨[], links⟩ = .ok index)
    (h : slotSource index surviving zeroIndex node.widgets position slot = .ok source) :
    source.map Source.value = some v ↔ Resolves links surviving zeroIndex node position slot v := by
  obtain ⟨linked, hlinked, hrest⟩ := Except.bind_eq_ok.mp h
  rcases throughLink_eq_ok hlinked with ⟨record, hfed, rfl⟩ | ⟨hnone, rfl⟩
  · obtain rfl := Except.ok.inj hrest
    have hrecord := (linked_iff hindex).mpr hfed
    constructor
    · intro hv
      obtain rfl := Option.some.inj hv
      exact .link hrecord
    · rintro (⟨hother⟩ | ⟨hunlinked⟩)
      · rw [((linked_iff hindex).mp hother).unique hfed]
        rfl
      · exact absurd hrecord (hunlinked record)
  · have hunlinked (record : Link) : ¬ Slot.Linked links surviving slot record :=
      mt (linked_iff hindex).mp (hnone record)
    obtain rfl := Except.ok.inj hrest
    have hvalue : (if (widgetAt node.widgets position).isNull then none
        else some (Source.widget position (widgetAt node.widgets position))).map Source.value =
          some v ↔ v ≠ .null ∧ widgetAt node.widgets position = v := by
      split
      next hnull =>
        rw [Json.isNull_iff.mp hnull]
        simp [eq_comm]
      next hnull =>
        rw [Option.map_some, Option.some.injEq, Source.value]
        exact ⟨fun h => ⟨h ▸ mt Json.isNull_iff.mpr hnull, h⟩, And.right⟩
    rw [hvalue]
    constructor
    · rintro ⟨hnull, h⟩
      obtain ⟨values, hwidgets, hitem, hliteral⟩ := (widgetAt_eq_iff hnull).mp h
      exact .widget hunlinked hwidgets hitem hnull hliteral
    · rintro (⟨hlinked⟩ | ⟨-, hwidgets, hitem, hnull, hliteral⟩)
      · exact absurd hlinked (hunlinked _)
      · exact ⟨hnull, (widgetAt_eq_iff hnull).mpr ⟨_, hwidgets, hitem, hliteral⟩⟩

theorem resolvable_iff (hindex : Graph.linksById ⟨[], links⟩ = .ok index) :
    Resolvable links surviving zeroIndex node position slot ↔
      GetsValue index surviving node.widgets position slot := by
  constructor
  · rintro ⟨v, ⟨hlinked⟩ | ⟨-, hwidgets, hitem, hnull, hliteral⟩⟩
    · exact .inl ⟨_, (linked_iff hindex).mp hlinked⟩
    · refine .inr ?_
      rw [(widgetAt_eq_iff hnull).mpr ⟨_, hwidgets, hitem, hliteral⟩]
      simpa using mt Json.isNull_iff.mp hnull
  · intro hgets
    by_cases hlinked : ∃ record, Slot.Linked links surviving slot record
    · obtain ⟨record, hrecord⟩ := hlinked
      exact ⟨_, .link hrecord⟩
    · push Not at hlinked
      rcases hgets with ⟨record, hfed⟩ | hvalue
      · exact absurd ((linked_iff hindex).mpr hfed) (hlinked record)
      · have hnull : widgetAt node.widgets position ≠ .null := by
          rw [Ne, ← Json.isNull_iff, hvalue]
          exact Bool.false_ne_true
        obtain ⟨values, hwidgets, hitem, hliteral⟩ := (widgetAt_eq_iff hnull).mp rfl
        exact ⟨_, .widget hlinked hwidgets hitem hnull hliteral⟩

/-- A slot that resolves gets its source stored, and one that does not leaves the keys as they
are. -/
theorem keys_storeSource {source : Option Source} (h : storeSource inputs slot source = .ok out) :
    (source = none ∧ out.map Prod.fst = inputs.map Prod.fst) ∨ ∃ name, source.isSome ∧
      slot.name = .scalar name ∧ out.map Prod.fst = Graph.insertId (inputs.map Prod.fst) name := by
  rcases storeSource_eq_ok h with ⟨rfl, rfl⟩ | ⟨found, name, rfl, hname, rfl⟩
  · exact .inl ⟨rfl, rfl⟩
  · exact .inr ⟨name, rfl, hname, Entries.keys_put name found inputs⟩

open Classical in
/-- The keys are the names of the slots that get a value, each once. -/
theorem keys_resolveSlots
    (h : (resolveSlots index surviving zeroIndex node position slots inputs).result = .ok out) :
    ∃ names : List Scalar,
      ((slots.zipIdx position).filter fun e =>
        GetsValue index surviving node.widgets e.2 e.1).map (·.1.name) = names.map Json.scalar ∧
      out.map Prod.fst = names.foldl Graph.insertId (inputs.map Prod.fst) := by
  induction slots generalizing position inputs with
  | nil =>
    obtain rfl := resolveSlots_nil.mp h
    exact ⟨[], rfl, rfl⟩
  | cons slot slots ih =>
    obtain ⟨source, stored, hsource, hstored, hrest⟩ := resolveSlots_cons.mp h
    obtain ⟨names, hnames, hkeys⟩ := ih hrest
    have hvalue := isSome_slotSource hsource
    rw [List.zipIdx_cons]
    rcases keys_storeSource hstored with ⟨rfl, hsame⟩ | ⟨name, hsome, hname, hput⟩
    · have hnone : ¬ GetsValue index surviving node.widgets position slot := by
        rw [← hvalue]
        simp
      refine ⟨names, ?_, by rw [hkeys, hsame]⟩
      rw [List.filter_cons_of_neg (by simpa using hnone), hnames]
    · refine ⟨name :: names, ?_, by rw [hkeys, hput, List.foldl_cons]⟩
      rw [List.filter_cons_of_pos (by simpa using hvalue.mp hsome), List.map_cons, hnames, hname,
        List.map_cons]

theorem resolveAmong_eq_ok : (resolveAmong links surviving zeroIndex node).result = .ok out ↔
    ∃ index, Graph.linksById ⟨[], links⟩ = .ok index ∧
      (resolveSlots index surviving zeroIndex node 0 node.slots []).result = .ok out := by
  rw [resolveAmong, Traced.result_bind_eq_ok]
  rfl

theorem exists_resolveAmong :
    (∃ out, (resolveAmong links surviving zeroIndex node).result = .ok out) ↔
      SlotsHashable links surviving zeroIndex node := by
  simp only [resolveAmong_eq_ok]
  constructor
  · rintro ⟨out, index, hindex, hrun⟩
    have hkeyed := exists_resolveSlots.mp ⟨out, hrun⟩
    have hlinks (slot : Slot) (hslot : slot ∈ node.slots) :
        slot.link.IsScalar ∧ ∀ record, Slot.Names links slot record →
          record.sourceNode.IsScalar := by
      obtain ⟨i, hi⟩ := List.mem_iff_getElem?.mp hslot
      exact (linkKeyed_iff hindex).mp (hkeyed i slot hi).1
    refine ⟨Graph.exists_linksById.mp ⟨index, hindex⟩, fun slot hslot => (hlinks slot hslot).1,
      fun slot hslot => (hlinks slot hslot).2, fun i slot hslot hresolvable => ?_⟩
    refine (hkeyed i slot hslot).2 ?_
    rw [Nat.zero_add]
    exact (resolvable_iff hindex).mp hresolvable
  · intro h
    obtain ⟨index, hindex⟩ := (@Graph.exists_linksById ⟨[], links⟩).mpr h.ids
    obtain ⟨out, hout⟩ := exists_resolveSlots.mpr fun i slot hslot => by
      have hmem := List.mem_of_getElem? hslot
      refine ⟨(linkKeyed_iff hindex).mpr ⟨h.named slot hmem, h.sources slot hmem⟩, fun hgets => ?_⟩
      rw [Nat.zero_add] at hgets
      exact h.names i slot hslot ((resolvable_iff hindex).mpr hgets)
    exact ⟨out, index, hindex, hout⟩

theorem get?_resolveAmong_last (h : (resolveAmong links surviving zeroIndex node).result = .ok out)
    {i : Nat} (hslot : node.slots[i]? = some slot) {name : Scalar} (hname : Slot.IsNamed slot name)
    (hv : Resolves links surviving zeroIndex node i slot v)
    (hlast : ∀ j later, i < j → node.slots[j]? = some later → Slot.IsNamed later name →
      ¬ Resolvable links surviving zeroIndex node j later) :
    Entries.get? name (inputValues out) = some v := by
  obtain ⟨index, hindex, hrun⟩ := resolveAmong_eq_ok.mp h
  obtain ⟨hkeyed, -⟩ := exists_resolveSlots.mp ⟨out, hrun⟩ i slot hslot
  obtain ⟨source, hsource⟩ :=
    (@exists_slotSource index surviving zeroIndex slot node.widgets i).mpr hkeyed
  obtain ⟨found, rfl, rfl⟩ := Option.map_eq_some_iff.mp ((value_slotSource hindex hsource).mpr hv)
  rw [← Nat.zero_add i] at hsource
  have hget : Entries.get? name out = some found := by
    refine get?_resolveSlots_last hrun hslot hname hsource ?_
    intro j later source hij hlater hnamed hfound
    rw [Nat.zero_add] at hfound
    rw [← Option.not_isSome_iff_eq_none, isSome_slotSource hfound, ← resolvable_iff hindex]
    exact hlast j later hij hlater hnamed
  rw [inputValues, Entries.get?_map, hget, Option.map_some]

open Classical in
/-- Resolution succeeds if and only if what serves as a key can. Then the inputs are the names of
the slots that give a value, each once and where it comes up first; of the slots with one name the
last that gives a value counts; and the slots that give none are reported in order. -/
theorem slots_accounted_for (links : List Link) (surviving : List Scalar) (zeroIndex : Bool)
    (node : Node) :
    let run := resolveAmong links surviving zeroIndex node
    let resolvable := fun e : Slot × Nat => Resolvable links surviving zeroIndex node e.2 e.1
    ((∃ out, run.result = .ok out) ↔ SlotsHashable links surviving zeroIndex node) ∧
    ∀ out, run.result = .ok out →
      (∃ names : List Scalar,
        (node.slots.zipIdx.filter (resolvable ·)).map (·.1.name) = names.map Json.scalar ∧
        out.map Prod.fst = names.foldl Graph.insertId []) ∧
      (∀ i slot name v, node.slots[i]? = some slot → Slot.IsNamed slot name →
        Resolves links surviving zeroIndex node i slot v →
        (∀ j later, i < j → node.slots[j]? = some later → Slot.IsNamed later name →
          ¬ resolvable (later, j)) →
        Entries.get? name (inputValues out) = some v) ∧
      run.warnings = (node.slots.zipIdx.filter (¬ resolvable ·)).map fun e =>
        (⟨node, e.1, e.2⟩ : Inlet).report := by
  intro run resolvable
  refine ⟨exists_resolveAmong, fun out hout => ?_⟩
  obtain ⟨index, hindex, hrun⟩ := resolveAmong_eq_ok.mp hout
  have hgets : resolvable = fun e => GetsValue index surviving node.widgets e.2 e.1 :=
    funext fun e => propext (resolvable_iff hindex)
  refine ⟨?_, fun i slot name v hslot hname hv hlast => ?_, ?_⟩
  · rw [hgets]
    exact keys_resolveSlots hrun
  · exact get?_resolveAmong_last hout hslot hname hv hlast
  · rw [hgets, ← warnings_resolveSlots hrun]
    change (resolveAmong links surviving zeroIndex node).warnings = _
    rw [resolveAmong, hindex, Traced.lift_ok_bind]
    rfl

/-- A list is no key, also where there are no links to look it up in: resolution fails although the
widget at its position would do for the slot. -/
theorem list_link_not_resolved :
    let slot : Slot := ⟨.str "x", .list [], .null⟩
    let node : Node := ⟨.int 1, .str "A", [slot], .list [.str "v"], .null⟩
    (∀ slot ∈ node.slots, slot.name.IsScalar) ∧
      Resolves [] [.int 1] false node 0 slot (.str "v") ∧
      (resolveAmong [] [.int 1] false node).result = .error .keyNotScalar := by
  intro slot node
  refine ⟨by simp [node, slot, Json.IsScalar], .widget ?_ rfl rfl (by simp) rfl, rfl⟩
  rintro record ⟨⟨-, before, after, hsplit, -⟩, -⟩
  simp at hsplit

/-- Zero, the empty text and false are values like any other. -/
example :
    let slots : List Slot := ["a", "b", "c", "d"].map fun name => ⟨.str name, .null, .null⟩
    let widgets : Json := .list [.int 0, .null, .str "", .bool false]
    let run := resolveAmong [] [] false ⟨.int 1, .str "A", slots, widgets, .null⟩
    run.result.map inputValues =
      .ok [(.str "a", .int 0), (.str "c", .str ""), (.str "d", .bool false)] ∧
      run.warnings = ["Node 1 (A): input 'b' left unresolved"] :=
  ⟨rfl, by decide +kernel⟩

end NodeWorkflow.Compile
