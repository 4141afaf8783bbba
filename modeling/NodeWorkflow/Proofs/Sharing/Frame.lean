import NodeWorkflow.Proofs.Parameter.Node
import NodeWorkflow.Proofs.Parameter.Simulation
import NodeWorkflow.Proofs.Sharing.Document

/-!
# What an injection leaves alone

An injection into one document gives no holdings to any, though it may take some away. A document
whose parts it holds at no place that a path can lead into stays as it is. No path leads into a list
that is an item of another one, because a path has one index under each name, and none into a node
that is never found.
-/
namespace NodeWorkflow

/-- A path leads strictly inside the place. -/
def Enterable (place : Place) : Prop :=
  ∃ path, Path.Parsed path ∧ ∃ id, place <+: .field id :: path.steps ∧
    place.length < (Step.field id :: path.steps).length

namespace Document

variable {d e : Document} {h : Holding} {id : Scalar} {path : Path} {value : Json}

/-- A list that is an item of another one stands at the place of a holding, and the other parts of
the document are held apart from it. -/
structure Nested (e : Document) (h : Holding) : Prop where
  last : ∃ i, h.place.getLast? = some (.item i)
  list : ∃ xs, Json.atPlace? h.place e.value = some (.list xs)
  texts : Texts h.place
  apart : ∀ g ∈ e.holdings, g.part ≠ h.part → Apart g.place h.place

/-- The node with the id is not found, and no part of the document comes to its class. -/
structure Bars (e : Document) (id : String) : Prop where
  unselectable : Unselectable e.value id
  apart : ∀ g ∈ e.holdings, Apart g.place [.field (.str id), .field (.str "class_type")]

/-- No path leads into what a document has of the parts of another one, except in nodes that it
bars. -/
structure SealsBut (e d : Document) (barred : String → Prop) : Prop where
  places : ∀ h ∈ e.holdings, d.Holds h.part → ¬ Enterable h.place ∨ e.Nested h ∨
    ∃ id, barred id ∧ [.field (.str id)] <+: h.place
  bars : ∀ id, barred id → e.Bars id

/-- No injection into a document reaches what it has of the parts of another one. -/
def Seals (e d : Document) : Prop := ∃ barred, e.SealsBut d barred

theorem seals_of_foreign (h : ∀ x ∈ e.holdings, ¬ d.Holds x.part) : e.Seals d :=
  ⟨fun _ => False, fun x hx hholds => absurd hholds (h x hx), fun _ hnone => hnone.elim⟩

theorem seals_own (v : Json) (d : Document) : (own v).Seals d :=
  seals_of_foreign (by simp [own])

theorem Seals.of_holds {f : Document} (hseals : e.Seals d)
    (hholds : ∀ x ∈ e.holdings, f.Holds x.part → d.Holds x.part) : e.Seals f := by
  obtain ⟨barred, hplaces, hbars⟩ := hseals
  exact ⟨barred, fun x hx hf => hplaces x hx (hholds x hx hf), hbars⟩

theorem atPlace?_fill {place : Place} {part : Nat} (htexts : Texts place)
    (hapart : ∀ g ∈ e.holdings, g.part = part → Apart g.place place) (content : Json) :
    Json.atPlace? place (e.fill part content).value = Json.atPlace? place e.value := by
  have hfold (hs : List Holding) (hsub : ∀ g ∈ hs, g.part = part → Apart g.place place) (v : Json) :
      Json.atPlace? place (hs.foldl
        (fun v g => if g.part = part then Json.setPlace content g.place v else v) v) =
        Json.atPlace? place v := by
    induction hs generalizing v with
    | nil => rfl
    | cons g hs ih =>
      rw [List.foldl_cons, ih fun x hx => hsub x (List.mem_cons_of_mem _ hx)]
      split
      next hpart =>
        exact Json.atPlace?_setPlace_apart htexts (hsub g List.mem_cons_self hpart) content v
      next => rfl
  exact hfold e.holdings hapart e.value

theorem atPlace?_fillAll {place : Place} {ps : List (Nat × Json)} (htexts : Texts place)
    (hapart : ∀ p ∈ ps, ∀ g ∈ e.holdings, g.part = p.1 → Apart g.place place) :
    Json.atPlace? place (e.fillAll ps).value = Json.atPlace? place e.value := by
  induction ps generalizing e with
  | nil => rfl
  | cons p ps ih =>
    rw [fillAll, List.foldl_cons]
    refine (ih (e := e.fill p.1 p.2) fun q hq => hapart q (List.mem_cons_of_mem _ hq)).trans ?_
    exact atPlace?_fill htexts (hapart p List.mem_cons_self) p.2

theorem Nested.releaseInside (hnested : e.Nested h) (ways : List (Nat × Place)) :
    (e.releaseInside ways).Nested h where
  last := hnested.last
  list := hnested.list
  texts := hnested.texts
  apart g hg := hnested.apart g ((holdings_releaseInside_sublist ways e).subset hg)

theorem Nested.fillAll {ps : List (Nat × Json)} (hnested : e.Nested h)
    (hps : ∀ p ∈ ps, p.1 ≠ h.part) : (e.fillAll ps).Nested h where
  last := hnested.last
  list := by
    rw [atPlace?_fillAll hnested.texts fun p hp g hg hpart =>
      hnested.apart g hg (hpart ▸ hps p hp)]
    exact hnested.list
  texts := hnested.texts
  apart := by
    rw [holdings_fillAll]
    exact hnested.apart

theorem Nested.written [Machine] (hnested : e.Nested h)
    (hkept : h ∈ (e.written id path value).holdings)
    (hwrite : (Surface.writeNode e.value id path value).2 ≠ .refused) :
    (e.written id path value).Nested h where
  last := hnested.last
  list := by
    obtain ⟨xs, hxs⟩ := hnested.list
    obtain ⟨i, hi⟩ := hnested.last
    -- A write inside the list would be refused, and one at it or above would release the holding.
    have hbelow : ¬ h.place <+: .field id :: path.steps ∨ h.place = .field id :: path.steps := by
      by_contra hinside
      push Not at hinside
      exact hwrite (Surface.writeNode_refused hxs hi hinside.1 hinside.2 value)
    have habove : ¬ (.field id :: path.steps) <+: h.place := by
      intro hplace
      have ⟨rest, hrest⟩ := hplace
      rw [← hrest, Json.atPlace?_append] at hxs
      obtain ⟨content, hcontent, -⟩ := Option.bind_eq_some_iff.mp hxs
      have hdone := WriteOutcome.eq_done hwrite (Surface.writeNode_not_stopped hcontent value)
      exact not_prefix_of_mem_written hkept hdone hplace
    have hapart : Apart (.field id :: path.steps) h.place := by
      refine ⟨habove, fun hinside => ?_⟩
      rcases hbelow with hbelow | heq
      · exact hbelow hinside
      · exact habove (heq ▸ List.prefix_refl _)
    refine ⟨xs, ?_⟩
    rw [value_written]
    exact Surface.atPlace?_writeNode_apart hnested.texts hapart hxs value
  texts := hnested.texts
  apart g hg := hnested.apart g ((holdings_written_sublist e id path value).subset hg)

theorem Bars.releaseInside {s : String} (hbars : e.Bars s) (ways : List (Nat × Place)) :
    (e.releaseInside ways).Bars s where
  unselectable := hbars.unselectable
  apart g hg := hbars.apart g ((holdings_releaseInside_sublist ways e).subset hg)

theorem Bars.fillAll {s : String} (hbars : e.Bars s) (ps : List (Nat × Json)) :
    (e.fillAll ps).Bars s where
  unselectable := by
    induction ps generalizing e with
    | nil => exact hbars.unselectable
    | cons p ps ih =>
      refine ih (e := e.fill p.1 p.2) ⟨?_, hbars.apart⟩
      have hfold (hs : List Holding) (hsub : ∀ g ∈ hs, g ∈ e.holdings) (v : Json)
          (hv : Unselectable v s) : Unselectable (hs.foldl (fun v g =>
            if g.part = p.1 then Json.setPlace p.2 g.place v else v) v) s := by
        induction hs generalizing v with
        | nil => exact hv
        | cons g hs ih =>
          have hg := hbars.apart g (hsub g List.mem_cons_self)
          refine ih (fun x hx => hsub x (List.mem_cons_of_mem _ hx)) _ ?_
          by_cases hpart : g.part = p.1
          · simpa only [if_pos hpart] using hv.setPlace hg p.2
          · simpa only [if_neg hpart] using hv
      exact hfold e.holdings (fun _ hg => hg) e.value hbars.unselectable
  apart := by
    rw [holdings_fillAll]
    exact hbars.apart

theorem Bars.written [Machine] {s : String} (hbars : e.Bars s) (hother : id ≠ .str s) (path : Path)
    (value : Json) : (e.written id path value).Bars s where
  unselectable := by
    rw [value_written]
    exact hbars.unselectable.writeNode hother path value
  apart g hg := hbars.apart g ((holdings_written_sublist e id path value).subset hg)

variable {barred : String → Prop}

theorem SealsBut.partsAround [Machine] (hseals : e.SealsBut d barred)
    (hid : ∀ s, barred s → id ≠ .str s)
    (hpath : Path.Parsed path) (hwrite : (Surface.writeNode e.value id path value).2 ≠ .refused)
    {p : Nat × Json} (hp : p ∈ (e.written id path value).partsAround (.field id :: path.steps)) :
    ¬ d.Holds p.1 := by
  obtain ⟨x, hx, hpart, -⟩ := mem_partsAround.mp hp
  obtain ⟨hx, hinside, hlength⟩ := mem_around.mp hx
  have hmem := (e.holdings_written_sublist id path value).subset hx
  intro hholds
  rcases hseals.places x hmem (hpart ▸ hholds) with hclosed | hnested | ⟨s, hbarred, hplace⟩
  · exact hclosed ⟨path, hpath, id, hinside, hlength⟩
  · obtain ⟨xs, hxs⟩ := hnested.list
    obtain ⟨i, hi⟩ := hnested.last
    have hne : x.place ≠ .field id :: path.steps := fun heq => by simp [heq] at hlength
    exact hwrite (Surface.writeNode_refused hxs hi hinside hne value)
  · have hhead := hplace.trans hinside
    simp only [List.cons_prefix_cons, Step.field.injEq, List.nil_prefix, and_true] at hhead
    exact hid s hbarred hhead.symm

/-- The ways down to a written place lead from none of the parts of a document that is sealed. -/
theorem SealsBut.waysWritten [Machine] (hseals : e.SealsBut d barred)
    (hid : ∀ s, barred s → id ≠ .str s)
    (hpath : Path.Parsed path) {way : Nat × Place} (hway : way ∈ e.waysWritten id path value) :
    ¬ d.Holds way.1 := by
  obtain ⟨haround, hdone⟩ := mem_waysWritten hway
  have hwritten := Surface.atPlace?_writeNode hdone
  rw [← value_written] at hwritten
  obtain ⟨content, hpart, -⟩ := exists_partAround haround hwritten
  exact hseals.partsAround hid hpath (by simp [hdone]) hpart

theorem SealsBut.releaseInside (hseals : e.SealsBut d barred) (ways : List (Nat × Place)) :
    (e.releaseInside ways).SealsBut d barred where
  places h hh hholds := by
    have hmem := (holdings_releaseInside_sublist ways e).subset hh
    exact (hseals.places h hmem hholds).imp_right
      (Or.imp_left fun hnested => hnested.releaseInside ways)
  bars s hs := (hseals.bars s hs).releaseInside ways

/-- New contents for foreign parts leave a document sealed. -/
theorem SealsBut.fillAll {ps : List (Nat × Json)} (hseals : e.SealsBut d barred)
    (hps : ∀ p ∈ ps, ¬ d.Holds p.1) : (e.fillAll ps).SealsBut d barred where
  places h hh hholds := by
    rw [holdings_fillAll] at hh
    have hforeign : ∀ p ∈ ps, p.1 ≠ h.part := fun p hp heq => hps p hp (heq ▸ hholds)
    rcases hseals.places h hh hholds with hplace | hnested | hbarred
    · exact .inl hplace
    · exact .inr (.inl (hnested.fillAll hforeign))
    · exact .inr (.inr hbarred)
  bars s hs := (hseals.bars s hs).fillAll ps

theorem SealsBut.written [Machine] (hseals : e.SealsBut d barred)
    (hid : ∀ s, barred s → id ≠ .str s)
    (hwrite : (Surface.writeNode e.value id path value).2 ≠ .refused) :
    (e.written id path value).SealsBut d barred where
  places h hh hholds := by
    have hmem := (e.holdings_written_sublist id path value).subset hh
    rcases hseals.places h hmem hholds with hplace | hnested | hbarred
    · exact .inl hplace
    · exact .inr (.inl (hnested.written hh hwrite))
    · exact .inr (.inr hbarred)
  bars s hs := (hseals.bars s hs).written (hid s hs) path value

end Document

namespace Workspace

variable {w w' : Workspace} {doc other : Nat} {d : Document}

/-- The documents are as many as before, and have no holdings that they had not. -/
structure KeepsHoldings (w w' : Workspace) : Prop where
  parts : w'.parts = w.parts
  length : w'.documents.length = w.documents.length
  holdings : ∀ (i : Nat) e', w'.documents[i]? = some e' →
    ∃ e, w.documents[i]? = some e ∧ e'.holdings.Sublist e.holdings

theorem KeepsHoldings.refl (w : Workspace) : KeepsHoldings w w :=
  ⟨rfl, rfl, fun _ e h => ⟨e, h, .refl _⟩⟩

theorem KeepsHoldings.trans {u : Workspace} (h : KeepsHoldings w u) (h' : KeepsHoldings u w') :
    KeepsHoldings w w' where
  parts := h'.parts.trans h.parts
  length := h'.length.trans h.length
  holdings i e' he' := by
    obtain ⟨f, hf, hsub⟩ := h'.holdings i e' he'
    obtain ⟨e, he, hsub'⟩ := h.holdings i f hf
    exact ⟨e, he, hsub.trans hsub'⟩

theorem keepsHoldings_write [Machine] (doc : Nat) (id : Scalar) (path : Path) (value : Json) :
    KeepsHoldings w (write doc w id path value).1 := by
  cases hd : w.documents[doc]? with
  | none =>
    rw [write, hd]
    exact .refl w
  | some d =>
    obtain ⟨-, ⟨hsame, -⟩ | ⟨-, hw⟩⟩ := write_eq hd id path value
    · rw [hsame]
      exact .refl w
    · rw [hw]
      refine ⟨rfl, by simp, fun i e' he' => ?_⟩
      simp only [List.getElem?_map, Option.map_eq_some_iff] at he'
      obtain ⟨e, he, rfl⟩ := he'
      have hsub := d.holdings_updated_sublist id path value e
      by_cases hi : i = doc
      · rw [hi, List.getElem?_set_self (List.getElem?_eq_some_iff.mp hd).1] at he
        obtain rfl := Option.some.inj he
        exact ⟨d, hi ▸ hd, hsub.trans (d.holdings_written_sublist id path value)⟩
      · rw [List.getElem?_set_ne (Ne.symm hi)] at he
        exact ⟨e, he, hsub⟩

/-- No injection into another document reaches what it has of the parts of this one. -/
def Closed (w : Workspace) (doc : Nat) (d : Document) : Prop :=
  ∀ i e, i ≠ doc → w.documents[i]? = some e → e.Seals d

/-- A document is as it was, and the others seal it; one of them bars the nodes that are given. -/
structure Shut (w : Workspace) (doc : Nat) (d : Document) (other : Nat)
    (barred : String → Prop) : Prop where
  stored : w.documents[doc]? = some d
  seals : ∀ i e, i ≠ doc → w.documents[i]? = some e →
    ∃ but, e.SealsBut d but ∧ (i = other → but = barred)

variable {barred : String → Prop}

/-- A write into another document keeps a document that is shut. -/
theorem Shut.write [Machine] (h : w.Shut doc d other barred) (hother : other ≠ doc) {id : Scalar}
    (hid : ∀ s, barred s → id ≠ .str s) {path : Path} (hpath : Path.Parsed path) (value : Json) :
    (write other w id path value).1.Shut doc d other barred := by
  cases he : w.documents[other]? with
  | none =>
    rw [Workspace.write, he]
    exact h
  | some e =>
    obtain ⟨-, ⟨hsame, -⟩ | ⟨hwrite, hw⟩⟩ := write_eq he id path value
    · rw [hsame]
      exact h
    obtain ⟨but, hseals, hbut⟩ := h.seals other e hother he
    obtain rfl := hbut rfl
    have hps : ∀ p ∈ (e.written id path value).partsAround (.field id :: path.steps),
        ¬ d.Holds p.1 := fun p => hseals.partsAround hid hpath hwrite
    have hways : ∀ way ∈ e.waysWritten id path value, ¬ d.Holds way.1 := fun way =>
      hseals.waysWritten hid hpath
    rw [hw]
    constructor
    · rw [List.getElem?_map, List.getElem?_set_ne hother, h.stored, Option.map_some,
        Document.updated, Document.fillAll_of_not_holds hps,
        Document.releaseInside_of_not_holds hways]
    · intro i f hi hf
      rw [List.getElem?_map, Option.map_eq_some_iff] at hf
      obtain ⟨g, hg, rfl⟩ := hf
      by_cases hsame : i = other
      · rw [hsame, List.getElem?_set_self (List.getElem?_eq_some_iff.mp he).1] at hg
        obtain rfl := Option.some.inj hg
        exact ⟨but, ((hseals.written hid hwrite).fillAll hps).releaseInside _, fun _ => rfl⟩
      · rw [List.getElem?_set_ne (Ne.symm hsame)] at hg
        obtain ⟨more, hmore, -⟩ := h.seals i g hi hg
        exact ⟨more, (hmore.fillAll hps).releaseInside _, fun heq => absurd heq hsame⟩

theorem Shut.finds (h : w.Shut doc d other barred) (hother : other ≠ doc) :
    FindsAmong (fun id => ∀ s, barred s → id ≠ .str s) (w.value other) := by
  rintro nodeType conditions ids hfound id hid s hs rfl
  cases he : w.documents[other]? with
  | none => simp [value, he, findNodes] at hfound
  | some e =>
    obtain ⟨but, hseals, hbut⟩ := h.seals other e hother he
    obtain rfl := hbut rfl
    rw [value, he] at hfound
    exact (hseals.bars s hs).unselectable.not_found hfound hid

theorem keepsHoldings_inject [Machine] (doc : Nat) (registry : Registry) (values : Json)
    (w : Workspace) :
    KeepsHoldings w (inject (surface doc) registry values w).state :=
  inject_keeps (A := fun _ => True) (P := KeepsHoldings w) (fun _ _ => findsAmong_all _)
    (fun _ id path value h _ _ => h.trans (keepsHoldings_write doc id path value)) registry values
    (KeepsHoldings.refl w)

/-- An injection into another document keeps a document that is closed, and keeps it closed. -/
theorem closed_inject [Machine] (hclosed : w.Closed doc d) (hd : w.documents[doc]? = some d)
    (hother : other ≠ doc) (registry : Registry) (values : Json) :
    (inject (surface other) registry values w).state.Closed doc d ∧
      (inject (surface other) registry values w).state.documents[doc]? = some d := by
  obtain ⟨barred, hshut⟩ : ∃ barred, w.Shut doc d other barred := by
    cases he : w.documents[other]? with
    | none =>
      refine ⟨fun _ => False, hd, fun i e hi hie => ?_⟩
      obtain ⟨but, hseals⟩ := hclosed i e hi hie
      refine ⟨but, hseals, ?_⟩
      rintro rfl
      simp [he] at hie
    | some e =>
      obtain ⟨barred, hbarred⟩ := hclosed other e hother he
      refine ⟨barred, hd, fun i f hi hif => ?_⟩
      by_cases hsame : i = other
      · subst hsame
        obtain rfl := Option.some.inj (he.symm.trans hif)
        exact ⟨barred, hbarred, fun _ => rfl⟩
      · obtain ⟨but, hseals⟩ := hclosed i f hi hif
        exact ⟨but, hseals, fun heq => absurd heq hsame⟩
  have hkept := inject_keeps (S := surface other) (P := fun w => w.Shut doc d other barred)
    (fun _ h => h.finds hother)
    (fun _ _ _ value h hid hpath => h.write hother hid hpath value) registry values hshut
  refine ⟨fun i e hi he => ?_, hkept.stored⟩
  obtain ⟨but, hseals, -⟩ := hkept.seals i e hi he
  exact ⟨but, hseals⟩

end Workspace
end NodeWorkflow
