import Mathlib
import NodeWorkflow.Proofs.Sharing.Frame

/-!
# Writes through a shared part

A write one step below a place at which a document holds a part of another one is seen in the other
one. A text that was not there before tells that it was written, because nothing that is written
later together with this text can take it away.
-/
namespace NodeWorkflow

namespace Json

variable {t : String} {v content : Json} {place : Place}

def HasText (t : String) (v : Json) : Prop := ∃ place, atPlace? place v = some (.str t)

theorem HasText.of_atPlace? (h : atPlace? place v = some content) (hcontent : HasText t content) :
    HasText t v := by
  obtain ⟨rest, hrest⟩ := hcontent
  exact ⟨place ++ rest, by rw [atPlace?_append, h, Option.bind_some, hrest]⟩

theorem HasText.cases (h : HasText t v) :
    v = .str t ∨ (∃ xs, v = .list xs ∧ ∃ x ∈ xs, HasText t x) ∨
    ∃ es, v = .obj es ∧ ∃ e ∈ es, HasText t e.2 := by
  obtain ⟨place, hplace⟩ := h
  cases place with
  | nil => exact .inl (Option.some.inj hplace)
  | cons step place =>
    rw [atPlace?_cons] at hplace
    obtain ⟨x, hx, hrest⟩ := Option.bind_eq_some_iff.mp hplace
    cases step with
    | item i => cases v with
      | list xs => exact .inr (.inl ⟨xs, rfl, x, List.mem_of_getElem? hx, place, hrest⟩)
      | _ => simp [child?] at hx
    | field key => cases v with
      | obj es =>
        obtain ⟨k, hmem, -⟩ := Entries.exists_of_get? hx
        exact .inr (.inr ⟨es, rfl, (k, x), hmem, place, hrest⟩)
      | _ => simp [child?] at hx

theorem finite_texts (v : Json) : {t | HasText t v}.Finite := by
  induction hsize : sizeOf v using Nat.strong_induction_on generalizing v with
  | _ n ih =>
    cases v with
    | scalar a =>
      refine (Set.finite_singleton a.text).subset fun t ht => ?_
      rcases ht.cases with h | ⟨xs, h, -⟩ | ⟨es, h, -⟩
      · obtain rfl : a = .str t := by simpa using h
        rfl
      · simp at h
      · simp at h
    | list xs =>
      have hitems : (⋃ x ∈ {x | x ∈ xs}, {t | HasText t x}).Finite := by
        refine (List.finite_toSet xs).biUnion fun x hx => ih (sizeOf x) ?_ x rfl
        have hlt := List.sizeOf_lt_of_mem hx
        simp only [← hsize, list.sizeOf_spec]
        omega
      refine hitems.subset fun t ht => ?_
      rcases ht.cases with h | ⟨ys, h, x, hx, hin⟩ | ⟨es, h, -⟩
      · simp at h
      · exact Set.mem_biUnion (show x ∈ {x | x ∈ xs} from (list.inj h) ▸ hx) hin
      · simp at h
    | obj es =>
      have hentries : (⋃ e ∈ {e | e ∈ es}, {t | HasText t e.2}).Finite := by
        refine (List.finite_toSet es).biUnion fun e he => ih (sizeOf e.2) ?_ e.2 rfl
        have hlt := List.sizeOf_lt_of_mem he
        obtain ⟨k, x⟩ := e
        simp only [← hsize, obj.sizeOf_spec, Prod.mk.sizeOf_spec] at hlt ⊢
        omega
      refine hentries.subset fun t ht => ?_
      rcases ht.cases with h | ⟨ys, h, -⟩ | ⟨fs, h, e, he, hin⟩
      · simp at h
      · simp at h
      · exact Set.mem_biUnion (show e ∈ {e | e ∈ es} from (obj.inj h) ▸ he) hin

theorem exists_fresh_text (v : Json) : ∃ t, ¬ HasText t v :=
  (finite_texts v).exists_notMem

/-- The data is as it was, or the text stands in it. -/
def Grows (t : String) (v w : Json) : Prop := w = v ∨ HasText t w

theorem Grows.hasText {w : Json} (h : Grows t v w) (hv : HasText t v) : HasText t w := by
  rcases h with rfl | h
  · exact hv
  · exact h

theorem Grows.trans {u w : Json} (h : Grows t u v) (h' : Grows t v w) : Grows t u w := by
  rcases h' with rfl | h'
  · exact h
  · exact .inr h'

/-- Data with a text may be put anywhere. -/
theorem grows_setPlace (hcontent : HasText t content) (place : Place) (v : Json) :
    Grows t v (setPlace content place v) := by
  cases h : atPlace? place v with
  | none => exact .inl (setPlace_of_absent h content)
  | some old =>
    have hput := atPlace?_setPlace h content []
    rw [List.append_nil] at hput
    exact .inr (HasText.of_atPlace? hput hcontent)

theorem hasText_setPlace (hcontent : HasText t content) (h : ∃ old, atPlace? place v = some old) :
    HasText t (setPlace content place v) := by
  obtain ⟨old, hold⟩ := h
  have hput := atPlace?_setPlace hold content []
  rw [List.append_nil] at hput
  exact HasText.of_atPlace? hput hcontent

theorem grows_foldl {α : Type} {xs : List α} {f : Json → α → Json}
    (hf : ∀ x ∈ xs, ∀ v, Grows t v (f v x)) (v : Json) : Grows t v (xs.foldl f v) := by
  induction xs generalizing v with
  | nil => exact .inl rfl
  | cons x xs ih =>
    exact (hf x List.mem_cons_self v).trans
      (ih (fun y hy => hf y (List.mem_cons_of_mem _ hy)) (f v x))

/-- One step that would leave the text in the data at first leaves it there in the end. -/
theorem hasText_foldl {α : Type} {xs : List α} {f : Json → α → Json}
    (hf : ∀ x ∈ xs, ∀ v, Grows t v (f v x)) {x : α} (hx : x ∈ xs) (h : HasText t (f v x)) :
    HasText t (xs.foldl f v) := by
  induction xs with
  | nil => simp at hx
  | cons y xs ih =>
    have hrest := grows_foldl (fun z hz => hf z (List.mem_cons_of_mem _ hz)) (f v y)
    rcases List.mem_cons.mp hx with rfl | hx
    · exact hrest.hasText h
    · rcases hf y List.mem_cons_self v with hsame | htext
      · rw [List.foldl_cons, hsame]
        exact ih (fun z hz => hf z (List.mem_cons_of_mem _ hz)) hx
      · exact hrest.hasText htext

end Json

namespace Document

open Json

variable {t : String} {d e : Document} {content : Json} {part : Nat} {h : Holding}
  {ps : List (Nat × Json)}

theorem grows_fill (hcontent : HasText t content) (d : Document) (part : Nat) :
    Grows t d.value (d.fill part content).value := by
  refine grows_foldl (fun h _ v => ?_) d.value
  split
  · exact grows_setPlace hcontent h.place v
  · exact .inl rfl

theorem hasText_fill (hcontent : HasText t content) (hh : h ∈ d.holdings)
    (hthere : ∃ v, atPlace? h.place d.value = some v) :
    HasText t (d.fill h.part content).value := by
  refine hasText_foldl (fun g _ v => ?_) hh ?_
  · split
    · exact grows_setPlace hcontent g.place v
    · exact .inl rfl
  · rw [if_pos rfl]
    exact hasText_setPlace hcontent hthere

theorem value_fillAll (ps : List (Nat × Json)) (d : Document) : (d.fillAll ps).value =
    ps.foldl (fun v p => (fill p.1 p.2 ⟨v, d.holdings⟩).value) d.value := by
  induction ps generalizing d with
  | nil => rfl
  | cons p ps ih => exact ih (d.fill p.1 p.2)

theorem grows_fillAll (hps : ∀ p ∈ ps, HasText t p.2) (d : Document) :
    Grows t d.value (d.fillAll ps).value := by
  rw [value_fillAll]
  exact grows_foldl (fun p hp v => grows_fill (hps p hp) ⟨v, d.holdings⟩ p.1) d.value

/-- A part that the document holds where something stands is filled. -/
theorem hasText_fillAll (hps : ∀ p ∈ ps, HasText t p.2) (hh : h ∈ d.holdings)
    (hthere : ∃ v, atPlace? h.place d.value = some v) (hpart : (h.part, content) ∈ ps) :
    HasText t (d.fillAll ps).value := by
  rw [value_fillAll]
  refine hasText_foldl (fun p hp v => grows_fill (hps p hp) ⟨v, d.holdings⟩ p.1) hpart ?_
  exact hasText_fill (d := ⟨d.value, d.holdings⟩) (hps _ hpart) hh hthere

/-- The parts around a place at which a text was written have the text. -/
theorem hasText_partsAround [Machine] {id : Scalar} {path : Path}
    (hdone : (Surface.writeNode e.value id path (.str t)).2 = .done) :
    ∀ p ∈ (e.written id path (.str t)).partsAround (.field id :: path.steps), HasText t p.2 := by
  intro p hp
  obtain ⟨x, hx, -, hcontent⟩ := mem_partsAround.mp hp
  obtain ⟨rest, hrest⟩ := (mem_around.mp hx).2.1
  have hwritten := Surface.atPlace?_writeNode hdone
  rw [← value_written, ← hrest, atPlace?_append, hcontent, Option.bind_some] at hwritten
  exact ⟨rest, hwritten⟩

/-- A document holds a part at a place that has room for a step, and its other parts apart. -/
structure Lent (e : Document) (target : Place) (part : Nat) (step : Step) : Prop where
  held : ⟨target, part⟩ ∈ e.holdings
  apart : ∀ g ∈ e.holdings, g.part ≠ part → Apart g.place target
  content : ∃ v, atPlace? target e.value = some v ∧ v.admits step

variable {target : Place} {step : Step}

theorem Lent.releaseInside {ways : List (Nat × Place)} (hlent : e.Lent target part step)
    (hways : ∀ way ∈ ways, way.1 ≠ part) : (e.releaseInside ways).Lent target part step where
  held := by
    refine mem_releaseInside.mpr ⟨hlent.held, ?_⟩
    rintro ⟨g, hg, way, hway, hpart, hplace⟩
    have hapart := hlent.apart g hg (hpart ▸ hways way hway)
    exact hapart.1 ((List.prefix_append _ _).trans hplace)
  apart g hg := hlent.apart g ((holdings_releaseInside_sublist ways e).subset hg)
  content := hlent.content

variable [Machine] {id : Scalar} {path : Path}

/-- A write elsewhere, and the parts around it, leave a part lent, if it is none of them. -/
theorem Lent.fillAll_written (hlent : e.Lent target part step) (htexts : Texts target)
    (hapart : Apart (.field id :: path.steps) target) (value : Json)
    (hps : ∀ p ∈ ps, p.1 ≠ part) : ((e.written id path value).fillAll ps).Lent target part step where
  held := by
    rw [holdings_fillAll]
    exact mem_holdings_written hlent.held hapart.1 value
  apart g hg := by
    rw [holdings_fillAll] at hg
    exact hlent.apart g ((e.holdings_written_sublist id path value).subset hg)
  content := by
    obtain ⟨v, hv, hadmits⟩ := hlent.content
    refine ⟨v, ?_, hadmits⟩
    rw [atPlace?_fillAll htexts, value_written]
    · exact Surface.atPlace?_writeNode_apart htexts hapart hv value
    · intro p hp g hg hpart
      exact hlent.apart g ((e.holdings_written_sublist id path value).subset hg)
        (hpart ▸ hps p hp)

/-- A write one step inside a lent part has it among the parts around. -/
theorem Lent.mem_partsAround (hlent : e.Lent target part step)
    (hsteps : .field id :: path.steps = target ++ [step])
    (hdone : (Surface.writeNode e.value id path (.str t)).2 = .done) :
    ∃ content, (part, content) ∈
      (e.written id path (.str t)).partsAround (.field id :: path.steps) := by
  have hwritten := Surface.atPlace?_writeNode hdone
  rw [← value_written, hsteps, atPlace?_append] at hwritten
  obtain ⟨content, hcontent, -⟩ := Option.bind_eq_some_iff.mp hwritten
  refine ⟨content, Document.mem_partsAround.mpr
    ⟨⟨target, part⟩, mem_around.mpr ⟨?_, ?_⟩, rfl, hcontent⟩⟩
  · refine mem_holdings_written hlent.held (fun hprefix => ?_) (.str t)
    have hlength := hprefix.length_le
    simp [hsteps] at hlength
  · rw [hsteps]
    exact ⟨List.prefix_append _ _, by simp⟩

end Document

namespace Workspace

open Json Document

variable {w : Workspace} {doc other : Nat} {d : Document} {source target : Place} {part : Nat}
  {step : Step} {t : String} {id : Scalar} {path : Path}

/-- A part of a document stands open in another one. -/
structure Open (w : Workspace) (doc other : Nat) (source target : Place) (part : Nat)
    (step : Step) : Prop where
  held : ∃ d, w.documents[doc]? = some d ∧ ⟨source, part⟩ ∈ d.holdings ∧
    ∃ v, atPlace? source d.value = some v
  lent : ∃ e, w.documents[other]? = some e ∧ e.Lent target part step

def Shows (w : Workspace) (doc : Nat) (t : String) : Prop :=
  ∃ d, w.documents[doc]? = some d ∧ HasText t d.value

variable [Machine]

theorem write_other (hne : other ≠ doc) (hd : w.documents[doc]? = some d)
    (hshort : ∀ s ∈ path, ∀ i, s.index = some i → i + 1 < Machine.memoryBound) {e : Document}
    (he : w.documents[other]? = some e) :
    (Surface.writeNode e.value id path (.str t)).2 = .refused ∧
        (write other w id path (.str t)).1 = w ∨
      (Surface.writeNode e.value id path (.str t)).2 = .done ∧
      (write other w id path (.str t)).1.documents[doc]? =
        some (e.updated id path (.str t) d) ∧
      (write other w id path (.str t)).1.documents[other]? =
        some (e.updated id path (.str t) (e.written id path (.str t))) := by
  obtain ⟨-, ⟨hsame, hrefused⟩ | ⟨hwrite, hw⟩⟩ := write_eq he id path (.str t)
  · exact .inl ⟨hrefused, hsame⟩
  · right
    have hdone := WriteOutcome.eq_done hwrite (Surface.writeNode_ne_stopped hshort _ _ _)
    refine ⟨hdone, ?_, ?_⟩
    · rw [hw, List.getElem?_map, List.getElem?_set_ne hne, hd, Option.map_some]
    · have hlt := (List.getElem?_eq_some_iff.mp he).1
      rw [hw, List.getElem?_map, List.getElem?_set_self hlt, Option.map_some]

section
variable (hne : other ≠ doc)
  (hshort : ∀ s ∈ path, ∀ i, s.index = some i → i + 1 < Machine.memoryBound)
include hne hshort

theorem shows_write (h : w.Shows doc t) : (write other w id path (.str t)).1.Shows doc t := by
  obtain ⟨d, hd, htext⟩ := h
  cases he : w.documents[other]? with
  | none =>
    rw [write, he]
    exact ⟨d, hd, htext⟩
  | some e =>
    rcases write_other hne hd hshort he with ⟨-, hsame⟩ | ⟨hdone, hd', -⟩
    · rw [hsame]
      exact ⟨d, hd, htext⟩
    · exact ⟨_, hd', (grows_fillAll (hasText_partsAround hdone) d).hasText htext⟩

/-- A write apart from a part that stands open leaves it open, unless the text comes to stand in the
document that the part belongs to. -/
theorem open_write (h : w.Open doc other source target part step) (htexts : Texts target)
    (hapart : Apart (.field id :: path.steps) target) :
    (write other w id path (.str t)).1.Open doc other source target part step ∨
      (write other w id path (.str t)).1.Shows doc t := by
  obtain ⟨d, hd, hheld, hthere⟩ := h.held
  obtain ⟨e, he, hlent⟩ := h.lent
  rcases write_other hne hd hshort he with ⟨-, hsame⟩ | ⟨hdone, hd', he'⟩
  · rw [hsame]
    exact .inl h
  by_cases hshown : HasText t (e.updated id path (.str t) d).value
  · exact .inr ⟨_, hd', hshown⟩
  left
  have htext := hasText_partsAround hdone
  have hsame : (e.updated id path (.str t) d).value = d.value :=
    (grows_fillAll htext d).resolve_right hshown
  -- A part around the written place that `d` holds where something stands would show the text.
  have hunseen {g : Holding} (hg : g ∈ d.holdings) (hv : ∃ v, atPlace? g.place d.value = some v)
      (way : Nat × Place) (hway : way ∈ e.waysWritten id path (.str t)) : way.1 ≠ g.part := by
    intro hpart
    have hwritten := Surface.atPlace?_writeNode hdone
    rw [← value_written] at hwritten
    obtain ⟨content, hcontent, -⟩ := exists_partAround (mem_waysWritten hway).1 hwritten
    exact hshown (hasText_fillAll htext hg hv (hpart ▸ hcontent))
  have hother : ∀ p ∈ (e.written id path (.str t)).partsAround (.field id :: path.steps),
      p.1 ≠ part := by
    rintro ⟨n, content⟩ hp rfl
    exact hshown (hasText_fillAll htext hheld hthere hp)
  refine ⟨⟨_, hd', ?_, hsame ▸ hthere⟩, _, he', ?_⟩
  · rw [updated, mem_releaseInside, holdings_fillAll]
    refine ⟨hheld, ?_⟩
    rintro ⟨g, hg, way, hway, hpart, hplace⟩
    obtain ⟨rest, rfl : g.place ++ rest = source⟩ := (List.prefix_append _ _).trans hplace
    obtain ⟨v, hv⟩ := hthere
    rw [atPlace?_append] at hv
    obtain ⟨inner, hinner, -⟩ := Option.bind_eq_some_iff.mp hv
    exact hunseen hg ⟨inner, hinner⟩ way hway hpart.symm
  · exact (hlent.fillAll_written htexts hapart (.str t) hother).releaseInside
      fun way hway => hunseen hheld hthere way hway

/-- A write one step inside a part that stands open is seen in the document it belongs to. -/
theorem shows_write_inside (h : w.Open doc other source target part step) (hpath : path ≠ [])
    (hsteps : .field id :: path.steps = target ++ [step]) :
    (write other w id path (.str t)).1.Shows doc t := by
  obtain ⟨d, hd, hheld, hthere⟩ := h.held
  obtain ⟨e, he, hlent⟩ := h.lent
  obtain ⟨v, hv, hadmits⟩ := hlent.content
  rcases write_other hne hd hshort he with ⟨hrefused, -⟩ | ⟨hdone, hd', -⟩
  · exact absurd hrefused (Surface.writeNode_ne_refused hv hadmits hsteps hpath (.str t))
  · obtain ⟨content, hmem⟩ := hlent.mem_partsAround hsteps hdone
    exact ⟨_, hd', hasText_fillAll (hasText_partsAround hdone) hheld hthere hmem⟩

end

theorem write_ne_stopped (hshort : ∀ s ∈ path, ∀ i, s.index = some i → i + 1 < Machine.memoryBound)
    (w : Workspace) (other : Nat) (id : Scalar) (value : Json) (fault : Fault) :
    (write other w id path value).2 ≠ .stopped fault := by
  cases he : w.documents[other]? with
  | none => simp [write, he]
  | some e =>
    rw [(write_eq he id path value).1]
    exact Surface.writeNode_ne_stopped hshort _ _ _ fault

end Workspace

variable {σ : Type} {S : Surface σ} {name : Scalar} {spec : ParameterSpec} {value : Json} {s : σ}
  {path : Path} {ids : List Scalar}

theorem injectNode_state (name : Scalar) (hpath : Path.ofJson spec.primaryPath = .ok path)
    (htruthy : spec.primaryPath.truthy = true) (hfallback : spec.fallbackPath = .null)
    (hstop : ∀ s id fault, (S.write s id path value).2 ≠ .stopped fault) (s : σ) (id : Scalar) :
    (injectNode S name spec value s id).fault = none ∧
      (injectNode S name spec value s id).state = (S.write s id path value).1 := by
  have hfirst : S.writeIfGiven s id spec.primaryPath value = S.write s id path value := by
    simp [Surface.writeIfGiven, Surface.writeData, htruthy, hpath]
  have hsecond (s : σ) : S.writeIfGiven s id spec.fallbackPath value = (s, .refused) := by
    simp [Surface.writeIfGiven, hfallback, Json.truthy, Scalar.truthy]
  have hnever := hstop s id
  unfold injectNode
  rw [hfirst]
  cases hwrite : S.write s id path value with
  | mk s' outcome =>
    rw [hwrite] at hnever
    cases outcome with
    | done => exact ⟨rfl, rfl⟩
    | refused => simp [hsecond, Injection.report]
    | stopped fault => exact absurd rfl (hnever fault)

/-- An injection into nodes, one of which leads from states of one kind to states of another one
that every write keeps. -/
theorem injectNodes_reaches {Q R : σ → Prop} (hpath : Path.ofJson spec.primaryPath = .ok path)
    (htruthy : spec.primaryPath.truthy = true) (hfallback : spec.fallbackPath = .null)
    (hstop : ∀ s id fault, (S.write s id path value).2 ≠ .stopped fault) {id : Scalar}
    (hhere : ∀ s, Q s → R (S.write s id path value).1)
    (hother : ∀ s other, other ≠ id → Q s →
      Q (S.write s other path value).1 ∨ R (S.write s other path value).1)
    (hkeep : ∀ s other, R s → R (S.write s other path value).1) (hid : id ∈ ids) (hs : Q s) :
    R (injectNodes S name spec value ids s).state := by
  suffices hrun : ∀ i : Injection σ, i.fault = none → (R i.state ∨ Q i.state ∧ id ∈ ids) →
      R (ids.foldl (fun i id => i.andThen fun s => injectNode S name spec value s id) i).state from
    hrun (.start s) rfl (.inr ⟨hs, hid⟩)
  clear hid
  induction ids with
  | nil =>
    rintro i - (hR | ⟨-, hnil⟩)
    · exact hR
    · simp at hnil
  | cons other ids ih =>
    intro i hfault hi
    obtain ⟨hnext, hstate⟩ := injectNode_state name hpath htruthy hfallback hstop i.state other
    have hthen : (i.andThen fun s => injectNode S name spec value s other).fault = none ∧
        (i.andThen fun s => injectNode S name spec value s other).state =
          (S.write i.state other path value).1 := by
      simp [Injection.andThen, hfault, hnext, hstate]
    refine ih _ hthen.1 ?_
    rw [hthen.2]
    rcases hi with hR | ⟨hQ, hmem⟩
    · exact .inl (hkeep _ other hR)
    · by_cases hsame : other = id
      · exact .inl (hsame ▸ hhere _ hQ)
      · have hmem : id ∈ ids := by simpa [Ne.symm hsame] using hmem
        rcases hother _ other hsame hQ with hQ | hR
        · exact .inr ⟨hQ, hmem⟩
        · exact .inl hR

end NodeWorkflow
