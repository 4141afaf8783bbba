import NodeWorkflow.Proofs.Path.Places
import NodeWorkflow.Sharing.Workspace

/-!
# A write seen from one document

A write into a document changes that document alone, apart from the parts around the written place:
their new contents go to every document that holds them, and what was held inside them at the
written place is held no more. A document that holds none of these parts stays as it is.
-/
namespace NodeWorkflow

theorem WriteOutcome.eq_done {outcome : WriteOutcome} (hrefused : outcome ≠ .refused)
    (hstopped : ∀ fault, outcome ≠ .stopped fault) : outcome = .done := by
  cases outcome with
  | done => rfl
  | refused => exact absurd rfl hrefused
  | stopped fault => exact absurd rfl (hstopped fault)

namespace Document

def Holds (d : Document) (part : Nat) : Prop := ∃ h ∈ d.holdings, h.part = part

theorem fill_of_not_holds {d : Document} {part : Nat} (h : ¬ d.Holds part) (content : Json) :
    d.fill part content = d := by
  have hsame (hs : List Holding) (hsub : ∀ x ∈ hs, x.part ≠ part) (v : Json) :
      hs.foldl (fun v x => if x.part = part then Json.setPlace content x.place v else v) v = v := by
    induction hs with
    | nil => rfl
    | cons x hs ih =>
      rw [List.foldl_cons, if_neg (hsub x List.mem_cons_self)]
      exact ih fun y hy => hsub y (List.mem_cons_of_mem _ hy)
  have hparts : ∀ x ∈ d.holdings, x.part ≠ part := fun x hx heq => h ⟨x, hx, heq⟩
  simp only [fill, hsame d.holdings hparts]

def fillAll (ps : List (Nat × Json)) (d : Document) : Document :=
  ps.foldl (fun d p => d.fill p.1 p.2) d

@[simp] theorem holdings_fillAll (ps : List (Nat × Json)) (d : Document) :
    (d.fillAll ps).holdings = d.holdings := by
  induction ps generalizing d with
  | nil => rfl
  | cons p ps ih => exact ih (d.fill p.1 p.2)

theorem fillAll_of_not_holds {d : Document} {ps : List (Nat × Json)}
    (h : ∀ p ∈ ps, ¬ d.Holds p.1) : d.fillAll ps = d := by
  induction ps with
  | nil => rfl
  | cons p ps ih =>
    rw [fillAll, List.foldl_cons, fill_of_not_holds (h p List.mem_cons_self)]
    exact ih fun q hq => h q (List.mem_cons_of_mem _ hq)

theorem mem_around {d : Document} {place : Place} {h : Holding} :
    h ∈ d.around place ↔
      h ∈ d.holdings ∧ h.place <+: place ∧ h.place.length < place.length := by
  simp only [around, List.mem_flatMap, List.mem_range, List.mem_filter, decide_eq_true_eq]
  constructor
  · rintro ⟨n, hn, hh, hplace⟩
    have hlength : h.place.length = n := by rw [hplace, List.length_take_of_le hn.le]
    exact ⟨hh, hplace ▸ List.take_prefix _ _, hlength ▸ hn⟩
  · rintro ⟨hh, hprefix, hlength⟩
    exact ⟨h.place.length, hlength, hh, List.prefix_iff_eq_take.mp hprefix⟩

/-- A part around a place is held at a place that the other one leads strictly inside of. -/
theorem mem_partsAround {d : Document} {place : Place} {p : Nat × Json} :
    p ∈ d.partsAround place ↔ ∃ h ∈ d.around place, h.part = p.1 ∧
      Json.atPlace? h.place d.value = some p.2 := by
  simp only [partsAround, List.mem_filterMap, Option.map_eq_some_iff, Prod.ext_iff]
  constructor
  · rintro ⟨h, hh, content, hcontent, hpart, rfl⟩
    exact ⟨h, hh, hpart, hcontent⟩
  · rintro ⟨h, hh, hpart, hcontent⟩
    exact ⟨h, hh, p.2, hcontent, hpart, rfl⟩

theorem holdings_releaseInside_sublist (ways : List (Nat × Place)) (d : Document) :
    (d.releaseInside ways).holdings.Sublist d.holdings := List.filter_sublist

theorem leadsTo_eq_true {ways : List (Nat × Place)} {d : Document} {place : Place} :
    d.leadsTo ways place = true ↔
      ∃ h ∈ d.holdings, ∃ way ∈ ways, h.part = way.1 ∧ h.place ++ way.2 <+: place := by
  simp only [leadsTo, List.any_eq_true, Bool.and_eq_true, beq_iff_eq, List.isPrefixOf_iff_prefix]

theorem mem_releaseInside {ways : List (Nat × Place)} {d : Document} {h : Holding} :
    h ∈ (d.releaseInside ways).holdings ↔
      h ∈ d.holdings ∧ ¬ ∃ g ∈ d.holdings, ∃ way ∈ ways, g.part = way.1 ∧
        g.place ++ way.2 <+: h.place := by
  rw [releaseInside, List.mem_filter, Bool.not_eq_true', ← Bool.not_eq_true, leadsTo_eq_true]

theorem releaseInside_of_not_holds {ways : List (Nat × Place)} {d : Document}
    (h : ∀ way ∈ ways, ¬ d.Holds way.1) : d.releaseInside ways = d := by
  have hkept : d.holdings.filter (fun x => !d.leadsTo ways x.place) = d.holdings := by
    refine List.filter_eq_self.mpr fun x _ => ?_
    rw [Bool.not_eq_true', ← Bool.not_eq_true, leadsTo_eq_true]
    rintro ⟨g, hg, way, hway, hpart, -⟩
    exact h way hway ⟨g, hg, hpart⟩
  rw [releaseInside, hkept]

@[simp] theorem releaseInside_nil (d : Document) : d.releaseInside [] = d :=
  releaseInside_of_not_holds (by simp)

theorem mem_waysAround {d : Document} {place : Place} {way : Nat × Place}
    (hway : way ∈ d.waysAround place) :
    ∃ h ∈ d.around place, h.part = way.1 ∧ h.place ++ way.2 = place := by
  obtain ⟨h, hh, rfl⟩ := List.mem_map.mp hway
  obtain ⟨rest, rfl⟩ := (mem_around.mp hh).2.1
  exact ⟨h, hh, rfl, by simp⟩

/-- Where something stands at a place, the parts around it are those that ways down lead from. -/
theorem exists_partAround {d : Document} {place : Place} {way : Nat × Place} {v : Json}
    (hway : way ∈ d.waysAround place) (hv : Json.atPlace? place d.value = some v) :
    ∃ content, (way.1, content) ∈ d.partsAround place ∧
      Json.atPlace? way.2 content = some v := by
  obtain ⟨h, hh, hpart, hplace⟩ := mem_waysAround hway
  rw [← hplace, Json.atPlace?_append] at hv
  obtain ⟨content, hcontent, hrest⟩ := Option.bind_eq_some_iff.mp hv
  exact ⟨content, mem_partsAround.mpr ⟨h, hh, hpart, hcontent⟩, hrest⟩

variable [Machine]

/-- The document that a write leaves before the parts around it are brought up to date. -/
def written (d : Document) (id : Scalar) (path : Path) (value : Json) : Document :=
  let (v, outcome) := Surface.writeNode d.value id path value
  match outcome with
  | .done => release (.field id :: path.steps) { d with value := v }
  | _ => { d with value := v }

theorem value_written (d : Document) (id : Scalar) (path : Path) (value : Json) :
    (d.written id path value).value = (Surface.writeNode d.value id path value).1 := by
  unfold written
  cases Surface.writeNode d.value id path value with
  | mk v outcome => cases outcome <;> rfl

/-- A write takes no holding away but at its place and below. -/
theorem mem_holdings_written {d : Document} {h : Holding} (hh : h ∈ d.holdings) {id : Scalar}
    {path : Path} (hplace : ¬ (.field id :: path.steps) <+: h.place) (value : Json) :
    h ∈ (d.written id path value).holdings := by
  unfold written
  cases Surface.writeNode d.value id path value with
  | mk v outcome => cases outcome with
    | done =>
      refine List.mem_filter.mpr ⟨hh, ?_⟩
      rw [Bool.not_eq_true', ← Bool.not_eq_true, List.isPrefixOf_iff_prefix]
      exact hplace
    | refused => exact hh
    | stopped fault => exact hh

theorem not_prefix_of_mem_written {d : Document} {h : Holding} {id : Scalar} {path : Path}
    {value : Json} (hh : h ∈ (d.written id path value).holdings)
    (hdone : (Surface.writeNode d.value id path value).2 = .done) :
    ¬ (.field id :: path.steps) <+: h.place := by
  unfold written at hh
  cases hwrite : Surface.writeNode d.value id path value with
  | mk v outcome =>
    rw [hwrite] at hh hdone
    obtain rfl : outcome = .done := hdone
    have hkept := (List.mem_filter.mp hh).2
    rwa [Bool.not_eq_true', ← Bool.not_eq_true, List.isPrefixOf_iff_prefix] at hkept

theorem holdings_written_sublist (d : Document) (id : Scalar) (path : Path) (value : Json) :
    (d.written id path value).holdings.Sublist d.holdings := by
  unfold written
  split
  split
  · exact List.filter_sublist
  · exact List.Sublist.refl _

/-- The ways down to a written place from the parts around, if the write is done. -/
def waysWritten (d : Document) (id : Scalar) (path : Path) (value : Json) : List (Nat × Place) :=
  match (Surface.writeNode d.value id path value).2 with
  | .done => (d.written id path value).waysAround (.field id :: path.steps)
  | _ => []

/-- What a write into one document leaves of another one, or of the same once it is written. -/
def updated (d : Document) (id : Scalar) (path : Path) (value : Json) (e : Document) : Document :=
  (e.fillAll ((d.written id path value).partsAround (.field id :: path.steps))).releaseInside
    (d.waysWritten id path value)

theorem holdings_updated_sublist (d : Document) (id : Scalar) (path : Path) (value : Json)
    (e : Document) : (d.updated id path value e).holdings.Sublist e.holdings := by
  have hsub := holdings_releaseInside_sublist (d.waysWritten id path value)
    (e.fillAll ((d.written id path value).partsAround (.field id :: path.steps)))
  rwa [holdings_fillAll] at hsub

theorem mem_waysWritten {d : Document} {id : Scalar} {path : Path} {value : Json}
    {way : Nat × Place} (hway : way ∈ d.waysWritten id path value) :
    way ∈ (d.written id path value).waysAround (.field id :: path.steps) ∧
      (Surface.writeNode d.value id path value).2 = .done := by
  unfold waysWritten at hway
  split at hway
  next hdone => exact ⟨hway, hdone⟩
  next => simp at hway

/-- Writes into a node, and brings the parts around up to date in the document itself. -/
def write (d : Document) (id : Scalar) (path : Path) (value : Json) : Document × WriteOutcome :=
  match (Surface.writeNode d.value id path value).2 with
  | .refused => (d, .refused)
  | outcome => (d.updated id path value (d.written id path value), outcome)

def surface : Surface Document := ⟨Document.value, Document.write⟩

end Document

namespace Workspace

variable {w : Workspace} {doc : Nat} {d : Document}

theorem foldl_fill (ps : List (Nat × Json)) (w : Workspace) :
    ps.foldl (fun w p => w.fill p.1 p.2) w =
      { w with documents := w.documents.map (Document.fillAll ps) } := by
  induction ps generalizing w with
  | nil =>
    change w = { w with documents := w.documents.map id }
    rw [List.map_id]
  | cons p ps ih =>
    rw [List.foldl_cons, ih, fill, List.map_map]
    rfl

/-- What a write leaves of a workspace: the written document, and every document with the parts
around the written place brought up to date; or nothing is changed because the write is refused. -/
theorem write_eq [Machine] (hd : w.documents[doc]? = some d) (id : Scalar) (path : Path)
    (value : Json) :
    (write doc w id path value).2 = (Surface.writeNode d.value id path value).2 ∧
      ((write doc w id path value).1 = w ∧
          (Surface.writeNode d.value id path value).2 = .refused ∨
        (Surface.writeNode d.value id path value).2 ≠ .refused ∧
        (write doc w id path value).1 = { w with
          documents := (w.documents.set doc (d.written id path value)).map
            (d.updated id path value) }) := by
  cases hwrite : Surface.writeNode d.value id path value with
  | mk v outcome =>
    have hupdated : d.updated id path value = fun e => (e.fillAll
        ((d.written id path value).partsAround (.field id :: path.steps))).releaseInside
          (d.waysWritten id path value) := rfl
    simp only [write, hd, hupdated, Document.waysWritten, Document.written, hwrite]
    cases outcome with
    | refused => exact ⟨rfl, .inl ⟨rfl, rfl⟩⟩
    | done =>
      refine ⟨rfl, .inr ⟨by simp, ?_⟩⟩
      simp only [store, releaseInside, foldl_fill, List.map_map]
      rfl
    | stopped fault =>
      refine ⟨rfl, .inr ⟨by simp, ?_⟩⟩
      simp only [store, foldl_fill, Document.releaseInside_nil]

attribute [local instance] Machine.common in
/-- Nodes `1` and `2` are one object, in which an object lies that node `3` has too. Once it is
replaced in node `1`, node `2` does not have it either. -/
example :
    let field (id : String) : Place := [.field (.str id)]
    let shared (v : Json) : Json := .ofFields [("k", v)]
    let inner (v : String) : Json := .ofFields [("z", .str v)]
    let w : Workspace := ⟨[⟨.ofFields [("1", shared (inner "old")), ("2", shared (inner "old")),
      ("3", inner "old")], [⟨field "1", 0⟩, ⟨field "2", 0⟩, ⟨field "1" ++ field "k", 1⟩,
        ⟨field "2" ++ field "k", 1⟩, ⟨field "3", 1⟩]⟩], 2⟩
    let replaced := (write 0 w (.str "1") [⟨"k", none⟩] (.str "new")).1
    (write 0 replaced (.str "3") [⟨"z", none⟩] (.str "newer")).1.value 0 =
      .ofFields [("1", shared (.str "new")), ("2", shared (.str "new")), ("3", inner "newer")] := by
  decide +kernel

end Workspace
end NodeWorkflow
