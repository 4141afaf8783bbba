import NodeWorkflow.Proofs.Parameter.Simulation
import NodeWorkflow.Proofs.Sharing.Document
import NodeWorkflow.Template.Catalogue

/-!
# Documents that share alike

An injection into a document of a workspace depends on the value of the document and on which of its
places share a part, and on nothing else: neither the numbers of the parts nor the other documents
that hold them are seen.
-/
namespace NodeWorkflow

namespace Document

/-- Two documents with one value and holdings at the same places, which are listed with the numbers
of their parts in either. -/
structure AlikeBy (links : List (Place × Nat × Nat)) (d e : Document) : Prop where
  value : d.value = e.value
  left : d.holdings = links.map fun l => ⟨l.1, l.2.1⟩
  right : e.holdings = links.map fun l => ⟨l.1, l.2.2⟩
  matched : ∀ a ∈ links, ∀ b ∈ links, a.2.1 = b.2.1 ↔ a.2.2 = b.2.2

/-- Two documents have one value, and places of one share a part if and only if they do in the
other. -/
def Alike (d e : Document) : Prop := ∃ links, AlikeBy links d e

variable {links : List (Place × Nat × Nat)} {d e : Document}

theorem AlikeBy.fill (h : AlikeBy links d e) {l : Place × Nat × Nat} (hl : l ∈ links)
    (content : Json) : AlikeBy links (d.fill l.2.1 content) (e.fill l.2.2 content) where
  left := h.left
  right := h.right
  matched := h.matched
  value := by
    simp only [Document.fill, h.left, h.right, List.foldl_map]
    have hfold (ls : List (Place × Nat × Nat)) (hsub : ∀ m ∈ ls, m ∈ links) (v : Json) :
        ls.foldl (fun v m => if m.2.1 = l.2.1 then Json.setPlace content m.1 v else v) v =
          ls.foldl (fun v m => if m.2.2 = l.2.2 then Json.setPlace content m.1 v else v) v := by
      induction ls generalizing v with
      | nil => rfl
      | cons m ls ih =>
        have hm := h.matched m (hsub m List.mem_cons_self) l hl
        rw [List.foldl_cons, List.foldl_cons, ih fun n hn => hsub n (List.mem_cons_of_mem _ hn)]
        simp only [hm]
    rw [h.value]
    exact hfold links (fun _ hm => hm) e.value

theorem AlikeBy.fillAll (qs : List ((Place × Nat × Nat) × Json)) (hqs : ∀ q ∈ qs, q.1 ∈ links)
    (h : AlikeBy links d e) : AlikeBy links (d.fillAll (qs.map fun q => (q.1.2.1, q.2)))
      (e.fillAll (qs.map fun q => (q.1.2.2, q.2))) := by
  induction qs generalizing d e with
  | nil => exact h
  | cons q qs ih =>
    exact ih (fun r hr => hqs r (List.mem_cons_of_mem _ hr))
      (h.fill (hqs q List.mem_cons_self) q.2)

theorem AlikeBy.around (h : AlikeBy links d e) (place : Place) :
    ∃ ls : List (Place × Nat × Nat), (∀ l ∈ ls, l ∈ links) ∧
      d.around place = ls.map (fun l => ⟨l.1, l.2.1⟩) ∧
      e.around place = ls.map (fun l => ⟨l.1, l.2.2⟩) := by
  refine ⟨(List.range place.length).flatMap fun n => links.filter fun l => l.1 = place.take n,
    ?_, ?_, ?_⟩
  · intro l hl
    obtain ⟨n, -, hl⟩ := List.mem_flatMap.mp hl
    exact (List.mem_filter.mp hl).1
  · simp only [Document.around, h.left, List.map_flatMap, List.filter_map]
    rfl
  · simp only [Document.around, h.right, List.map_flatMap, List.filter_map]
    rfl

theorem AlikeBy.partsAround (h : AlikeBy links d e) (place : Place) :
    ∃ qs : List ((Place × Nat × Nat) × Json), (∀ q ∈ qs, q.1 ∈ links) ∧
      d.partsAround place = qs.map (fun q => (q.1.2.1, q.2)) ∧
      e.partsAround place = qs.map (fun q => (q.1.2.2, q.2)) := by
  obtain ⟨ls, hls, hleft, hright⟩ := h.around place
  refine ⟨ls.filterMap fun l => (Json.atPlace? l.1 d.value).map fun content => (l, content),
    ?_, ?_, ?_⟩
  · intro q hq
    obtain ⟨l, hl, hsome⟩ := List.mem_filterMap.mp hq
    obtain ⟨content, -, rfl⟩ := Option.map_eq_some_iff.mp hsome
    exact hls l hl
  · simp only [Document.partsAround, hleft, List.filterMap_map, List.map_filterMap,
      Function.comp_def, Option.map_map]
  · simp only [Document.partsAround, hright, ← h.value, List.filterMap_map, List.map_filterMap,
      Function.comp_def, Option.map_map]

theorem AlikeBy.released (h : AlikeBy links d e) (place : Place) :
    ∃ kept, AlikeBy kept (d.release place) (e.release place) := by
  refine ⟨links.filter fun l => !place.isPrefixOf l.1, h.value, ?_, ?_, ?_⟩
  · rw [Document.release, h.left, List.filter_map]
    rfl
  · rw [Document.release, h.right, List.filter_map]
    rfl
  · intro a ha b hb
    exact h.matched a (List.mem_filter.mp ha).1 b (List.mem_filter.mp hb).1

theorem AlikeBy.leadsTo (h : AlikeBy links d e) (qs : List ((Place × Nat × Nat) × Place))
    (hqs : ∀ q ∈ qs, q.1 ∈ links) (place : Place) :
    d.leadsTo (qs.map fun q => (q.1.2.1, q.2)) place =
      e.leadsTo (qs.map fun q => (q.1.2.2, q.2)) place := by
  rw [Bool.eq_iff_iff, leadsTo_eq_true, leadsTo_eq_true, h.left, h.right]
  simp only [List.mem_map, exists_exists_and_eq_and]
  constructor
  · rintro ⟨l, hl, q, hq, hpart, hplace⟩
    exact ⟨l, hl, q, hq, (h.matched l hl q.1 (hqs q hq)).mp hpart, hplace⟩
  · rintro ⟨l, hl, q, hq, hpart, hplace⟩
    exact ⟨l, hl, q, hq, (h.matched l hl q.1 (hqs q hq)).mpr hpart, hplace⟩

theorem AlikeBy.waysAround (h : AlikeBy links d e) (place : Place) :
    ∃ qs : List ((Place × Nat × Nat) × Place), (∀ q ∈ qs, q.1 ∈ links) ∧
      d.waysAround place = qs.map (fun q => (q.1.2.1, q.2)) ∧
      e.waysAround place = qs.map (fun q => (q.1.2.2, q.2)) := by
  obtain ⟨ls, hls, hleft, hright⟩ := h.around place
  refine ⟨ls.map fun l => (l, place.drop l.1.length), ?_, ?_, ?_⟩
  · exact List.forall_mem_map.mpr hls
  · simp only [Document.waysAround, hleft, List.map_map, Function.comp_def]
  · simp only [Document.waysAround, hright, List.map_map, Function.comp_def]

theorem AlikeBy.releaseInside (h : AlikeBy links d e) (qs : List ((Place × Nat × Nat) × Place))
    (hqs : ∀ q ∈ qs, q.1 ∈ links) :
    ∃ kept, AlikeBy kept (d.releaseInside (qs.map fun q => (q.1.2.1, q.2)))
      (e.releaseInside (qs.map fun q => (q.1.2.2, q.2))) := by
  -- A place is led to in both documents or in neither, so that the same holdings are left.
  refine ⟨links.filter fun l => !d.leadsTo (qs.map fun q => (q.1.2.1, q.2)) l.1, h.value, ?_, ?_, ?_⟩
  · rw [Document.releaseInside, h.left, List.filter_map]
    rfl
  · rw [Document.releaseInside, h.right, List.filter_map]
    simp only [Function.comp_def, h.leadsTo qs hqs]
  · intro a ha b hb
    exact h.matched a (List.mem_filter.mp ha).1 b (List.mem_filter.mp hb).1

theorem Alike.written [Machine] (h : Alike d e) (id : Scalar) (path : Path) (value : Json) :
    Alike (d.written id path value) (e.written id path value) := by
  obtain ⟨links, hvalue, hleft, hright, hmatched⟩ := h
  unfold Document.written
  rw [hvalue]
  cases Surface.writeNode e.value id path value with
  | mk v outcome =>
    have hplain : AlikeBy links { d with value := v } { e with value := v } :=
      ⟨rfl, hleft, hright, hmatched⟩
    cases outcome with
    | done => exact hplain.released _
    | refused => exact ⟨links, hplain⟩
    | stopped fault => exact ⟨links, hplain⟩

theorem alike_simulates [Machine] : surface.Simulates surface (fun _ => True) Alike where
  graph := by
    rintro d e ⟨links, h⟩
    exact h.value
  finds _ := findsAmong_all _
  write := by
    intro d e h id path value _ _
    have hvalue : d.value = e.value := h.elim fun links h => h.value
    obtain ⟨links, hwritten⟩ := h.written id path value
    obtain ⟨qs, hqs, hleft, hright⟩ := hwritten.partsAround (.field id :: path.steps)
    have hfilled := hwritten.fillAll qs hqs
    rw [← hleft, ← hright] at hfilled
    obtain ⟨ways, hways, hdown, hdown'⟩ := hwritten.waysAround (.field id :: path.steps)
    have hreleased := hfilled.releaseInside ways hways
    rw [← hdown, ← hdown'] at hreleased
    simp only [surface, Document.write, Document.updated, Document.waysWritten, hvalue]
    cases (Surface.writeNode e.value id path value).2 with
    | refused => exact ⟨rfl, h⟩
    | done => exact ⟨rfl, hreleased⟩
    | stopped fault =>
      rw [Document.releaseInside_nil, Document.releaseInside_nil]
      exact ⟨rfl, links, hfilled⟩

end Document

/-- To an injection a document of a workspace is the document on its own. -/
theorem Workspace.surface_simulates [Machine] (doc : Nat) :
    (Workspace.surface doc).Simulates Document.surface (fun _ => True)
      fun w d => w.documents[doc]? = some d where
  graph := by
    intro w d h
    simp [Workspace.surface, Document.surface, Workspace.value, h]
  finds _ := findsAmong_all _
  write := by
    intro w d h id path value _ _
    obtain ⟨houtcome, hw⟩ := Workspace.write_eq h id path value
    simp only [Workspace.surface, Document.surface, Document.write]
    rcases hw with ⟨hsame, hrefused⟩ | ⟨hdone, hw⟩
    · rw [houtcome, hsame, hrefused]
      exact ⟨rfl, h⟩
    · have hdoc : doc < w.documents.length := (List.getElem?_eq_some_iff.mp h).1
      rw [houtcome, hw]
      cases hcase : (Surface.writeNode d.value id path value).2 with
      | refused => exact absurd hcase hdone
      | done => simp [hdoc]
      | stopped fault => simp [hdoc]

end NodeWorkflow
