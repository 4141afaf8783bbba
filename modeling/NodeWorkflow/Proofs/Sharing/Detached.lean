import NodeWorkflow.Proofs.Sharing.Alike
import NodeWorkflow.Proofs.Sharing.Frame

/-!
# Documents that share nothing with the others

A document is detached if no other document holds any of its parts. An injection into a detached
document changes no other one. A copy is detached, because its parts have numbers that no part had
before, and it shares within itself what the document it was made from does.
-/
namespace NodeWorkflow

namespace Document

def renumbered (count : Nat) (d : Document) : Document :=
  ⟨d.value, d.holdings.map fun h => { h with part := count + h.part }⟩

theorem renumbered_alike (count count' : Nat) (d : Document) :
    (d.renumbered count).Alike (d.renumbered count') := by
  refine ⟨d.holdings.map fun h => (h.place, count + h.part, count' + h.part), rfl, ?_, ?_, ?_⟩
  · simp [renumbered, Function.comp_def]
  · simp [renumbered, Function.comp_def]
  · simp only [List.mem_map]
    rintro _ ⟨g, -, rfl⟩ _ ⟨h, -, rfl⟩
    simp only [Nat.add_left_cancel_iff]

end Document

namespace Workspace

variable {w w' : Workspace} {doc other i : Nat} {d : Document}

/-- The numbers of parts in use are below the next one. -/
def Bounded (w : Workspace) : Prop := ∀ d ∈ w.documents, ∀ h ∈ d.holdings, h.part < w.parts

/-- No other document holds a part of this one. -/
def Detached (w : Workspace) (doc : Nat) : Prop :=
  ∀ d, w.documents[doc]? = some d → ∀ i e, i ≠ doc → w.documents[i]? = some e →
    ∀ h ∈ e.holdings, ¬ d.Holds h.part

theorem Bounded.keeps (h : w.Bounded) (hkeeps : KeepsHoldings w w') : w'.Bounded := by
  intro d' hd' x hx
  obtain ⟨i, hi⟩ := List.mem_iff_getElem?.mp hd'
  obtain ⟨d, hd, hsub⟩ := hkeeps.holdings i d' hi
  rw [hkeeps.parts]
  exact h d (List.mem_of_getElem? hd) x (hsub.subset hx)

theorem Detached.keeps (h : w.Detached doc) (hkeeps : KeepsHoldings w w') :
    w'.Detached doc := by
  rintro d' hd' i e' hi he' x hx ⟨y, hy, hpart⟩
  obtain ⟨d, hd, hsub⟩ := hkeeps.holdings doc d' hd'
  obtain ⟨e, he, hsub'⟩ := hkeeps.holdings i e' he'
  exact h d hd i e hi he x (hsub'.subset hx) ⟨y, hsub.subset hy, hpart⟩

/-- The parts around a written place are parts of the document, and no other one has them. -/
theorem Detached.write [Machine] (h : w.Detached doc) (hi : i ≠ doc) (id : Scalar) (path : Path)
    (value : Json) : (write doc w id path value).1.documents[i]? = w.documents[i]? := by
  cases hd : w.documents[doc]? with
  | none => rw [Workspace.write, hd]
  | some d =>
    obtain ⟨-, ⟨hsame, -⟩ | ⟨-, hw⟩⟩ := write_eq hd id path value
    · rw [hsame]
    · rw [hw, List.getElem?_map, List.getElem?_set_ne (Ne.symm hi)]
      cases he : w.documents[i]? with
      | none => rfl
      | some e =>
        have hforeign {y : Holding} (hy : y ∈ (d.written id path value).holdings) :
            ¬ e.Holds y.part := by
          rintro ⟨x, hx, hpart⟩
          have hheld := (d.holdings_written_sublist id path value).subset hy
          exact h d hd i e hi he x hx ⟨y, hheld, hpart.symm⟩
        rw [Option.map_some, Document.updated, Document.fillAll_of_not_holds,
          Document.releaseInside_of_not_holds]
        · intro way hway
          obtain ⟨y, hy, hpart, -⟩ := Document.mem_waysAround (Document.mem_waysWritten hway).1
          exact hpart ▸ hforeign (Document.mem_around.mp hy).1
        · intro p hp
          obtain ⟨y, hy, hpart, -⟩ := Document.mem_partsAround.mp hp
          exact hpart ▸ hforeign (Document.mem_around.mp hy).1

/-- An injection into a detached document changes no other one. -/
theorem Detached.inject [Machine] (h : w.Detached doc) (hi : i ≠ doc) (registry : Registry)
    (values : Json) :
    (inject (surface doc) registry values w).state.documents[i]? = w.documents[i]? := by
  have hkept := inject_keeps (S := surface doc) (A := fun _ => True)
    (P := fun u => u.Detached doc ∧ u.documents[i]? = w.documents[i]?) (fun _ _ => findsAmong_all _)
    (fun u id path value hu _ _ => ⟨hu.1.keeps (keepsHoldings_write doc id path value),
      (hu.1.write hi id path value).trans hu.2⟩) registry values ⟨h, rfl⟩
  exact hkept.2

theorem copy_eq (hd : w.documents[doc]? = some d) : w.copy doc =
    (⟨w.documents ++ [d.renumbered w.parts], w.parts + w.parts⟩, w.documents.length) := by
  simp only [copy, hd, add, Document.renumbered]

theorem mem_renumbered {h : Holding} {count : Nat} (hh : h ∈ (d.renumbered count).holdings) :
    ∃ g ∈ d.holdings, h.part = count + g.part := by
  obtain ⟨g, hg, rfl⟩ := List.mem_map.mp hh
  exact ⟨g, hg, rfl⟩

theorem getElem?_copy (hd : w.documents[doc]? = some d) :
    (w.copy doc).1.documents[i]? =
      if i = w.documents.length then some (d.renumbered w.parts) else w.documents[i]? := by
  rw [copy_eq hd]
  rcases lt_trichotomy i w.documents.length with hlt | rfl | hgt
  · rw [List.getElem?_append_left hlt, if_neg hlt.ne]
  · simp
  · rw [if_neg hgt.ne', List.getElem?_eq_none hgt.le, List.getElem?_eq_none]
    rw [List.length_append, List.length_singleton]
    exact hgt

theorem Bounded.renumbered (h : w.Bounded) (hd : w.documents[doc]? = some d) :
    ∀ x ∈ (d.renumbered w.parts).holdings, x.part < w.parts + w.parts := by
  intro x hx
  obtain ⟨g, hg, hpart⟩ := mem_renumbered hx
  rw [hpart]
  exact Nat.add_lt_add_left (h d (List.mem_of_getElem? hd) g hg) _

theorem Bounded.copy (h : w.Bounded) (hd : w.documents[doc]? = some d) :
    (w.copy doc).1.Bounded := by
  rw [copy_eq hd]
  intro e he x hx
  rcases List.mem_append.mp he with he | he
  · exact (h e he x hx).trans_le (Nat.le_add_right _ _)
  · rw [List.mem_singleton.mp he] at hx
    exact h.renumbered hd x hx

theorem Bounded.not_holds_renumbered (h : w.Bounded) {e : Document} (he : w.documents[i]? = some e)
    {x y : Holding} (hx : x ∈ e.holdings) (hy : y ∈ (d.renumbered w.parts).holdings) :
    y.part ≠ x.part := by
  have hlt := h e (List.mem_of_getElem? he) x hx
  obtain ⟨g, -, hpart⟩ := mem_renumbered hy
  omega

/-- A copy is detached. -/
theorem Bounded.detached_copy (h : w.Bounded) (hd : w.documents[doc]? = some d) :
    (w.copy doc).1.Detached w.documents.length := by
  rintro f hf i e hi he x hx ⟨y, hy, hpart⟩
  rw [getElem?_copy hd, if_pos rfl] at hf
  rw [getElem?_copy hd, if_neg hi] at he
  obtain rfl := Option.some.inj hf
  exact h.not_holds_renumbered he hx hy hpart

/-- A document that is detached stays so when another one, or it itself, is copied. -/
theorem Detached.copy (h : w.Detached other) (hbounded : w.Bounded)
    (hother : other < w.documents.length)
    (hd : w.documents[doc]? = some d) : (w.copy doc).1.Detached other := by
  rintro f hf i e hi he x hx ⟨y, hy, hpart⟩
  rw [getElem?_copy hd, if_neg hother.ne] at hf
  rw [getElem?_copy hd] at he
  split at he
  · obtain rfl := Option.some.inj he
    exact hbounded.not_holds_renumbered hf hy hx hpart.symm
  · exact h f hf i e hi he x hx ⟨y, hy, hpart⟩

end Workspace
end NodeWorkflow
