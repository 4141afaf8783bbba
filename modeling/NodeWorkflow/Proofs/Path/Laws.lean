import NodeWorkflow.Proofs.Path.Diverging
import NodeWorkflow.Proofs.Path.Obstructed

/-!
# Laws of reading and writing

Reading and writing at one path are a lens: what was written is read, the second of two writes
counts, and a write of what is read changes nothing. Two writes at paths that diverge are
independent: neither changes what is read or how the write ends at the other path, and they may be
made in either order.
-/
namespace NodeWorkflow

def WriteOutcome.Returns (outcome : WriteOutcome) : Prop := ∀ fault, outcome ≠ .stopped fault

namespace Json

variable {v inner value path x : Json} {s t : Segment} {p q rest : Path}

theorem at?_of_getByPath (h : ∀ default, v.getByPath path default = .ok x) :
    ∃ p, Path.ofJson path = .ok p ∧ v.at? p = some x := by
  have hnull := h .null
  have hlist := h (.list [])
  unfold getByPath at hnull hlist
  cases hpath : Path.ofJson path with
  | ok p =>
    refine ⟨p, rfl, ?_⟩
    cases hread : v.at? p with
    | some y => simpa [hpath, hread] using hnull
    | none =>
      obtain rfl : Json.null = x := by simpa [hpath, hread] using hnull
      simp [hpath, hread] at hlist
  | error cause => cases cause with
    | indexTooLong digits => simp [hpath] at hnull
    | _ =>
      obtain rfl : Json.null = x := by simpa [hpath] using hnull
      simp [hpath] at hlist

section

variable [Machine]

theorem returns_writeAt_iff : (writeAt value p v).2.Returns ↔ overruns p v = false :=
  writeAt_ne_stopped_iff

theorem setByPath_of_at? (hpath : Path.ofJson path = .ok p) (h : v.at? p = some x) (value : Json) :
    v.setByPath path value = (fill value p v, .done) := by
  have hfits := fits_of_at? h (Path.ne_nil_of_ofJson hpath)
  simp only [setByPath, hpath, writeAt_of_not_overruns (overruns_of_at? h), hfits, if_true]

/-- A write that is done is done with every value. -/
theorem setByPath_eq_done (h : (v.setByPath path x).2 = .done) : ∃ p, Path.ofJson path = .ok p ∧
    fits p v = true ∧ ∀ value, v.setByPath path value = (fill value p v, .done) := by
  have hreturns : (v.setByPath path x).2.Returns := by simp [WriteOutcome.Returns, h]
  rcases setByPath_cases hreturns with ⟨p, hpath, hfits, -⟩ | ⟨-, hrefused⟩
  · refine ⟨p, hpath, hfits, fun value => ?_⟩
    simp only [setByPath, hpath] at hreturns ⊢
    rw [writeAt_of_not_overruns (returns_writeAt_iff.mp hreturns), if_pos hfits]
  · simp [hrefused] at h

/-- A write that is done is read back with any default, and a second one at the same path is done
and leaves what it would leave without the first. A write of what stands at the path is done and
changes nothing. -/
theorem access_lawful (v path x w : Json) :
    ((v.setByPath path x).2 = .done →
      (∀ default, (v.setByPath path x).1.getByPath path default = .ok x) ∧
        ((v.setByPath path x).1.setByPath path w).2 = .done ∧
        (v.setByPath path x).1.setByPath path w = v.setByPath path w) ∧
      ((∀ default, v.getByPath path default = .ok x) → v.setByPath path x = (v, .done)) := by
  constructor
  · intro h
    obtain ⟨p, hpath, hfits, hset⟩ := setByPath_eq_done h
    have hread : (fill x p v).at? p = some x := at?_fill hfits x
    rw [hset x, hset w, setByPath_of_at? hpath hread, fill_fill]
    refine ⟨fun default => ?_, rfl, rfl⟩
    simp only [getByPath, hpath, hread, Option.getD_some]
  · intro h
    obtain ⟨p, hpath, hread⟩ := at?_of_getByPath h
    rw [setByPath_of_at? hpath hread, fill_of_at? hread]

end

attribute [local instance] Machine.common in
/-- The list is padded, and an object is made in it. -/
theorem access_lawful_in_short_list :
    ((Json.obj [(.str "a", .list [.null])]).setByPath (.str "a[2].k") (.str "x")).1.getByPath
        (.str "a[2].k") .null = .ok (.str "x") ∧
      ((Json.obj [(.str "a", .list [.null])]).setByPath (.str "a[2].k") (.str "x")).1.setByPath
        (.str "a[2].k") (.str "y") =
      (Json.obj [(.str "a", .list [.null])]).setByPath (.str "a[2].k") (.str "y") := by
  have hdone : ((Json.obj [(.str "a", .list [.null])]).setByPath (.str "a[2].k") (.str "x")).2 =
      .done := by rfl
  obtain ⟨hread, -, hagain⟩ := (access_lawful _ _ _ (.str "y")).1 hdone
  exact ⟨hread .null, hagain⟩

/-- The list of a segment lacks no more items after a write at this segment or one that diverges. -/
theorem shortage_putUnder_le (h : s = t ∨ s.Diverges t) (child v : Json) :
    shortage t (putUnder child s v) ≤ shortage t v := by
  obtain ⟨name, index⟩ := s
  obtain ⟨other, index'⟩ := t
  cases v with
  | scalar a => simp [putUnder]
  | list xs => simp [putUnder]
  | obj es => cases index' with
    | none => simp [shortage]
    | some j =>
      by_cases hname : name = other
      · subst hname
        obtain ⟨i, rfl⟩ : ∃ i, index = some i := by
          rcases h with h | h
          · exact ⟨j, (Segment.mk.inj h).2⟩
          · obtain ⟨i, -, hi, -⟩ := h.resolve_left (by simp)
            exact ⟨i, hi⟩
        cases hxs : listUnder? name es with
        | none => simp [putUnder, hxs]
        | some xs =>
          simp only [putUnder, hxs, shortage, listUnder?_put_list, length_putItem]
          omega
      · rcases putUnder_obj child ⟨name, index⟩ es with ⟨content, hput⟩ | hput
        · simp [hput es rfl, shortage, listUnder?_put, hname]
        · simp [hput es rfl]

section

variable [Machine]

theorem overruns_fill_of_diverges (h : p.Diverges q) (hq : overruns q v = false) (value : Json) :
    overruns q (fill value p v) = false := by
  refine h.induction (motive := fun p q => ∀ v, overruns q v = false →
    overruns q (fill value p v) = false) ?_ ?_ v hq
  · intro s t p q hst v hq
    cases hs : under? s v with
    | none => rwa [fill_of_under?_eq_none hs]
    | some inner =>
      simp only [fill, hs]
      have hsame := under?_putUnder_of_diverges hst
        (if p.isEmpty then value else fill value p inner.vivified) v
      cases ht : under? t v with
      | none => simp only [overruns, hsame, ht]
      | some inner' =>
        rw [overruns_cons_eq_false_iff ht] at hq
        exact (overruns_cons_eq_false_iff (hsame.trans ht)).mpr
          ⟨(shortage_putUnder_le (.inr hst) _ v).trans_lt hq.1, hq.2⟩
  · intro s p q hp hq ih v hoverruns
    cases hs : under? s v with
    | none => rwa [fill_of_under?_eq_none hs]
    | some inner =>
      obtain ⟨hshort, hbelow⟩ := (overruns_cons_eq_false_iff hs).mp hoverruns
      rw [fill_cons hs hp, overruns_cons_eq_false_iff (under?_putUnder hs _), vivified_fill]
      exact ⟨(shortage_putUnder_le (.inl rfl) _ v).trans_lt hshort,
        .inr (ih _ (hbelow.resolve_left hq))⟩

/-- Where two paths diverge, a write at one of them changes neither what is read at the other, with
null for what is missing, nor whether a write at the other is done or refused. Two such writes may
be made in either order, up to the order of the entries of objects. -/
theorem diverging_writes_independent {text other : String} {p q : Path}
    (hp : Path.parse text = .ok p) (hq : Path.parse other = .ok q) (h : p.Diverges q) {v x : Json}
    (hx : (v.setByPath (.str text) x).2.Returns) (y : Json) :
    (v.setByPath (.str text) x).1.getByPath (.str other) .null = v.getByPath (.str other) .null ∧
      ((v.setByPath (.str other) y).2.Returns →
        ((v.setByPath (.str text) x).1.setByPath (.str other) y).2 = (v.setByPath (.str other) y).2 ∧
        ((v.setByPath (.str other) y).1.setByPath (.str text) x).2 = (v.setByPath (.str text) x).2 ∧
        Rearranged ((v.setByPath (.str text) x).1.setByPath (.str other) y).1
          ((v.setByPath (.str other) y).1.setByPath (.str text) x).1) := by
  simp only [setByPath_of_parse hp, setByPath_of_parse hq] at hx ⊢
  rw [returns_writeAt_iff] at hx
  rw [writeAt_of_not_overruns hx]
  constructor
  · have hread := at?_fill_of_diverges h x v
    simp only [getByPath, Path.ofJson, hq, hread]
  · intro hy
    rw [returns_writeAt_iff] at hy
    rw [writeAt_of_not_overruns hy, writeAt_of_not_overruns (overruns_fill_of_diverges h hy x),
      writeAt_of_not_overruns (overruns_fill_of_diverges h.symm hx y)]
    exact ⟨by rw [fits_fill_of_diverges h], by rw [fits_fill_of_diverges h.symm], fill_comm h x y v⟩

end

attribute [local instance] Machine.common in
/-- Either write makes the list, and the one comes to the list that the other made. -/
theorem diverging_writes_independent_in_new_list :
    Rearranged
      (((Json.obj []).setByPath (.str "a[0].k") (.str "x")).1.setByPath (.str "a[2]") (.str "y")).1
      (((Json.obj []).setByPath (.str "a[2]") (.str "y")).1.setByPath (.str "a[0].k") (.str "x")).1 := by
  have hparse : Path.parse "a[0].k" = .ok [⟨"a", some 0⟩, ⟨"k", none⟩] := by rfl
  have hparse' : Path.parse "a[2]" = .ok [⟨"a", some 2⟩] := by rfl
  have hdiverges : Path.Diverges [⟨"a", some 0⟩, ⟨"k", none⟩] [⟨"a", some 2⟩] :=
    ⟨[], ⟨"a", some 0⟩, ⟨"a", some 2⟩, _, _, rfl, rfl, .inr ⟨0, 2, rfl, rfl, by decide⟩⟩
  have hdone : ((Json.obj []).setByPath (.str "a[0].k") (.str "x")).2 = .done := by rfl
  have hdone' : ((Json.obj []).setByPath (.str "a[2]") (.str "y")).2 = .done := by rfl
  have hboth := diverging_writes_independent hparse hparse' hdiverges
    (v := .obj []) (x := .str "x") (by simp [WriteOutcome.Returns, hdone]) (.str "y")
  exact (hboth.2 (by simp [WriteOutcome.Returns, hdone'])).2.2

end Json
end NodeWorkflow
