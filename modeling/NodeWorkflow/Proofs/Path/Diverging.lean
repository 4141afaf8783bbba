import NodeWorkflow.Proofs.Json.Rearranged
import NodeWorkflow.Proofs.Path.Fill

/-!
# Two writes

A write of a scalar makes no path fit that did not fit before. Two paths diverge if, where they
first differ, neither leads into what the other one makes; then a write at one changes neither
whether the other fits nor what is read there, and two writes may be made in either order, up to the
order of new entries.
-/
namespace NodeWorkflow

/-- The segments lead to different fields, or to different items of one list. -/
def Segment.Diverges (s t : Segment) : Prop :=
  s.name ≠ t.name ∨ ∃ i j, s.index = some i ∧ t.index = some j ∧ i ≠ j

/-- Where the paths first differ, their segments diverge. -/
def Path.Diverges (p q : Path) : Prop :=
  ∃ common s t p' q', p = common ++ s :: p' ∧ q = common ++ t :: q' ∧ s.Diverges t

theorem Segment.Diverges.symm {s t : Segment} (h : s.Diverges t) : t.Diverges s := by
  rcases h with h | ⟨i, j, hi, hj, hne⟩
  · exact .inl h.symm
  · exact .inr ⟨j, i, hj, hi, hne.symm⟩

theorem Segment.eq_or_diverges_or (s t : Segment) : s = t ∨ s.Diverges t ∨
    s.name = t.name ∧ (s.index = none ∧ (∃ i, t.index = some i) ∨
      (∃ i, s.index = some i) ∧ t.index = none) := by
  obtain ⟨name, index⟩ := s
  obtain ⟨other, index'⟩ := t
  by_cases hname : name = other
  · subst hname
    cases index with
    | none => cases index' <;> simp
    | some i => cases index' with
      | none => simp
      | some j =>
        by_cases hij : i = j
        · exact .inl (by rw [hij])
        · exact .inr (.inl (.inr ⟨i, j, rfl, rfl, hij⟩))
  · exact .inr (.inl (.inl hname))

theorem Path.Diverges.symm {p q : Path} (h : p.Diverges q) : q.Diverges p := by
  obtain ⟨common, s, t, p', q', hp, hq, hst⟩ := h
  exact ⟨common, t, s, q', p', hq, hp, hst.symm⟩

/-- The segments of two paths diverge at once, or they are the same and the rest diverges. -/
theorem Path.Diverges.induction {motive : Path → Path → Prop} {p q : Path} (h : p.Diverges q)
    (here : ∀ s t p q, s.Diverges t → motive (s :: p) (t :: q))
    (below : ∀ s p q, p ≠ [] → q ≠ [] → motive p q → motive (s :: p) (s :: q)) : motive p q := by
  obtain ⟨common, s, t, p, q, rfl, rfl, hst⟩ := h
  induction common with
  | nil => exact here s t p q hst
  | cons r common ih => exact below r _ _ (by simp) (by simp) ih

namespace Json

variable {v w x y inner child value : Json} {xs ys : List Json} {es fs : Entries Json}
  {s t : Segment} {p q : Path}

/-- What is put under a segment is not met under one that diverges from it. -/
theorem under?_putUnder_of_diverges (h : s.Diverges t) (child v : Json) :
    under? t (putUnder child s v) = under? t v := by
  obtain ⟨name, index⟩ := s
  obtain ⟨other, index'⟩ := t
  cases v with
  | scalar a => simp [putUnder]
  | list xs => simp [putUnder]
  | obj es => cases index with
    | none =>
      have hne : name ≠ other := by simpa [Segment.Diverges] using h
      cases index' <;> simp [putUnder, under?, Entries.get?_put, listUnder?_put, hne]
    | some i => cases hxs : listUnder? name es with
      | none => simp [putUnder, hxs]
      | some xs =>
        by_cases hname : name = other
        · obtain ⟨j, rfl, hne⟩ : ∃ j, index' = some j ∧ i ≠ j := by
            simpa [Segment.Diverges, hname] using h
          subst hname
          simp [putUnder, under?, hxs, listUnder?_put_list, getD_putItem, Ne.symm hne]
        · cases index' <;> simp [putUnder, hxs, under?, Entries.get?_put, listUnder?_put, hname]

theorem fits_fill_of_diverges (h : p.Diverges q) (value v : Json) :
    fits q (fill value p v) = fits q v := by
  refine h.induction (motive := fun p q => ∀ v, fits q (fill value p v) = fits q v) ?_ ?_ v
  · intro s t p q hst v
    cases hunder : under? s v with
    | none => rw [fill_of_under?_eq_none hunder]
    | some inner =>
      simp only [fill, hunder, fits, under?_putUnder_of_diverges hst]
  · intro s p q hp hq ih v
    cases hunder : under? s v with
    | none => rw [fill_of_under?_eq_none hunder]
    | some inner =>
      rw [fill_cons hunder hp, fits_cons (under?_putUnder hunder _) hq, vivified_fill, ih,
        fits_cons hunder hq]

theorem at?_getD (s : Segment) (rest : Path) (v : Json) :
    (v.at? (s :: rest)).getD .null = (((under? s v).getD .null).at? rest).getD .null := by
  have hnull (rest : Path) : (Json.null.at? rest).getD .null = .null := by
    cases rest <;> rfl
  cases hunder : under? s v with
  | none =>
    cases hread : v.at? (s :: rest) with
    | none => simp [hnull]
    | some x =>
      obtain ⟨inner, hinner, -⟩ := under?_of_at? hread
      simp [hunder] at hinner
  | some inner =>
    cases hisNull : inner.isNull with
    | false => rw [at?_cons, at?_of_under? hunder hisNull, Option.bind_some, Option.getD_some]
    | true =>
      obtain rfl := isNull_iff.mp hisNull
      cases hread : v.at? (s :: rest) with
      | none => simp [hnull]
      | some x =>
        obtain ⟨inner, hinner, hx⟩ := under?_of_at? hread
        obtain rfl := Option.some.inj (hunder.symm.trans hinner)
        simp [hx]

theorem at?_vivified (hp : p ≠ []) (v : Json) : v.vivified.at? p = v.at? p := by
  obtain ⟨s, rest, rfl⟩ := List.exists_cons_of_ne_nil hp
  cases hnull : v.isNull with
  | false => rw [vivified_of_isNull hnull]
  | true =>
    obtain rfl := isNull_iff.mp hnull
    rfl

/-- A write changes nothing that is read at a path that diverges from its own, null counting for
none. -/
theorem at?_fill_of_diverges (h : p.Diverges q) (value v : Json) :
    ((fill value p v).at? q).getD .null = (v.at? q).getD .null := by
  refine h.induction (motive := fun p q => ∀ v,
    ((fill value p v).at? q).getD .null = (v.at? q).getD .null) ?_ ?_ v
  · intro s t p q hst v
    cases hunder : under? s v with
    | none => rw [fill_of_under?_eq_none hunder]
    | some inner =>
      rw [at?_getD, at?_getD]
      simp only [fill, hunder, under?_putUnder_of_diverges hst]
  · intro s p q hp hq ih v
    cases hunder : under? s v with
    | none => rw [fill_of_under?_eq_none hunder]
    | some inner =>
      rw [at?_getD, at?_getD, fill_cons hunder hp, under?_putUnder hunder, hunder, Option.getD_some,
        Option.getD_some, ih, at?_vivified hq]

theorem listUnder?_put_eq_none (hnull : x.isNull = false) (hlist : ∀ xs, x ≠ .list xs)
    (name : String) (es : Entries Json) : listUnder? name (Entries.put (.str name) x es) = none := by
  cases x with
  | scalar a => cases a <;> simp_all [listUnder?, Entries.get?_put, isNull]
  | list xs => exact absurd rfl (hlist xs)
  | obj fs => simp [listUnder?, Entries.get?_put]

/-- A list makes no path fit that needs an object in its place, nor the other way around. -/
theorem fits_of_fits_putUnder (hname : t.name = s.name)
    (hindex : t.index = none ∧ (∃ i, s.index = some i) ∨ (∃ i, t.index = some i) ∧ s.index = none)
    (hunder : under? t v = some inner) (hnull : x.isNull = false) (hlist : ∀ xs, x ≠ .list xs)
    (h : fits (s :: p) (putUnder x t v) = true) : fits (s :: p) v = true := by
  cases v with
  | scalar a => simp [under?] at hunder
  | list xs => simp [under?] at hunder
  | obj es =>
    obtain ⟨name, index⟩ := t
    obtain ⟨other, index'⟩ := s
    obtain rfl : name = other := hname
    rcases hindex with ⟨rfl, i, rfl⟩ | ⟨⟨i, rfl⟩, rfl⟩
    · have hnone : under? ⟨name, some i⟩ (putUnder x ⟨name, none⟩ (.obj es)) = none := by
        simp [putUnder, under?, listUnder?_put_eq_none hnull hlist]
      simp [fits_of_under?_eq_none hnone] at h
    · by_cases hp : p = []
      · simp [hp, fits, under?]
      · obtain ⟨ys, hys⟩ : ∃ ys, under? ⟨name, none⟩ (putUnder x ⟨name, some i⟩ (.obj es)) =
            some (.list ys) := by
          obtain ⟨xs, hxs, -⟩ := Option.map_eq_some_iff.mp hunder
          simp [putUnder, hxs, under?, Entries.get?_put]
        rw [fits_cons hys hp] at h
        exact absurd (isObj_of_fits h) (by simp [vivified, isNull, isObj])

theorem fits_of_fits_fill {a : Scalar} (ha : a ≠ .null)
    (h : fits p (fill (.scalar a) q v) = true) : fits p v = true := by
  have hscalar : (Json.scalar a).isNull = false := by cases a <;> simp_all [isNull]
  cases hq : fits q v with
  | false => rwa [fill_of_not_fits hq] at h
  | true =>
    induction q generalizing p v with
    | nil => simp [fits] at hq
    | cons t rest ih => cases p with
      | nil => simp [fits] at h
      | cons s p => cases hunder : under? t v with
        | none => simp [fits_of_under?_eq_none hunder] at hq
        | some inner =>
          rcases Segment.eq_or_diverges_or t s with rfl | hdiverges | ⟨hname, hindex⟩
          · by_cases hp : p = []
            · simp [fits, hunder, hp]
            · rw [fits_cons hunder hp]
              by_cases hrest : rest = []
              · rw [hrest, fill_single hunder, fits_cons (under?_putUnder hunder _) hp,
                  vivified_of_isNull hscalar] at h
                exact absurd (isObj_of_fits h) (by simp [isObj])
              · rw [fits_cons hunder hrest] at hq
                rw [fill_cons hunder hrest, fits_cons (under?_putUnder hunder _) hp,
                  vivified_fill] at h
                exact ih h hq
          · simp only [fill, hunder, fits, under?_putUnder_of_diverges hdiverges] at h
            exact h
          · by_cases hrest : rest = []
            · rw [hrest, fill_single hunder] at h
              exact fits_of_fits_putUnder hname hindex hunder hscalar (by simp) h
            · rw [fits_cons hunder hrest] at hq
              rw [fill_cons hunder hrest] at h
              have hobj := (isObj_fill (.scalar a) rest inner.vivified).trans (isObj_of_fits hq)
              refine fits_of_fits_putUnder hname hindex hunder
                (isNull_fill (isNull_vivified inner) _ rest) (fun xs hxs => ?_) h
              simp [hxs, isObj] at hobj

theorem alike_putItem (h : Alike (.list xs) (.list ys)) (hxy : Alike x y) (index : Nat) :
    Alike (.list (putItem xs index x)) (.list (putItem ys index y)) := by
  rw [alike_list_iff] at h ⊢
  refine ⟨by rw [length_putItem, length_putItem, h.1], fun i => ?_⟩
  rw [getD_putItem, getD_putItem]
  split
  · exact hxy
  · exact h.2 i

theorem alike_empty : Alike (.obj []) (.obj []) := Alike.refl (.obj ⟨by simp, .nil⟩ (by simp))

theorem Alike.vivified (h : Alike v w) : Alike v.vivified w.vivified := by
  unfold Json.vivified
  rw [h.isNull_eq]
  split
  · exact alike_empty
  · exact h

theorem rel_listUnder? (h : Alike (.obj es) (.obj fs)) (name : String) :
    Option.Rel (fun xs ys => Alike (.list xs) (.list ys)) (listUnder? name es) (listUnder? name fs) := by
  have hempty : Alike (.list []) (.list []) := Alike.refl (.list (by simp))
  have hrel := h.rel_get? name
  unfold listUnder?
  cases hx : Entries.get? (.str name) es with
  | none => cases hy : Entries.get? (.str name) fs with
    | none => exact .some hempty
    | some y => simp [hx, hy] at hrel
  | some x => cases hy : Entries.get? (.str name) fs with
    | none => simp [hx, hy] at hrel
    | some y =>
      have hxy : Alike x y := by simpa [hx, hy] using hrel
      rcases hxy.shape with ⟨a, b, rfl, rfl⟩ | ⟨xs, ys, rfl, rfl⟩ | ⟨as, bs, rfl, rfl⟩
      · have hnull := hxy.isNull_eq
        cases a <;> cases b <;> simp [isNull] at hnull ⊢
        exact hempty
      · exact .some hxy
      · exact .none

theorem Alike.rel_under? (h : Alike v w) (s : Segment) :
    Option.Rel Alike (under? s v) (under? s w) := by
  obtain ⟨name, index⟩ := s
  rcases h.shape with ⟨a, b, rfl, rfl⟩ | ⟨xs, ys, rfl, rfl⟩ | ⟨es, fs, rfl, rfl⟩
  · simp [under?]
  · simp [under?]
  · cases index with
    | none =>
      have hrel := h.rel_get? name
      simp only [under?, Option.rel_some_some]
      cases hx : Entries.get? (.str name) es <;> cases hy : Entries.get? (.str name) fs <;>
        simp [hx, hy] at hrel
      · exact Alike.refl decoded_null
      · exact hrel
    | some index =>
      have hrel := rel_listUnder? h name
      simp only [under?]
      cases hx : listUnder? name es <;> cases hy : listUnder? name fs <;> simp [hx, hy] at hrel ⊢
      exact (alike_list_iff.mp hrel).2 index

theorem Alike.putUnder (h : Alike v w) (hxy : Alike x y) (s : Segment) :
    Alike (putUnder x s v) (putUnder y s w) := by
  obtain ⟨name, index⟩ := s
  rcases h.shape with ⟨a, b, rfl, rfl⟩ | ⟨xs, ys, rfl, rfl⟩ | ⟨es, fs, rfl, rfl⟩
  · simpa [Json.putUnder] using h
  · simpa [Json.putUnder] using h
  · cases index with
    | none => exact h.put name hxy
    | some index =>
      have hrel := rel_listUnder? h name
      cases hx : listUnder? name es <;> cases hy : listUnder? name fs <;> simp [hx, hy] at hrel
      · simpa [Json.putUnder, hx, hy] using h
      · simpa [Json.putUnder, hx, hy] using h.put name (alike_putItem hrel hxy index)

theorem Alike.fits_eq (h : Alike v w) (p : Path) : fits p v = fits p w := by
  induction p generalizing v w with
  | nil => rfl
  | cons s rest ih =>
    have hrel := h.rel_under? s
    cases hv : under? s v <;> cases hw : under? s w <;> simp [hv, hw] at hrel
    · rw [fits_of_under?_eq_none hv, fits_of_under?_eq_none hw]
    · simp only [fits, hv, hw, ih hrel.vivified]

theorem Alike.fill (h : Alike v w) (hxy : Alike x y) (p : Path) :
    Alike (fill x p v) (fill y p w) := by
  induction p generalizing v w with
  | nil => exact h
  | cons s rest ih =>
    have hrel := h.rel_under? s
    cases hv : under? s v <;> cases hw : under? s w <;> simp [hv, hw] at hrel
    · rwa [fill_of_under?_eq_none hv, fill_of_under?_eq_none hw]
    · by_cases hrest : rest = []
      · rw [hrest, fill_single hv, fill_single hw]
        exact h.putUnder hxy s
      · rw [fill_cons hv hrest, fill_cons hw hrest]
        exact h.putUnder (ih hrel.vivified) s

theorem Decoded.fill (h : v.Decoded) (hx : x.Decoded) (p : Path) : (fill x p v).Decoded :=
  ((Alike.refl h).fill (Alike.refl hx) p).left

theorem putItem_comm {i j : Nat} (h : i ≠ j) (xs : List Json) (x y : Json) :
    putItem (putItem xs i x) j y = putItem (putItem xs j y) i x := by
  apply eq_of_getD
  · simp only [length_putItem]
    omega
  · intro k
    simp only [getD_putItem]
    by_cases hi : k = i
    · simp [hi, h]
    · simp [hi]

/-- What is put under a segment is stored under its name, where that is not refused. What is stored
depends on the value under that name only. -/
theorem putUnder_obj (child : Json) (s : Segment) (es : Entries Json) :
    (∃ content, ∀ fs : Entries Json, Entries.get? (.str s.name) fs = Entries.get? (.str s.name) es →
      putUnder child s (.obj fs) = .obj (Entries.put (.str s.name) content fs)) ∨
    ∀ fs : Entries Json, Entries.get? (.str s.name) fs = Entries.get? (.str s.name) es →
      putUnder child s (.obj fs) = .obj fs := by
  obtain ⟨name, index⟩ := s
  cases index with
  | none => exact .inl ⟨child, fun fs _ => rfl⟩
  | some i =>
    have hcongr (fs : Entries Json) (h : Entries.get? (.str name) fs = Entries.get? (.str name) es) :
        listUnder? name fs = listUnder? name es := by simp only [listUnder?, h]
    cases hxs : listUnder? name es with
    | none => exact .inr fun fs h => by simp [putUnder, hcongr fs h, hxs]
    | some xs => exact .inl ⟨.list (putItem xs i child), fun fs h => by
        simp [putUnder, hcongr fs h, hxs]⟩

theorem Rearranged.putItem (h : Rearranged x y) (xs : List Json) (index : Nat) :
    Rearranged (.list (Json.putItem xs index x)) (.list (Json.putItem xs index y)) :=
  h.set (by simp only [List.length_append, List.length_replicate]; omega)

theorem Rearranged.putUnder (h : Rearranged x y) (s : Segment) (v : Json) :
    Rearranged (Json.putUnder x s v) (Json.putUnder y s v) := by
  obtain ⟨name, index⟩ := s
  cases v with
  | scalar a => simpa [Json.putUnder] using Rearranged.refl (.scalar a)
  | list xs => simpa [Json.putUnder] using Rearranged.refl (.list xs)
  | obj es => cases index with
    | none => exact h.put (.str name) es
    | some i => cases hxs : listUnder? name es with
      | none => simpa [Json.putUnder, hxs] using Rearranged.refl (.obj es)
      | some xs => simpa [Json.putUnder, hxs] using (h.putItem xs i).put (.str name) es

theorem putUnder_comm (h : s.Diverges t) (x y v : Json) :
    Rearranged (putUnder y t (putUnder x s v)) (putUnder x s (putUnder y t v)) := by
  cases v with
  | scalar a => simpa [putUnder] using Rearranged.refl (.scalar a)
  | list xs => simpa [putUnder] using Rearranged.refl (.list xs)
  | obj es =>
    by_cases hname : s.name = t.name
    · -- the items are in one list, which is made in either order
      obtain ⟨i, j, hi, hj, hne⟩ := h.resolve_left (not_not.mpr hname)
      obtain ⟨name, index⟩ := s
      obtain ⟨other, index'⟩ := t
      obtain rfl : name = other := hname
      obtain rfl : index = some i := hi
      obtain rfl : index' = some j := hj
      suffices heq : putUnder y ⟨name, some j⟩ (putUnder x ⟨name, some i⟩ (.obj es)) =
          putUnder x ⟨name, some i⟩ (putUnder y ⟨name, some j⟩ (.obj es)) from heq ▸ .refl _
      cases hxs : listUnder? name es with
      | none => simp [putUnder, hxs]
      | some xs => simp [putUnder, hxs, listUnder?_put_list, Entries.put_put, putItem_comm hne]
    · have hget (content : Json) {a b : String} (hab : a ≠ b) :
          Entries.get? (.str b) (Entries.put (.str a) content es) = Entries.get? (.str b) es := by
        simp [Entries.get?_put, hab]
      rcases putUnder_obj x s es with ⟨a, hs⟩ | hs <;> rcases putUnder_obj y t es with ⟨b, ht⟩ | ht
      · rw [hs es rfl, ht es rfl, ht _ (hget a hname), hs _ (hget b (Ne.symm hname))]
        exact .perm (Entries.put_put_perm (by simpa using hname) es a b)
      · rw [ht es rfl, hs es rfl, ht _ (hget a hname)]
        exact .refl _
      · rw [hs es rfl, ht es rfl, hs _ (hget b (Ne.symm hname))]
        exact .refl _
      · rw [hs es rfl, ht es rfl, hs es rfl]
        exact .refl _

/-- Writes at diverging paths may be made in either order. -/
theorem fill_comm (h : p.Diverges q) (x y v : Json) :
    Rearranged (fill y q (fill x p v)) (fill x p (fill y q v)) := by
  refine h.induction (motive := fun p q => ∀ v,
    Rearranged (fill y q (fill x p v)) (fill x p (fill y q v))) ?_ ?_ v
  · intro s t p q hst v
    cases hs : under? s v with
    | none =>
      have hs' : under? s (fill y (t :: q) v) = none := by
        cases ht : under? t v with
        | none => rwa [fill_of_under?_eq_none ht]
        | some inner => simp only [fill, ht, under?_putUnder_of_diverges hst.symm, hs]
      rw [fill_of_under?_eq_none hs, fill_of_under?_eq_none hs']
      exact .refl _
    | some inner => cases ht : under? t v with
      | none =>
        have ht' : under? t (fill x (s :: p) v) = none := by
          simp only [fill, hs, under?_putUnder_of_diverges hst, ht]
        rw [fill_of_under?_eq_none ht, fill_of_under?_eq_none ht']
        exact .refl _
      | some inner' =>
        simp only [fill, hs, ht, under?_putUnder_of_diverges hst,
          under?_putUnder_of_diverges hst.symm]
        exact putUnder_comm hst _ _ v
  · intro s p q hp hq ih v
    cases hs : under? s v with
    | none =>
      rw [fill_of_under?_eq_none hs, fill_of_under?_eq_none hs, fill_of_under?_eq_none hs]
      exact .refl _
    | some inner =>
      rw [fill_cons hs hp, fill_cons hs hq, fill_cons (under?_putUnder hs _) hq,
        fill_cons (under?_putUnder hs _) hp, vivified_fill, vivified_fill, putUnder_putUnder,
        putUnder_putUnder]
      exact (ih _).putUnder s v

theorem Decoded.fill_comm (h : v.Decoded) (hx : x.Decoded) (hy : y.Decoded) (hpq : p.Diverges q) :
    Alike (Json.fill y q (Json.fill x p v)) (Json.fill x p (Json.fill y q v)) :=
  (Json.fill_comm hpq x y v).alike ((h.fill hx p).fill hy q)

end Json
end NodeWorkflow
