import NodeWorkflow.Path.Access
import NodeWorkflow.Proofs.Path.Places

/-!
# Writes apart from limits

Where no list gets too long, a write is a plain function of the data: it makes what is missing and
puts the value in, and at a path that does not fit the data it changes nothing.
-/
namespace NodeWorkflow.Json

variable {v w inner child value : Json} {xs ys : List Json} {s t : Segment} {p q rest : Path}

/-- A list with an item put at an index, padded with null up to there. -/
def putItem (xs : List Json) (index : Nat) (v : Json) : List Json :=
  (xs ++ List.replicate (index + 1 - xs.length) null).set index v

/-- What a write meets under a segment, null where nothing is; `none` where no write can go on. -/
def under? : Segment → Json → Option Json
  | ⟨name, none⟩, .obj es => some ((Entries.get? (.str name) es).getD .null)
  | ⟨name, some index⟩, .obj es => (listUnder? name es).map fun xs => xs[index]?.getD .null
  | _, _ => none

def putUnder (child : Json) : Segment → Json → Json
  | ⟨name, none⟩, .obj es => .obj (Entries.put (.str name) child es)
  | ⟨name, some index⟩, .obj es => match listUnder? name es with
    | some xs => .obj (Entries.put (.str name) (.list (putItem xs index child)) es)
    | none => .obj es
  | _, v => v

/-- Whether a write at a path finds objects and lists wherever it does not make them. -/
def fits : Path → Json → Bool
  | [], _ => false
  | s :: rest, v => match under? s v with
    | none => false
    | some inner => rest.isEmpty || fits rest inner.vivified

/-- The data after a write, where lists may be of any length. -/
def fill (value : Json) : Path → Json → Json
  | [], v => v
  | s :: rest, v => match under? s v with
    | none => v
    | some inner => putUnder (if rest.isEmpty then value else fill value rest inner.vivified) s v

theorem length_putItem (xs : List Json) (index : Nat) (v : Json) :
    (putItem xs index v).length = max xs.length (index + 1) := by
  simp only [putItem, List.length_set, List.length_append, List.length_replicate]
  omega

theorem getD_append_null (xs : List Json) (count i : Nat) :
    (xs ++ List.replicate count null)[i]?.getD .null = xs[i]?.getD .null := by
  by_cases hi : i < xs.length
  · rw [List.getElem?_append_left hi]
  · have hnone : xs[i]? = none := List.getElem?_eq_none (not_lt.mp hi)
    rw [List.getElem?_append_right (not_lt.mp hi), hnone, List.getElem?_replicate]
    split <;> rfl

theorem getElem?_putItem (xs : List Json) (index : Nat) (v : Json) :
    (putItem xs index v)[index]? = some v := by
  apply List.getElem?_set_self
  simp only [List.length_append, List.length_replicate]
  omega

theorem getD_putItem (xs : List Json) (index : Nat) (v : Json) (i : Nat) :
    (putItem xs index v)[i]?.getD .null = if i = index then v else xs[i]?.getD .null := by
  by_cases hi : i = index
  · simp [hi, getElem?_putItem]
  · rw [putItem, List.getElem?_set_ne (Ne.symm hi), getD_append_null, if_neg hi]

theorem eq_of_getD (hlength : xs.length = ys.length)
    (h : ∀ i : Nat, xs[i]?.getD .null = ys[i]?.getD .null) : xs = ys := by
  apply List.ext_getElem hlength
  intro i hi hi'
  simpa [hi, hi'] using h i

theorem putItem_getD {index : Nat} (h : index < xs.length) :
    putItem xs index (xs[index]?.getD .null) = xs := by
  apply eq_of_getD
  · rw [length_putItem]
    omega
  · intro i
    rw [getD_putItem]
    by_cases hi : i = index
    · rw [if_pos hi, hi]
    · rw [if_neg hi]

theorem putItem_self (xs : List Json) (i : Nat) (x y : Json) :
    putItem (putItem xs i x) i y = putItem xs i y := by
  apply eq_of_getD
  · simp only [length_putItem]
    omega
  · intro k
    simp only [getD_putItem]
    by_cases hi : k = i <;> simp [hi]

theorem listUnder?_put {name other : String} (es : Entries Json) (x : Json) :
    listUnder? other (Entries.put (.str name) x es) =
      if name = other then listUnder? name [(.str name, x)] else listUnder? other es := by
  by_cases h : name = other
  · subst h
    simp [listUnder?, Entries.get?_put, Entries.get?_cons]
  · simp [listUnder?, Entries.get?_put, h]

theorem listUnder?_put_list (name : String) (es : Entries Json) (xs : List Json) :
    listUnder? name (Entries.put (.str name) (.list xs) es) = some xs := by
  simp [listUnder?, Entries.get?_put]

/-- What was put under a segment is met there. -/
theorem under?_putUnder (h : under? s v = some inner) (child : Json) :
    under? s (putUnder child s v) = some child := by
  obtain ⟨name, index⟩ := s
  cases v with
  | obj es => cases index with
    | none => simp [under?, putUnder, Entries.get?_put]
    | some index =>
      obtain ⟨xs, hxs, -⟩ := Option.map_eq_some_iff.mp h
      simp [under?, putUnder, hxs, listUnder?_put_list, getD_putItem]
  | scalar a => simp [under?] at h
  | list xs => simp [under?] at h

theorem isNull_putUnder (h : under? s v = some inner) (child : Json) :
    (putUnder child s v).isNull = false := by
  obtain ⟨name, index⟩ := s
  cases v with
  | obj es => cases index with
    | none => rfl
    | some index =>
      obtain ⟨xs, hxs, -⟩ := Option.map_eq_some_iff.mp h
      simp only [putUnder, hxs]
      rfl
  | scalar a => simp [under?] at h
  | list xs => simp [under?] at h

theorem putUnder_self (h : under? s v = some inner) (hnull : inner.isNull = false) :
    putUnder inner s v = v := by
  obtain ⟨name, index⟩ := s
  cases v with
  | obj es => cases index with
    | none =>
      obtain rfl := Option.some.inj h
      cases hget : Entries.get? (.str name) es with
      | none => simp [hget, isNull] at hnull
      | some x => simp [putUnder, Entries.put_get? hget]
    | some index =>
      obtain ⟨xs, hxs, rfl⟩ := Option.map_eq_some_iff.mp h
      have hlt : index < xs.length := by
        by_contra hge
        simp [List.getElem?_eq_none (not_lt.mp hge), isNull] at hnull
      have hget : Entries.get? (.str name) es = some (.list xs) := by
        unfold listUnder? at hxs
        split at hxs
        · obtain rfl := Option.some.inj hxs
          simp at hlt
        · obtain rfl := Option.some.inj hxs
          simp at hlt
        next ys hys => rw [hys, Option.some.inj hxs]
        · simp at hxs
      simp only [putUnder, hxs, putItem_getD hlt, Entries.put_get? hget]
  | scalar a => simp [under?] at h
  | list xs => simp [under?] at h

theorem putUnder_putUnder (s : Segment) (x y v : Json) :
    putUnder y s (putUnder x s v) = putUnder y s v := by
  obtain ⟨name, index⟩ := s
  cases v with
  | scalar a => simp [putUnder]
  | list xs => simp [putUnder]
  | obj es => cases index with
    | none => simp [putUnder, Entries.put_put]
    | some i => cases hxs : listUnder? name es with
      | none => simp [putUnder, hxs]
      | some xs => simp [putUnder, hxs, listUnder?_put_list, Entries.put_put, putItem_self]

theorem isNull_vivified (v : Json) : v.vivified.isNull = false := by
  unfold vivified
  split
  · rfl
  next h => simpa using h

theorem vivified_of_isNull (h : v.isNull = false) : v.vivified = v := by
  simp [vivified, h]

theorem fill_cons (hunder : under? s v = some inner) (hrest : rest ≠ []) (value : Json) :
    fill value (s :: rest) v = putUnder (fill value rest inner.vivified) s v := by
  simp [fill, hunder, hrest]

theorem fits_cons (hunder : under? s v = some inner) (hrest : rest ≠ []) :
    fits (s :: rest) v = fits rest inner.vivified := by
  simp [fits, hunder, hrest]

theorem fill_single (hunder : under? s v = some inner) (value : Json) :
    fill value [s] v = putUnder value s v := by
  simp [fill, hunder]

theorem fill_of_under?_eq_none (h : under? s v = none) (value : Json) (rest : Path) :
    fill value (s :: rest) v = v := by
  simp [fill, h]

theorem fits_of_under?_eq_none (h : under? s v = none) (rest : Path) :
    fits (s :: rest) v = false := by
  simp [fits, h]

theorem fits_empty (hp : p ≠ []) : fits p (.obj []) = true := by
  induction p with
  | nil => exact absurd rfl hp
  | cons s rest ih =>
    have hunder : under? s (.obj []) = some .null := by
      obtain ⟨name, index⟩ := s
      cases index <;> rfl
    by_cases hrest : rest = []
    · simp [fits, hunder, hrest]
    · rw [fits_cons hunder hrest]
      exact ih hrest

theorem isNull_of_not_fits (h : fits p v.vivified = false) (hp : p ≠ []) : v.isNull = false := by
  cases hnull : v.isNull with
  | false => rfl
  | true => simp [vivified, hnull, fits_empty hp] at h

/-- A write at a path that does not fit changes nothing. -/
theorem fill_of_not_fits (h : fits p v = false) (value : Json) : fill value p v = v := by
  induction p generalizing v with
  | nil => rfl
  | cons s rest ih =>
    cases hunder : under? s v with
    | none => exact fill_of_under?_eq_none hunder value rest
    | some inner =>
      by_cases hrest : rest = []
      · simp [fits, hunder, hrest] at h
      · rw [fits_cons hunder hrest] at h
        have hnull := isNull_of_not_fits h hrest
        rw [fill_cons hunder hrest, ih h, vivified_of_isNull hnull, putUnder_self hunder hnull]

theorem isNull_fill (h : v.isNull = false) (value : Json) (p : Path) :
    (fill value p v).isNull = false := by
  cases p with
  | nil => exact h
  | cons s rest => cases hunder : under? s v with
    | none => rwa [fill_of_under?_eq_none hunder]
    | some inner =>
      simp only [fill, hunder]
      exact isNull_putUnder hunder _

theorem vivified_fill (inner value : Json) (rest : Path) :
    (fill value rest inner.vivified).vivified = fill value rest inner.vivified :=
  vivified_of_isNull (isNull_fill (isNull_vivified inner) value rest)

theorem isObj_of_under? (h : under? s v = some inner) : v.isObj = true := by
  cases v <;> simp_all [under?, isObj]

theorem isObj_putUnder (child : Json) (s : Segment) (v : Json) :
    (putUnder child s v).isObj = v.isObj := by
  obtain ⟨name, index⟩ := s
  cases v with
  | obj es => cases index with
    | none => rfl
    | some i => cases hxs : listUnder? name es <;> simp [putUnder, hxs, isObj]
  | scalar a => simp [putUnder]
  | list xs => simp [putUnder]

theorem isObj_of_fits (h : fits p v = true) : v.isObj = true := by
  cases p with
  | nil => simp [fits] at h
  | cons s rest => cases hunder : under? s v with
    | none => simp [fits_of_under?_eq_none hunder] at h
    | some inner => exact isObj_of_under? hunder

theorem isObj_fill (value : Json) (p : Path) (v : Json) : (fill value p v).isObj = v.isObj := by
  cases p with
  | nil => rfl
  | cons s rest => cases hunder : under? s v with
    | none => rw [fill_of_under?_eq_none hunder]
    | some inner => simp only [fill, hunder, isObj_putUnder]

theorem field?_putUnder {name : String} (h : s.name ≠ name) (child v : Json) :
    (putUnder child s v).field? name = v.field? name := by
  obtain ⟨other, index⟩ := s
  cases v with
  | obj es => cases index with
    | none => simp_all [putUnder, field?, Entries.get?_put]
    | some i => cases hxs : listUnder? other es <;> simp_all [putUnder, field?, Entries.get?_put]
  | scalar a => simp [putUnder]
  | list xs => simp [putUnder]

theorem field?_fill {name : String} (h : s.name ≠ name) (value : Json) (rest : Path) (v : Json) :
    (fill value (s :: rest) v).field? name = v.field? name := by
  cases hunder : under? s v with
  | none => rw [fill_of_under?_eq_none hunder]
  | some inner => simp only [fill, hunder, field?_putUnder h]

theorem at?_putUnder (h : under? s v = some inner) (child : Json) (rest : Path) :
    (putUnder child s v).at? (s :: rest) = child.at? rest := by
  obtain ⟨name, index⟩ := s
  cases v with
  | obj es => cases index with
    | none => simp [putUnder, at?, field?, Entries.get?_put]
    | some index =>
      obtain ⟨xs, hxs, -⟩ := Option.map_eq_some_iff.mp h
      simp [putUnder, hxs, at?, field?, Entries.get?_put, getElem?_putItem]
  | scalar a => simp [under?] at h
  | list xs => simp [under?] at h

theorem at?_cons (s : Segment) (rest : Path) (v : Json) :
    v.at? (s :: rest) = (v.at? [s]).bind (at? rest) := by
  obtain ⟨name, index⟩ := s
  cases hchild : v.field? name with
  | none => simp [at?, hchild]
  | some child => cases index with
    | none => simp [at?, hchild]
    | some i => cases child with
      | list xs => cases hitem : xs[i]? <;> simp [at?, hchild, hitem]
      | _ => simp [at?, hchild]

/-- What is met under a segment is read there, unless it is made on the way. -/
theorem at?_of_under? (h : under? s v = some inner) (hnull : inner.isNull = false) :
    v.at? [s] = some inner := by
  have hread := at?_putUnder h inner []
  rw [putUnder_self h hnull] at hread
  exact hread

theorem under?_of_at? (h : v.at? (s :: rest) = some value) :
    ∃ inner, under? s v = some inner ∧ inner.at? rest = some value := by
  obtain ⟨name, index⟩ := s
  cases v with
  | obj es =>
    simp only [at?, field?] at h
    split at h
    next child hchild => exact ⟨child, by simp [under?, hchild], h⟩
    next xs i hxs =>
      split at h
      next item hitem => exact ⟨item, by simp [under?, listUnder?, hxs, hitem], h⟩
      next => simp at h
    next => simp at h
  | scalar a => simp [at?, field?] at h
  | list xs => simp [at?, field?] at h

/-- What a write put at a path is read there. -/
theorem at?_fill (h : fits p v = true) (value : Json) : (fill value p v).at? p = some value := by
  induction p generalizing v with
  | nil => simp [fits] at h
  | cons s rest ih => cases hunder : under? s v with
    | none => simp [fits_of_under?_eq_none hunder] at h
    | some inner =>
      by_cases hrest : rest = []
      · rw [hrest, fill_single hunder, at?_putUnder hunder]
        rfl
      · rw [fits_cons hunder hrest] at h
        rw [fill_cons hunder hrest, at?_putUnder hunder, ih h]

theorem isNull_of_at? (h : v.at? p = some value) (hp : p ≠ []) : v.isNull = false := by
  obtain ⟨s, rest, rfl⟩ := List.exists_cons_of_ne_nil hp
  obtain ⟨inner, hunder, -⟩ := under?_of_at? h
  cases v with
  | obj es => rfl
  | scalar a => simp [under?] at hunder
  | list xs => rfl

theorem fits_of_at? (h : v.at? p = some value) (hp : p ≠ []) : fits p v = true := by
  induction p generalizing v with
  | nil => exact absurd rfl hp
  | cons s rest ih =>
    obtain ⟨inner, hunder, hinner⟩ := under?_of_at? h
    by_cases hrest : rest = []
    · simp [fits, hunder, hrest]
    · rw [fits_cons hunder hrest, vivified_of_isNull (isNull_of_at? hinner hrest)]
      exact ih hinner hrest

theorem putUnder_of_at? (h : v.at? [s] = some value) : putUnder value s v = v := by
  obtain ⟨name, index⟩ := s
  cases v with
  | scalar a => simp [putUnder]
  | list xs => simp [putUnder]
  | obj es =>
    simp only [at?, field?] at h
    split at h
    next child hchild =>
      obtain rfl := Option.some.inj h
      simp [putUnder, Entries.put_get? hchild]
    next xs i hxs =>
      split at h
      next item hitem =>
        obtain rfl := Option.some.inj h
        have hlt := (List.getElem?_eq_some_iff.mp hitem).1
        have hput : putItem xs i item = xs := by simpa [hitem] using putItem_getD hlt
        simp [putUnder, listUnder?, hxs, hput, Entries.put_get? hxs]
      next => simp at h
    next => simp at h

/-- A write of what is read at a path changes nothing. -/
theorem fill_of_at? (h : v.at? p = some value) : fill value p v = v := by
  induction p generalizing v with
  | nil => rfl
  | cons s rest ih =>
    obtain ⟨inner, hunder, hinner⟩ := under?_of_at? h
    by_cases hrest : rest = []
    · subst hrest
      rw [fill_single hunder, putUnder_of_at? h]
    · have hnull := isNull_of_at? hinner hrest
      rw [fill_cons hunder hrest, vivified_of_isNull hnull, ih hinner, putUnder_self hunder hnull]

/-- Of two writes at one path the second counts. -/
theorem fill_fill (x y : Json) (p : Path) (v : Json) : fill y p (fill x p v) = fill y p v := by
  induction p generalizing v with
  | nil => rfl
  | cons s rest ih => cases hunder : under? s v with
    | none => rw [fill_of_under?_eq_none hunder]
    | some inner =>
      by_cases hrest : rest = []
      · rw [hrest, fill_single hunder, fill_single (under?_putUnder hunder x), fill_single hunder,
          putUnder_putUnder]
      · rw [fill_cons hunder hrest, fill_cons (under?_putUnder hunder _) hrest, vivified_fill, ih,
          fill_cons hunder hrest, putUnder_putUnder]

end NodeWorkflow.Json
