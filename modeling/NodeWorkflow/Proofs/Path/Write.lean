import NodeWorkflow.Proofs.Path.Overrun

/-!
# Writes and places

A write that is done is done at the place of its path, and it leaves alone what stands apart from
that place. It is refused inside a list that is itself an item of a list, where no path leads on,
and not one step below a place at which there is room.
-/
namespace NodeWorkflow

theorem Path.steps_append (before after : Path) :
    (before ++ after).steps = before.steps ++ after.steps :=
  List.flatMap_append

theorem Segment.steps_eq_of_prefix {s : Segment} {place : Place} {i : Nat}
    (hlast : place.getLast? = some (.item i)) (h : place <+: s.steps) : s.steps = place := by
  obtain ⟨name, index⟩ := s
  cases index with
  | none =>
    rcases (by simpa [steps, List.prefix_cons_iff] using h :
      place = [] ∨ place = [.field (.str name)]) with rfl | rfl <;> simp at hlast
  | some index =>
    rcases (by simpa [steps, List.prefix_cons_iff] using h :
      place = [] ∨ ∃ below, place = .field (.str name) :: below ∧
        (below = [] ∨ below = [.item index])) with rfl | ⟨below, rfl, rfl | rfl⟩
    · simp at hlast
    · simp at hlast
    · rfl

/-- A place inside a path that ends with an item is the place of a part of the path. -/
theorem Path.exists_split_of_item {path : Path} {place : Place} {i : Nat}
    (hlast : place.getLast? = some (.item i)) (hinside : place <+: path.steps) :
    ∃ before after, path = before ++ after ∧ before.steps = place := by
  induction path generalizing place with
  | nil => simp [List.prefix_nil.mp hinside] at hlast
  | cons s rest ih =>
    rw [steps_cons] at hinside
    rcases List.prefix_or_prefix_of_prefix hinside (List.prefix_append _ _) with habove | ⟨below, rfl⟩
    · exact ⟨[s], rest, rfl, (List.append_nil _).trans (Segment.steps_eq_of_prefix hlast habove)⟩
    · rw [List.prefix_append_right_inj] at hinside
      cases hbelow : below.getLast? with
      | none =>
        obtain rfl := List.getLast?_eq_none_iff.mp hbelow
        exact ⟨[s], rest, rfl, rfl⟩
      | some step =>
        rw [List.getLast?_append, hbelow, Option.some_or] at hlast
        obtain ⟨before, after, rfl, rfl⟩ := ih (hbelow.trans hlast) hinside
        exact ⟨s :: before, after, rfl, rfl⟩

namespace Json

variable {v w value content : Json} {s : Segment} {rest path : Path} {place : Place}

/-- What is read at a path stands at its steps. -/
theorem at?_eq_atPlace? (path : Path) (v : Json) : v.at? path = atPlace? path.steps v := by
  induction path generalizing v with
  | nil => rfl
  | cons s rest ih =>
    have hfirst : v.at? [s] = atPlace? s.steps v := by
      obtain ⟨name, index⟩ := s
      cases v with
      | obj es => cases hget : Entries.get? (.str name) es with
        | none => cases index <;> simp [at?, field?, Segment.steps, atPlace?, child?, hget]
        | some child => cases index with
          | none => simp [at?, field?, Segment.steps, atPlace?, child?, hget]
          | some i => cases child with
            | list xs => cases hitem : xs[i]? <;>
                simp [at?, field?, Segment.steps, atPlace?, child?, hget, hitem]
            | _ => simp [at?, field?, Segment.steps, atPlace?, child?, hget]
      | _ => simp [at?, field?, Segment.steps, atPlace?, child?]
    rw [at?_cons, Path.steps_cons, atPlace?_append, hfirst]
    exact Option.bind_congr fun inner _ => ih inner

/-- A path fits as its rest fits what is read on the way. -/
theorem fits_append {before after : Path} {x : Json} (h : v.at? before = some x)
    (hx : x.isNull = false) (hafter : after ≠ []) : fits (before ++ after) v = fits after x := by
  induction before generalizing v with
  | nil =>
    obtain rfl := Option.some.inj h
    rfl
  | cons s rest ih =>
    obtain ⟨inner, hunder, hinner⟩ := under?_of_at? h
    have hnull : inner.isNull = false := by
      by_cases hrest : rest = []
      · subst hrest
        rwa [Option.some.inj hinner]
      · exact isNull_of_at? hinner hrest
    rw [List.cons_append, fits_cons hunder (by simp [hafter]), vivified_of_isNull hnull, ih hinner]

private theorem atPlace?_put {text name : String} {es : Entries Json} {x : Json}
    (h : atPlace? (.field (.str text) :: place) (.obj es) = some content)
    (hx : text = name → atPlace? place x = some content) :
    atPlace? (.field (.str text) :: place) (.obj (Entries.put (.str name) x es)) = some content := by
  rw [atPlace?_cons, child?, Entries.get?_put, Scalar.agrees_str]
  by_cases hname : name = text
  · simp [hname, hx hname.symm]
  · simpa [hname, atPlace?_cons, child?] using h

private theorem atPlace?_padded {name : String} {es : Entries Json} {xs : List Json}
    (hlist : listUnder? name es = some xs) (hplace : place ≠ [])
    (h : atPlace? (.field (.str name) :: place) (.obj es) = some content) (pad : List Json) :
    atPlace? place (.list (xs ++ pad)) = some content := by
  rw [atPlace?_cons] at h
  obtain ⟨child, hget, hcontent⟩ := Option.bind_eq_some_iff.mp h
  simp only [child?] at hget
  cases place with
  | nil => exact absurd rfl hplace
  | cons step place =>
    rw [atPlace?_cons] at hcontent
    obtain ⟨below, hbelow, hrest⟩ := Option.bind_eq_some_iff.mp hcontent
    cases child with
    | list ys =>
      obtain rfl : ys = xs := by simpa [listUnder?, hget] using hlist
      cases step with
      | field key => simp [child?] at hbelow
      | item j =>
        have hlt := (List.getElem?_eq_some_iff.mp hbelow).1
        rw [atPlace?_cons, child?, List.getElem?_append_left hlt]
        exact Option.bind_eq_some_iff.mpr ⟨below, hbelow, hrest⟩
    | scalar a => cases step <;> simp [child?] at hbelow
    | obj fs => simp [listUnder?, hget] at hlist

variable [Machine]

/-- What stands at a place that is not above the segment is still there when the segment is open. -/
theorem atPlace?_of_openAt (htexts : Texts place) (habove : ¬ place <+: s.steps)
    (h : atPlace? place v = some content)
    (hopen : openAt s v = .ready w ∨ ∃ fault, openAt s v = .stopped w fault) :
    atPlace? place w = some content := by
  obtain ⟨name, index⟩ := s
  cases v with
  | scalar a => simp [openAt] at hopen
  | list xs => simp [openAt] at hopen
  | obj es =>
    obtain ⟨text, below, rfl⟩ : ∃ text below, place = .field (.str text) :: below := by
      cases place with
      | nil => exact absurd List.nil_prefix habove
      | cons step below => cases step with
        | item i => simp [atPlace?_cons, child?] at h
        | field key =>
          obtain ⟨text, rfl⟩ := htexts.head rfl
          exact ⟨text, below, rfl⟩
    cases index with
    | none => cases hget : Entries.get? (.str name) es with
      | some x =>
        simp only [openAt, hget, reduceCtorEq, exists_false, or_false] at hopen
        rwa [← Opening.ready.inj hopen]
      | none =>
        simp only [openAt, hget, reduceCtorEq, exists_false, or_false] at hopen
        rw [← Opening.ready.inj hopen]
        refine atPlace?_put h fun hname => ?_
        simp [atPlace?_cons, child?, hname, hget] at h
    | some index =>
      -- Only a list under the name itself is replaced, and by one that is longer.
      have hbelow : text = name → below ≠ [] := by
        rintro rfl rfl
        exact habove (by simp [Segment.steps])
      have hlonger (xs pad : List Json) (hlist : listUnder? name es = some xs) (hname : text = name) :
          atPlace? below (.list (xs ++ pad)) = some content := by
        subst hname
        exact atPlace?_padded hlist (hbelow rfl) h pad
      cases hlist : listUnder? name es with
      | none => simp [openAt, hlist] at hopen
      | some xs => cases hpad : padTo xs index with
        | error fault =>
          simp only [openAt, hlist, hpad, reduceCtorEq, false_or, Opening.stopped.injEq] at hopen
          obtain ⟨-, rfl, -⟩ := hopen
          exact atPlace?_put h fun hname => by simpa using hlonger xs [] hlist hname
        | ok ys =>
          obtain ⟨-, rfl⟩ := padTo_eq_ok.mp hpad
          simp only [openAt, hlist, hpad, reduceCtorEq, exists_false, or_false] at hopen
          rw [← Opening.ready.inj hopen]
          exact atPlace?_put h (hlonger xs _ hlist)

theorem writeAt_of_ready (hopen : openAt s v = .ready w) (hrest : rest ≠ []) (value : Json) :
    writeAt value (s :: rest) v =
      (setPlace (writeAt value rest ((atPlace? s.steps w).getD .null).vivified).1 s.steps w,
        (writeAt value rest ((atPlace? s.steps w).getD .null).vivified).2) := by
  rw [writeAt_cons, hopen]
  simp [hrest]

/-- A write that is done is done at its place. -/
theorem atPlace?_writeAt (h : (writeAt value path v).2 = .done) :
    atPlace? path.steps (writeAt value path v).1 = some value := by
  have hwrite : writeAt value path v = _ := writeAt_eq (by simp [h])
  rw [hwrite] at h ⊢
  cases hfits : fits path v with
  | true => rw [← at?_eq_atPlace?, at?_fill hfits]
  | false => simp [hfits] at h

/-- A write leaves alone what stands apart from its place. -/
theorem atPlace?_writeAt_apart (htexts : Texts place) (hapart : Apart path.steps place)
    (h : atPlace? place v = some content) (value : Json) :
    atPlace? place (writeAt value path v).1 = some content := by
  induction path generalizing v place with
  | nil => exact absurd List.nil_prefix hapart.1
  | cons s rest ih =>
    rw [Path.steps_cons] at hapart
    have habove : ¬ place <+: s.steps := fun hp =>
      hapart.2 (hp.trans (List.prefix_append _ _))
    cases hopen : openAt s v with
    | refused => simpa [writeAt_cons, hopen] using h
    | stopped w fault =>
      simp only [writeAt_cons, hopen]
      exact atPlace?_of_openAt htexts habove h (.inr ⟨fault, hopen⟩)
    | ready w =>
      have hw := atPlace?_of_openAt htexts habove h (.inl hopen)
      by_cases hbelow : s.steps <+: place
      · obtain ⟨below, rfl⟩ := hbelow
        have hrest : rest ≠ [] := by
          rintro rfl
          exact hapart.1 (by simp [Path.steps])
        have hinside : Apart (Path.steps rest) below := by
          simpa [Apart, List.prefix_append_right_inj] using hapart
        have hbelow : below ≠ [] := fun hnil => hinside.2 (hnil ▸ List.nil_prefix)
        rw [atPlace?_append] at hw
        obtain ⟨inner, hinner, hcontent⟩ := Option.bind_eq_some_iff.mp hw
        rw [writeAt_of_ready hopen hrest, atPlace?_setPlace hinner, hinner, Option.getD_some,
          vivified_of_atPlace? hcontent hbelow]
        exact ih (fun key hkey => htexts key (List.mem_append_right _ hkey)) hinside hcontent
      · have hput (new : Json) : atPlace? place (setPlace new s.steps w) = some content := by
          rw [atPlace?_setPlace_apart htexts ⟨hbelow, habove⟩, hw]
        simp only [writeAt_cons, hopen]
        split
        · exact hput value
        · exact hput _

/-- A write to a place at which something stands is not stopped. -/
theorem writeAt_not_stopped (h : atPlace? path.steps v = some content) (value : Json)
    (fault : Fault) : (writeAt value path v).2 ≠ .stopped fault := by
  rw [← at?_eq_atPlace?] at h
  exact writeAt_ne_stopped_iff.mpr (overruns_of_at? h) fault

/-- A write that leads inside a list that is itself an item of a list is refused. -/
theorem writeAt_refused {xs : List Json} {i : Nat} (h : atPlace? place v = some (.list xs))
    (hlast : place.getLast? = some (.item i)) (hinside : place <+: path.steps)
    (hne : place ≠ path.steps) (value : Json) : (writeAt value path v).2 = .refused := by
  obtain ⟨before, after, rfl, rfl⟩ := Path.exists_split_of_item hlast hinside
  have hafter : after ≠ [] := by
    rintro rfl
    simp at hne
  rw [← at?_eq_atPlace?] at h
  rw [writeAt_refused_iff, fits_append h rfl hafter]
  obtain ⟨s, rest, rfl⟩ := List.exists_cons_of_ne_nil hafter
  exact fits_of_under?_eq_none (by simp [under?]) rest

/-- Whether a value has room for what is one step down. -/
def admits (v : Json) : Step → Prop
  | .field _ => ∃ es, v = .obj es
  | .item _ => ∃ xs, v = .list xs

theorem writeAt_ne_refused {step : Step} (h : atPlace? place v = some content)
    (hadmits : content.admits step) (hsteps : path.steps = place ++ [step]) (value : Json) :
    (writeAt value path v).2 ≠ .refused := by
  rw [Ne, writeAt_refused_iff, Bool.not_eq_false]
  rcases List.eq_nil_or_concat path with rfl | ⟨before, ⟨name, index⟩, rfl⟩
  · simp [Path.steps] at hsteps
  rw [List.concat_eq_append, Path.steps_append] at *
  cases index with
  | none =>
    obtain ⟨rfl, hstep⟩ := List.append_inj' hsteps rfl
    obtain rfl : Step.field (.str name) = step := by simpa [Path.steps] using hstep
    obtain ⟨es, rfl⟩ := hadmits
    rw [← at?_eq_atPlace?] at h
    rw [fits_append h rfl (by simp)]
    simp [fits, under?]
  | some i =>
    have hsplit : (Path.steps before ++ [.field (.str name)]) ++ [.item i] = place ++ [step] := by
      rw [List.append_assoc]
      exact hsteps
    obtain ⟨rfl, hstep⟩ := List.append_inj' hsplit rfl
    obtain rfl : Step.item i = step := by simpa using hstep
    obtain ⟨xs, rfl⟩ := hadmits
    rw [atPlace?_append, ← at?_eq_atPlace?] at h
    obtain ⟨x, hx, hlist⟩ := Option.bind_eq_some_iff.mp h
    cases x with
    | obj es =>
      have hget : Entries.get? (.str name) es = some (.list xs) := by
        simpa [atPlace?, child?] using hlist
      rw [fits_append hx rfl (by simp)]
      simp [fits, under?, listUnder?, hget]
    | _ => simp [atPlace?, child?] at hlist

end Json
end NodeWorkflow
