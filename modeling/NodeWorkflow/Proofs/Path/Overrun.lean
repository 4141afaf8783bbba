import NodeWorkflow.Proofs.Path.Fill

/-!
# How a write ends

A write is stopped by a list that lacks more items than memory holds, or by an index with more
digits than can be read. Where there is no such list and no such index, it is done if its path fits
the data, and refused if not. All this is read off from what a write does at the first segment of
its path.
-/
namespace NodeWorkflow

def Fault.IsLimit : Fault → Prop
  | .path (.indexTooLong _) | .listTooLong | .outOfMemory => True
  | _ => False

namespace Json

variable {v w inner value path : Json} {xs : List Json} {index : Nat} {s : Segment} {p rest : Path}

/-- How many items the list under a segment lacks for its index. -/
def shortage : Segment → Json → Nat
  | ⟨name, some index⟩, .obj es => match listUnder? name es with
    | some xs => index + 1 - xs.length
    | none => 0
  | _, _ => 0

theorem shortage_of_at? {x : Json} (h : v.at? [s] = some x) : shortage s v = 0 := by
  obtain ⟨name, index⟩ := s
  cases v with
  | scalar a => simp [shortage]
  | list xs => simp [shortage]
  | obj es =>
    simp only [at?, field?] at h
    split at h
    · rfl
    next xs i hxs =>
      split at h
      next item hitem =>
        have hlt := (List.getElem?_eq_some_iff.mp hitem).1
        simp only [shortage, listUnder?, hxs]
        omega
      next => simp at h
    next => simp at h

private theorem put_str_put {α : Type} (name : String) (es : Entries α) (a b : α) :
    Entries.put (.str name) b (Entries.put (.str name) a es) = Entries.put (.str name) b es :=
  Entries.put_put (by simp) es a b

private theorem get?_put_str {α : Type} (name : String) (es : Entries α) (a : α) :
    Entries.get? (.str name) (Entries.put (.str name) a es) = some a := by
  rw [Entries.get?_put, Scalar.agrees_str, if_pos (by simp)]

variable [Machine]

/-- What stands under a segment before a write goes on. -/
inductive Opening where
  | refused
  | stopped (v : Json) (fault : Fault)
  /-- The data in which something stands at the steps of the segment. -/
  | ready (v : Json)

/-- Makes what a segment lacks: null under a name, or a list that is long enough. -/
def openAt : Segment → Json → Opening
  | ⟨name, none⟩, .obj es => match Entries.get? (.str name) es with
    | some _ => .ready (.obj es)
    | none => .ready (.obj (Entries.put (.str name) .null es))
  | ⟨name, some index⟩, .obj es => match listUnder? name es with
    | none => .refused
    | some xs => match padTo xs index with
      | .error fault => .stopped (.obj (Entries.put (.str name) (.list xs) es)) fault
      | .ok xs => .ready (.obj (Entries.put (.str name) (.list xs) es))
  | _, _ => .refused

/-- Whether a write at a path comes to a list that lacks too many items. -/
def overruns : Path → Json → Bool
  | [], _ => false
  | s :: rest, v => match under? s v with
    | none => false
    | some inner => Machine.memoryBound ≤ shortage s v || !rest.isEmpty && overruns rest inner.vivified

def blocks (path v : Json) : Bool :=
  match Path.ofJson path with
  | .ok p => overruns p v
  | .error (.indexTooLong _) => true
  | .error _ => false

/-- A list is padded if what it lacks has room in memory. -/
theorem padTo_eq_ok {ys : List Json} : padTo xs index = .ok ys ↔
    index + 1 - xs.length < Machine.memoryBound ∧
      ys = xs ++ List.replicate (index + 1 - xs.length) .null := by
  have hbounds := Machine.memoryBound_le_addressBound
  unfold padTo
  dsimp only
  split
  next haddress => simp [(hbounds.trans haddress).not_gt]
  next =>
    split
    next hmemory => simp [hmemory.not_gt]
    next hmemory => simp [not_le.mp hmemory, eq_comm]

theorem padTo_eq_error (h : Machine.memoryBound ≤ index + 1 - xs.length) :
    ∃ fault, padTo xs index = .error fault ∧ fault.IsLimit := by
  by_cases haddress : addressBound ≤ index + 1 - xs.length
  · exact ⟨.listTooLong, by simp only [padTo, if_pos haddress], trivial⟩
  · exact ⟨.outOfMemory, by simp only [padTo, if_neg haddress, if_pos h], trivial⟩

private theorem lt_length_of_padTo {ys : List Json} (h : padTo xs index = .ok ys) :
    index < ys.length := by
  obtain ⟨-, rfl⟩ := padTo_eq_ok.mp h
  rw [List.length_append, List.length_replicate]
  omega

/-- A write in terms of what its first segment opens. -/
theorem writeAt_cons (value : Json) (s : Segment) (rest : Path) (v : Json) :
    writeAt value (s :: rest) v = match openAt s v with
      | .refused => (v, .refused)
      | .stopped w fault => (w, .stopped fault)
      | .ready w =>
        if rest.isEmpty then (setPlace value s.steps w, .done)
        else
          let (child, outcome) := writeAt value rest ((atPlace? s.steps w).getD .null).vivified
          (setPlace child s.steps w, outcome) := by
  obtain ⟨name, index⟩ := s
  cases v with
  | obj es => cases index with
    | none =>
      cases hget : Entries.get? (.str name) es with
      | some x =>
        simp [writeAt, openAt, hget, Segment.steps, setPlace, child?, setChild, atPlace?]
      | none =>
        simp [writeAt, openAt, hget, Segment.steps, setPlace, child?, setChild, atPlace?,
          get?_put_str, put_str_put]
    | some index =>
      cases hlist : listUnder? name es with
      | none => simp [writeAt, openAt, hlist]
      | some xs =>
        cases hpad : padTo xs index with
        | error fault => simp [writeAt, openAt, hlist, hpad]
        | ok ys =>
          have hlt := lt_length_of_padTo hpad
          simp [writeAt, openAt, hlist, hpad, Segment.steps, setPlace, child?, setChild, atPlace?,
            get?_put_str, put_str_put, hlt]
  | scalar a => simp [writeAt, openAt]
  | list xs => simp [writeAt, openAt]

theorem openAt_of_under?_eq_none (h : under? s v = none) : openAt s v = .refused := by
  obtain ⟨name, index⟩ := s
  cases v with
  | scalar a => simp [openAt]
  | list xs => simp [openAt]
  | obj es => cases index with
    | none => simp [under?] at h
    | some index =>
      have hlist : listUnder? name es = none := by simpa [under?] using h
      simp [openAt, hlist]

theorem openAt_of_shortage (h : Machine.memoryBound ≤ shortage s v) :
    ∃ w fault, openAt s v = .stopped w fault ∧ fault.IsLimit := by
  unfold shortage at h
  split at h
  next name index es =>
    split at h
    next xs hlist =>
      obtain ⟨fault, hpad, hlimit⟩ := padTo_eq_error h
      exact ⟨.obj (Entries.put (.str name) (.list xs) es), fault, by simp [openAt, hlist, hpad], hlimit⟩
    next => exact absurd h (not_le.mpr Machine.memoryBound_pos)
  next => exact absurd h (not_le.mpr Machine.memoryBound_pos)

/-- Under a segment that has room stands what is met there, and what is put in its place is put
under the segment. -/
theorem openAt_of_room (hunder : under? s v = some inner)
    (hroom : shortage s v < Machine.memoryBound) :
    ∃ w, openAt s v = .ready w ∧ atPlace? s.steps w = some inner ∧
      ∀ child, setPlace child s.steps w = putUnder child s v := by
  obtain ⟨name, index⟩ := s
  cases v with
  | scalar a => simp [under?] at hunder
  | list xs => simp [under?] at hunder
  | obj es => cases index with
    | none =>
      obtain rfl := Option.some.inj hunder
      cases hget : Entries.get? (.str name) es with
      | some x =>
        refine ⟨.obj es, by simp [openAt, hget], ?_, fun child => ?_⟩
        · simp [Segment.steps, atPlace?, child?, hget]
        · simp [Segment.steps, setPlace, child?, setChild, hget, putUnder]
      | none =>
        refine ⟨.obj (Entries.put (.str name) .null es), by simp [openAt, hget], ?_, fun child => ?_⟩
        · simp [Segment.steps, atPlace?, child?, get?_put_str]
        · simp [Segment.steps, setPlace, child?, setChild, get?_put_str, put_str_put, putUnder]
    | some index =>
      obtain ⟨xs, hlist, rfl⟩ := Option.map_eq_some_iff.mp hunder
      have hshort : shortage ⟨name, some index⟩ (.obj es) = index + 1 - xs.length := by
        simp [shortage, hlist]
      rw [hshort] at hroom
      have hpad := padTo_eq_ok.mpr ⟨hroom, rfl⟩
      have hlt := lt_length_of_padTo hpad
      have hitem := List.getElem?_eq_getElem hlt
      refine ⟨.obj (Entries.put (.str name) (.list (xs ++ List.replicate (index + 1 - xs.length) .null)) es),
        by simp only [openAt, hlist, hpad], ?_, fun child => ?_⟩
      · simp only [Segment.steps, atPlace?, child?, get?_put_str, Option.bind_some, hitem]
        rw [← getD_append_null xs (index + 1 - xs.length) index, hitem, Option.getD_some]
      · simp only [Segment.steps, setPlace, child?, setChild, get?_put_str, put_str_put, hitem, putUnder,
          hlist, putItem]

theorem overruns_cons_eq_false_iff (hunder : under? s v = some inner) :
    overruns (s :: rest) v = false ↔
      shortage s v < Machine.memoryBound ∧ (rest = [] ∨ overruns rest inner.vivified = false) := by
  simp only [overruns, hunder, Bool.or_eq_false_iff, Bool.and_eq_false_iff, decide_eq_false_iff_not,
    not_le, Bool.not_eq_false', List.isEmpty_iff]

/-- A write that does not overrun is done if the path fits and refused if not. -/
theorem writeAt_of_not_overruns (h : overruns p v = false) (value : Json) :
    writeAt value p v = (fill value p v, if fits p v then .done else .refused) := by
  induction p generalizing v with
  | nil => rfl
  | cons s rest ih =>
    rw [writeAt_cons]
    cases hunder : under? s v with
    | none =>
      rw [openAt_of_under?_eq_none hunder, fill_of_under?_eq_none hunder,
        fits_of_under?_eq_none hunder]
      rfl
    | some inner =>
      rw [overruns_cons_eq_false_iff hunder] at h
      obtain ⟨w, hopen, hinner, hput⟩ := openAt_of_room hunder h.1
      by_cases hrest : rest = []
      · simp [hopen, hrest, hput, fill_single hunder, fits, hunder]
      · have hbelow := ih (h.2.resolve_left hrest)
        simp [hopen, hrest, hinner, hput, hbelow, fill_cons hunder hrest, fits_cons hunder hrest]

theorem writeAt_of_overruns (h : overruns p v = true) (value : Json) :
    ∃ fault, (writeAt value p v).2 = .stopped fault ∧ fault.IsLimit := by
  induction p generalizing v with
  | nil => simp [overruns] at h
  | cons s rest ih =>
    rw [writeAt_cons]
    cases hunder : under? s v with
    | none => simp [overruns, hunder] at h
    | some inner =>
      by_cases hlong : Machine.memoryBound ≤ shortage s v
      · obtain ⟨w, fault, hopen, hlimit⟩ := openAt_of_shortage hlong
        exact ⟨fault, by rw [hopen], hlimit⟩
      · obtain ⟨hrest, hbelow⟩ : rest ≠ [] ∧ overruns rest inner.vivified = true := by
          simpa [overruns, hunder, hlong] using h
        obtain ⟨w, hopen, hinner, -⟩ := openAt_of_room hunder (not_le.mp hlong)
        simpa [hopen, hrest, hinner] using ih hbelow

/-- A write is not stopped if and only if it does not overrun. -/
theorem writeAt_ne_stopped_iff :
    (∀ fault, (writeAt value p v).2 ≠ .stopped fault) ↔ overruns p v = false := by
  constructor
  · intro h
    rw [← Bool.not_eq_true]
    intro hoverruns
    obtain ⟨fault, hstopped, -⟩ := writeAt_of_overruns hoverruns value
    exact h fault hstopped
  · intro h fault
    rw [writeAt_of_not_overruns h]
    split <;> simp

theorem overruns_of_at? {x : Json} (h : v.at? p = some x) : overruns p v = false := by
  induction p generalizing v with
  | nil => rfl
  | cons s rest ih =>
    obtain ⟨inner, hunder, hinner⟩ := under?_of_at? h
    rw [at?_cons] at h
    obtain ⟨read, hread, -⟩ := Option.bind_eq_some_iff.mp h
    rw [overruns_cons_eq_false_iff hunder, shortage_of_at? hread]
    refine ⟨Machine.memoryBound_pos, or_iff_not_imp_left.mpr fun hrest => ?_⟩
    rw [vivified_of_isNull (isNull_of_at? hinner hrest), ih hinner]

/-- A write at a path that does not fit is refused before it comes to what it would have to make. -/
theorem overruns_of_not_fits (h : fits p v = false) : overruns p v = false := by
  induction p generalizing v with
  | nil => rfl
  | cons s rest ih => cases hunder : under? s v with
    | none => simp [overruns, hunder]
    | some inner =>
      by_cases hrest : rest = []
      · simp [fits, hunder, hrest] at h
      · rw [fits_cons hunder hrest] at h
        have hread := at?_of_under? hunder (isNull_of_not_fits h hrest)
        rw [overruns_cons_eq_false_iff hunder, shortage_of_at? hread]
        exact ⟨Machine.memoryBound_pos, .inr (ih h)⟩

theorem writeAt_eq (h : ∀ fault, (writeAt value p v).2 ≠ .stopped fault) :
    writeAt value p v = (fill value p v, if fits p v then .done else .refused) :=
  writeAt_of_not_overruns (writeAt_ne_stopped_iff.mp h) value

theorem writeAt_refused_iff : (writeAt value p v).2 = .refused ↔ fits p v = false := by
  constructor
  · intro h
    rw [writeAt_eq (by simp [h])] at h
    cases hfits : fits p v with
    | false => rfl
    | true => simp [hfits] at h
  · intro h
    rw [writeAt_of_not_overruns (overruns_of_not_fits h), h]
    rfl

/-- A write that is not stopped puts the value at a path that fits, or changes nothing. -/
theorem setByPath_cases (h : ∀ fault, (setByPath v path value).2 ≠ .stopped fault) :
    (∃ p, Path.ofJson path = .ok p ∧ fits p v = true ∧
      setByPath v path value = (fill value p v, .done)) ∨
    (∀ p, Path.ofJson path = .ok p → fits p v = false) ∧
      setByPath v path value = (v, .refused) := by
  unfold setByPath at h ⊢
  cases hpath : Path.ofJson path with
  | ok p =>
    simp only [hpath] at h
    simp only [writeAt_eq h]
    cases hfits : fits p v with
    | true => exact .inl ⟨p, rfl, hfits, rfl⟩
    | false => exact .inr ⟨fun q hq => by rw [← Except.ok.inj hq, hfits], by
        simp [fill_of_not_fits hfits]⟩
  | error cause => cases cause with
    | indexTooLong digits => exact absurd (by simp [hpath]) (h (.path (.indexTooLong digits)))
    | noText => exact .inr ⟨by simp, rfl⟩
    | badSegment segment text => exact .inr ⟨by simp, rfl⟩

theorem setByPath_blocked (h : blocks path v = true) (value : Json) :
    ∃ fault, (setByPath v path value).2 = .stopped fault ∧ fault.IsLimit := by
  unfold blocks at h
  unfold setByPath
  cases hpath : Path.ofJson path with
  | ok p =>
    rw [hpath] at h
    exact writeAt_of_overruns h value
  | error cause => cases cause with
    | indexTooLong digits => exact ⟨.path (.indexTooLong digits), rfl, trivial⟩
    | _ => simp [hpath] at h

theorem setByPath_not_blocked (h : blocks path v = false) (value : Json) (fault : Fault) :
    (setByPath v path value).2 ≠ .stopped fault := by
  unfold blocks at h
  unfold setByPath
  cases hpath : Path.ofJson path with
  | ok p =>
    rw [hpath] at h
    exact writeAt_ne_stopped_iff.mpr h fault
  | error cause => cases cause with
    | indexTooLong digits => simp [hpath] at h
    | _ => simp

theorem overruns_of_small (h : ∀ s ∈ p, ∀ i, s.index = some i → i + 1 < Machine.memoryBound)
    (v : Json) : overruns p v = false := by
  induction p generalizing v with
  | nil => rfl
  | cons s rest ih =>
    obtain ⟨hs, hrest⟩ := List.forall_mem_cons.mp h
    have hshort : ¬ Machine.memoryBound ≤ shortage s v := by
      unfold shortage
      split
      next index es =>
        have hindex := hs index rfl
        split <;> omega
      next => exact not_le.mpr Machine.memoryBound_pos
    unfold overruns
    split
    · rfl
    next inner _ => simp [hshort, ih hrest inner.vivified]

end Json
end NodeWorkflow
