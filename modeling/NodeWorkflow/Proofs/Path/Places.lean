import NodeWorkflow.Proofs.Json.Entries
import NodeWorkflow.Path.Access
import NodeWorkflow.Sharing.Place

/-!
# Laws of places

What stands at a place after something was put there, above it or elsewhere. A place that is read
has texts for its keys; such a key agrees with no other.
-/
namespace NodeWorkflow

theorem Entries.put_get? {α : Type} {key : Scalar} {es : Entries α} {v : α}
    (h : Entries.get? key es = some v) : Entries.put key v es = es := by
  induction es with
  | nil => simp at h
  | cons e es ih =>
    obtain ⟨k, w⟩ := e
    rw [Entries.get?_cons] at h
    rw [Entries.put]
    split at h
    next hk => rw [if_pos hk, Option.some.inj h]
    next hk => rw [if_neg hk, ih h]

theorem Entries.put_put {α : Type} {key : Scalar} (hkey : key.agrees key = true) (es : Entries α)
    (v w : α) : Entries.put key w (Entries.put key v es) = Entries.put key w es := by
  induction es with
  | nil => simp [Entries.put, hkey]
  | cons e es ih =>
    obtain ⟨k, x⟩ := e
    by_cases hk : k.agrees key = true
    · simp [Entries.put, hk]
    · simp [Entries.put, hk, ih]

theorem Entries.agrees_of_get? {α : Type} {key : Scalar} {es : Entries α} {v : α}
    (h : Entries.get? key es = some v) : key.agrees key = true := by
  obtain ⟨k, -, hk⟩ := Entries.exists_of_get? h
  exact Scalar.agrees_trans (Scalar.agrees_symm hk) hk

/-- Neither place lies above the other, and they are not the same. -/
def Apart (a b : Place) : Prop := ¬ a <+: b ∧ ¬ b <+: a

def Texts (place : Place) : Prop := ∀ key, Step.field key ∈ place → ∃ s, key = .str s

theorem Texts.head {step : Step} {place : Place} (h : Texts (step :: place)) {key : Scalar}
    (hstep : step = .field key) : ∃ s, key = .str s :=
  h key (hstep ▸ List.mem_cons_self)

theorem Texts.tail {step : Step} {place : Place} (h : Texts (step :: place)) : Texts place :=
  fun key hkey => h key (List.mem_cons_of_mem _ hkey)

def Segment.steps (s : Segment) : Place :=
  .field (.str s.name) :: match s.index with
    | none => []
    | some i => [.item i]

theorem Path.steps_cons (s : Segment) (rest : Path) :
    Path.steps (s :: rest) = s.steps ++ rest.steps := by
  rfl

namespace Json

variable {v child content : Json} {step other : Step} {place written : Place}

theorem child?_setChild (h : v.child? step = some content) (child : Json) :
    (v.setChild child step).child? step = some child := by
  cases step with
  | field key => cases v with
    | obj es =>
      have hkey := Entries.agrees_of_get? h
      simp only [setChild, child?, Entries.get?_put, if_pos hkey]
    | _ => simp [child?] at h
  | item index => cases v with
    | list xs =>
      have hlt := (List.getElem?_eq_some_iff.mp h).1
      simp only [setChild, child?, List.getElem?_set_self hlt]
    | _ => simp [child?] at h

theorem child?_setChild_ne (htext : ∀ key, other = .field key → ∃ s, key = .str s)
    (hne : step ≠ other) (v child : Json) : (v.setChild child step).child? other = v.child? other := by
  cases step with
  | field key => cases v with
    | obj es => cases other with
      | item index => rfl
      | field k =>
        obtain ⟨s, rfl⟩ := htext k rfl
        have hagrees : ¬ key.agrees (.str s) = true := by
          rw [Scalar.agrees_str_iff]
          rintro rfl
          exact hne rfl
        simp only [setChild, child?, Entries.get?_put, if_neg hagrees]
    | _ => rfl
  | item index => cases v with
    | list xs => cases other with
      | field k => rfl
      | item i =>
        have hi : index ≠ i := fun heq => hne (heq ▸ rfl)
        simp only [setChild, child?, List.getElem?_set_ne hi]
    | _ => rfl

theorem setChild_child? (h : v.child? step = some child) : v.setChild child step = v := by
  cases step with
  | field key => cases v with
    | obj es => rw [setChild, Entries.put_get? h]
    | _ => simp [child?] at h
  | item index => cases v with
    | list xs =>
      obtain ⟨hlt, rfl⟩ := List.getElem?_eq_some_iff.mp h
      simp [setChild]
    | _ => simp [child?] at h

theorem atPlace?_cons (step : Step) (rest : Place) (v : Json) :
    atPlace? (step :: rest) v = (v.child? step).bind (atPlace? rest) := rfl

theorem atPlace?_append (place rest : Place) (v : Json) :
    atPlace? (place ++ rest) v = (atPlace? place v).bind (atPlace? rest) := by
  induction place generalizing v with
  | nil => rfl
  | cons step place ih =>
    rw [List.cons_append, atPlace?_cons, atPlace?_cons]
    cases v.child? step with
    | none => rfl
    | some child => exact ih child

/-- Below a place at which a value was put stands what stands in the value. -/
theorem atPlace?_setPlace (h : atPlace? place v = some content) (new : Json) (rest : Place) :
    atPlace? (place ++ rest) (setPlace new place v) = atPlace? rest new := by
  induction place generalizing v with
  | nil => rfl
  | cons step place ih =>
    rw [atPlace?_cons] at h
    obtain ⟨child, hchild, hcontent⟩ := Option.bind_eq_some_iff.mp h
    simp only [setPlace, hchild, List.cons_append, atPlace?_cons, child?_setChild hchild,
      Option.bind_some]
    exact ih hcontent

theorem setPlace_of_absent (h : atPlace? place v = none) (new : Json) :
    setPlace new place v = v := by
  induction place generalizing v with
  | nil => simp [atPlace?] at h
  | cons step place ih =>
    rw [setPlace]
    cases hchild : v.child? step with
    | none => rfl
    | some child =>
      rw [atPlace?_cons, hchild] at h
      simp only [ih h, setChild_child? hchild]

theorem atPlace?_setPlace_apart (htexts : Texts place) (hapart : Apart written place)
    (new v : Json) :
    atPlace? place (setPlace new written v) = atPlace? place v := by
  induction place generalizing v written with
  | nil => exact absurd List.nil_prefix hapart.2
  | cons step place ih =>
    cases written with
    | nil => exact absurd List.nil_prefix hapart.1
    | cons step' written =>
      rw [setPlace]
      cases hchild : v.child? step' with
      | none => rfl
      | some child =>
        simp only [atPlace?_cons]
        by_cases hstep : step' = step
        · subst hstep
          have hrest : Apart written place := by
            simpa [Apart, List.cons_prefix_cons] using hapart
          rw [child?_setChild hchild, hchild, Option.bind_some, Option.bind_some,
            ih htexts.tail hrest]
        · rw [child?_setChild_ne (fun key => htexts.head) hstep]

/-- What stands at a place is null only if nothing stands below. -/
theorem vivified_of_atPlace? (h : atPlace? place v = some content) (hplace : place ≠ []) :
    v.vivified = v := by
  cases place with
  | nil => exact absurd rfl hplace
  | cons step place =>
    rw [atPlace?_cons] at h
    obtain ⟨child, hchild, -⟩ := Option.bind_eq_some_iff.mp h
    cases v with
    | scalar a => cases step <;> simp [child?] at hchild
    | list xs => rfl
    | obj es => rfl

end Json
end NodeWorkflow
