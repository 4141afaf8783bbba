import NodeWorkflow.Proofs.Json.Decoded

/-!
# Data up to the order of entries

One value is a rearrangement of another if they differ in nothing but the order of the entries of
objects, at any depth. Nothing is assumed on their keys and scalars. Rearranged data that is decoded
is equal.
-/
namespace NodeWorkflow

namespace Entries

variable {α : Type} {key other : Scalar}

/-- Where a value is stored does not depend on the value. -/
theorem exists_put_eq (key : Scalar) (es : Entries α) :
    ∃ before k after, ∀ v, put key v es = before ++ (k, v) :: after := by
  induction es with
  | nil => exact ⟨[], key, [], fun v => rfl⟩
  | cons e es ih =>
    obtain ⟨k, w⟩ := e
    by_cases hk : k.agrees key = true
    · exact ⟨[], k, es, fun v => by simp [put, hk]⟩
    · obtain ⟨before, l, after, hput⟩ := ih
      exact ⟨(k, w) :: before, l, after, fun v => by simp [put, hk, hput]⟩

/-- Values stored under keys that do not agree leave the same entries in either order. -/
theorem put_put_perm (h : key.agrees other = false) (es : Entries α) (v w : α) :
    (put other w (put key v es)).Perm (put key v (put other w es)) := by
  have hback : other.agrees key = false := by
    rw [← Bool.not_eq_true] at h ⊢
    exact fun hagrees => h (Scalar.agrees_symm hagrees)
  induction es with
  | nil => simpa [put, h, hback] using List.Perm.swap _ _ _
  | cons e es ih =>
    obtain ⟨k, x⟩ := e
    by_cases hkey : k.agrees key = true
    · have hother : ¬ k.agrees other = true := fun hother => by
        simp [Scalar.agrees_trans (Scalar.agrees_symm hkey) hother] at h
      simp [put, hkey, hother]
    · by_cases hother : k.agrees other = true
      · simp [put, hkey, hother]
      · simpa [put, hkey, hother] using ih

theorem Textual.perm {es fs : Entries α} (h : es.Textual) (hperm : es.Perm fs) : fs.Textual where
  texts e he := h.texts e (hperm.mem_iff.mpr he)
  distinct := by
    refine hperm.pairwise h.distinct fun {a b} hab => ?_
    rw [← Bool.not_eq_true] at hab ⊢
    exact fun hba => hab (Scalar.agrees_symm hba)

theorem Textual.get?_eq_some {es : Entries α} (h : es.Textual) {v : α} :
    get? key es = some v ↔ (key, v) ∈ es := by
  constructor
  · intro hget
    obtain ⟨k, hmem, hk⟩ := exists_of_get? hget
    obtain ⟨s, rfl⟩ : ∃ s, k = .str s := h.texts _ hmem
    rwa [Scalar.agrees_str_iff.mp (Scalar.agrees_symm hk)]
  · intro hmem
    obtain ⟨s, rfl⟩ : ∃ s, key = .str s := h.texts _ hmem
    exact h.get?_of_mem hmem

theorem Textual.get?_perm {es fs : Entries α} (h : es.Textual) (hperm : es.Perm fs)
    (key : Scalar) : get? key es = get? key fs :=
  Option.ext fun v => by rw [h.get?_eq_some, (h.perm hperm).get?_eq_some, hperm.mem_iff]

end Entries

namespace Json

variable {v w x y : Json} {xs ys : List Json} {es fs : Entries Json}

/-- The values differ at most in the order of the entries of objects. -/
inductive Rearranged : Json → Json → Prop where
  | refl (v : Json) : Rearranged v v
  | perm {es fs : Entries Json} (h : es.Perm fs) : Rearranged (.obj es) (.obj fs)
  | item (before after : List Json) {x y : Json} (h : Rearranged x y) :
    Rearranged (.list (before ++ x :: after)) (.list (before ++ y :: after))
  | entry (before after : Entries Json) (key : Scalar) {x y : Json} (h : Rearranged x y) :
    Rearranged (.obj (before ++ (key, x) :: after)) (.obj (before ++ (key, y) :: after))
  | trans {u v w : Json} (h : Rearranged u v) (h' : Rearranged v w) : Rearranged u w

theorem Rearranged.put (h : Rearranged x y) (key : Scalar) (es : Entries Json) :
    Rearranged (.obj (Entries.put key x es)) (.obj (Entries.put key y es)) := by
  obtain ⟨before, k, after, hput⟩ := Entries.exists_put_eq key es
  rw [hput, hput]
  exact .entry before after k h

theorem Rearranged.set (h : Rearranged x y) {i : Nat} (hi : i < xs.length) :
    Rearranged (.list (xs.set i x)) (.list (xs.set i y)) := by
  rw [List.set_eq_take_append_cons_drop, List.set_eq_take_append_cons_drop, if_pos hi, if_pos hi]
  exact .item _ _ h

theorem Alike.perm (h : (Json.obj es).Decoded) (hperm : es.Perm fs) :
    Alike (.obj es) (.obj fs) := by
  have hfs := h.keys.perm hperm
  refine alike_obj_iff.mpr ⟨h.keys, hfs, fun s => ?_⟩
  rw [← h.keys.get?_perm hperm]
  exact (Alike.refl h).rel_get? s

theorem alike_list_of_forall₂ (h : List.Forall₂ Alike xs ys) : Alike (.list xs) (.list ys) where
  left := .list (by induction h with
    | nil => simp
    | cons hxy _ ih => exact List.forall_mem_cons.mpr ⟨hxy.left, ih⟩)
  right := .list (by induction h with
    | nil => simp
    | cons hxy _ ih => exact List.forall_mem_cons.mpr ⟨hxy.right, ih⟩)
  agrees := agreesItems_iff.mpr (h.imp fun _ _ => Alike.agrees)

theorem Rearranged.alike (h : Rearranged v w) (hv : v.Decoded) : Alike v w := by
  induction h with
  | refl => exact .refl hv
  | perm hperm => exact .perm hv hperm
  | item before after h ih =>
    have hitems := hv.items
    simp only [List.forall_mem_append, List.forall_mem_cons] at hitems
    obtain ⟨hbefore, hx, hafter⟩ := hitems
    exact alike_list_of_forall₂ (List.rel_append
      (List.forall₂_same.mpr fun z hz => .refl (hbefore z hz))
      (.cons (ih hx) (List.forall₂_same.mpr fun z hz => .refl (hafter z hz))))
  | entry before after key h ih =>
    have hentries := hv.entries
    simp only [List.forall_mem_append, List.forall_mem_cons] at hentries
    obtain ⟨hbefore, hx, hafter⟩ := hentries
    refine alike_of_forall₂ (List.rel_append
      (List.forall₂_same.mpr fun e he => ⟨rfl, .refl (hbefore e he)⟩)
      (.cons ⟨rfl, ih hx⟩ (List.forall₂_same.mpr fun e he => ⟨rfl, .refl (hafter e he)⟩))) hv.keys
  | trans h h' ih ih' => exact (ih hv).trans (ih' (ih hv).right)

end Json
end NodeWorkflow
