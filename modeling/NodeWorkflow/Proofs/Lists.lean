import Mathlib.Data.List.Forall2
import Mathlib.Data.List.Nodup

/-!
# Facts about lists

What is used of lists in several places and stands in no library.
-/
namespace NodeWorkflow.List

variable {α β : Type}

theorem eraseDups_of_nodup [BEq α] [LawfulBEq α] {xs : List α} (h : xs.Nodup) :
    xs.eraseDups = xs := by
  induction xs with
  | nil => rfl
  | cons a xs ih =>
    obtain ⟨ha, hxs⟩ := List.nodup_cons.mp h
    have hfilter : xs.filter (fun b => !b == a) = xs := by
      refine List.filter_eq_self.mpr fun b hb => ?_
      have hba : b ≠ a := fun he => ha (he ▸ hb)
      simpa using hba
    rw [List.eraseDups_cons, hfilter, ih hxs]

theorem nodup_eraseDups [BEq α] [LawfulBEq α] (xs : List α) : xs.eraseDups.Nodup := by
  induction hlength : xs.length using Nat.strongRecOn generalizing xs with
  | _ length ih =>
    cases xs with
    | nil => simp
    | cons a xs =>
      rw [List.eraseDups_cons, List.nodup_cons, List.mem_eraseDups, List.mem_filter]
      refine ⟨by simp, ih _ ?_ _ rfl⟩
      have hle := List.length_filter_le (fun b => !b == a) xs
      rw [List.length_cons] at hlength
      omega

theorem eraseDups_append_cons_of_mem [BEq α] [LawfulBEq α] {a : α} {xs : List α} (h : a ∈ xs)
    (ys : List α) : (xs ++ a :: ys).eraseDups = (xs ++ ys).eraseDups := by
  simp [List.eraseDups_append, List.removeAll, h]

theorem exists_last {p : α → Prop} {xs : List α} (h : ∃ x ∈ xs, p x) :
    ∃ before x after, xs = before ++ x :: after ∧ p x ∧ ∀ y ∈ after, ¬ p y := by
  induction xs with
  | nil => simp at h
  | cons a xs ih =>
    by_cases hlater : ∃ x ∈ xs, p x
    · obtain ⟨before, x, after, rfl, hx⟩ := ih hlater
      exact ⟨a :: before, x, after, rfl, hx⟩
    · push Not at hlater
      have ha : p a := by
        obtain ⟨x, hmem, hx⟩ := h
        rcases List.mem_cons.mp hmem with rfl | hmem
        · exact hx
        · exact absurd hx (hlater x hmem)
      exact ⟨[], a, xs, rfl, ha, hlater⟩

theorem exists_first {p : α → Prop} {xs : List α} (h : ∃ x ∈ xs, p x) :
    ∃ before x after, xs = before ++ x :: after ∧ p x ∧ ∀ y ∈ before, ¬ p y := by
  have hreverse : ∃ x ∈ xs.reverse, p x := by simpa using h
  obtain ⟨after, x, before, hsplit, hx, hbefore⟩ := exists_last hreverse
  refine ⟨before.reverse, x, after.reverse, ?_, hx, by simpa using hbefore⟩
  simpa using congrArg List.reverse hsplit

theorem forall₂_append_cons {r : α → β → Prop} {before after : List α} {x : α} {ys : List β}
    (h : List.Forall₂ r (before ++ x :: after) ys) : ∃ front y back, ys = front ++ y :: back ∧
      List.Forall₂ r before front ∧ r x y ∧ List.Forall₂ r after back := by
  induction before generalizing ys with
  | nil =>
    obtain ⟨y, back, hy, hback, rfl⟩ := List.forall₂_cons_left_iff.mp h
    exact ⟨[], y, back, rfl, .nil, hy, hback⟩
  | cons a before ih =>
    obtain ⟨b, ys, hb, hys, rfl⟩ := List.forall₂_cons_left_iff.mp h
    obtain ⟨front, y, back, rfl, hfront, hy, hback⟩ := ih hys
    exact ⟨b :: front, y, back, rfl, .cons hb hfront, hy, hback⟩

end NodeWorkflow.List
