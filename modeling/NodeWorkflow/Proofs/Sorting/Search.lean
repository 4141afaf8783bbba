import Mathlib.Data.List.Basic
import NodeWorkflow.Sorting.Search

/-!
# What the search finds

Where a test holds of the items at the start of a list and of no others, the search finds the place
at which it ceases to hold, however the steps are taken. For any test at all the place lies in the
list.
-/
namespace NodeWorkflow.Sorting

variable {α : Type} {keep : α → Bool} {xs : List α} {upward : Bool} {n low high fuel last next : ℕ}

/-- The test holds of the items before a place and of no others. -/
def Splits (keep : α → Bool) (xs : List α) (n : ℕ) : Prop :=
  ∀ i, (xs[i]?).any keep = true ↔ i < n

theorem Splits.le_length (h : Splits keep xs n) : n ≤ xs.length := by
  by_contra hlt
  have hany := (h xs.length).mpr (by omega)
  simp at hany

theorem splits_takeWhile (h : xs.Pairwise fun a b => keep b → keep a) :
    Splits keep xs (xs.takeWhile keep).length := by
  induction xs with
  | nil => intro i; simp
  | cons x xs ih =>
    obtain ⟨hhead, htail⟩ := List.pairwise_cons.mp h
    intro i
    by_cases hx : keep x
    · rw [List.takeWhile_cons_of_pos hx, List.length_cons]
      cases i with
      | zero => simp [hx]
      | succ i =>
        rw [List.getElem?_cons_succ, ih htail i]
        omega
    · -- No later item can be kept, or this one would be.
      rw [List.takeWhile_cons_of_neg hx]
      cases i with
      | zero => simp [hx]
      | succ i =>
        simp only [List.getElem?_cons_succ, List.length_nil, Nat.not_lt_zero, iff_false,
          Option.any_eq_true, not_exists, not_and]
        intro y hy hkeep
        exact hx (hhead y (List.mem_of_getElem? hy) hkeep)

theorem not_keep_of_mem_dropWhile (h : xs.Pairwise fun a b => keep b → keep a) :
    ∀ x ∈ xs.dropWhile keep, keep x = false := by
  induction xs with
  | nil => simp
  | cons x xs ih =>
    obtain ⟨hhead, htail⟩ := List.pairwise_cons.mp h
    by_cases hx : keep x
    · rw [List.dropWhile_cons_of_pos hx]
      exact ih htail
    · rw [List.dropWhile_cons_of_neg hx]
      intro y hy
      rcases List.mem_cons.mp hy with rfl | hy
      · simpa using hx
      · rw [← Bool.not_eq_true]
        exact mt (hhead y hy) hx

theorem bisect_eq (h : Splits keep xs n) (hlow : low ≤ n) (hhigh : n ≤ high)
    (hfuel : high - low ≤ fuel) : bisect upward keep xs fuel low high = n := by
  induction fuel generalizing low high with
  | zero =>
    rw [bisect]
    omega
  | succ fuel ih =>
    rw [bisect]
    by_cases hlt : low < high
    · rw [if_pos hlt]
      dsimp only
      generalize hmiddle : (if upward then low + (high - low) / 2 else
        high - 1 - (high - low) / 2) = middle
      have hbounds : low ≤ middle ∧ middle < high := by
        split at hmiddle <;> omega
      by_cases hkeep : (xs[middle]?).any keep = true
      · rw [if_pos hkeep]
        rw [h middle] at hkeep
        apply ih <;> omega
      · rw [if_neg hkeep]
        rw [h middle] at hkeep
        apply ih <;> omega
    · rw [if_neg hlt]
      omega

theorem bisect_le (h : low ≤ high) : bisect upward keep xs fuel low high ≤ high := by
  induction fuel generalizing low high with
  | zero => exact h
  | succ fuel ih =>
    rw [bisect]
    by_cases hlt : low < high
    · rw [if_pos hlt]
      dsimp only
      generalize hmiddle : (if upward then low + (high - low) / 2 else
        high - 1 - (high - low) / 2) = middle
      have hbounds : low ≤ middle ∧ middle < high := by
        split at hmiddle <;> omega
      split
      · apply ih
        omega
      · have hle := ih hbounds.1
        omega
    · rw [if_neg hlt]
      exact h

/-- The leap ends with the place in a range that bisection has enough steps for. -/
theorem leap_spec (h : Splits keep xs n) (hlast : last < n) (hnext : next ≤ 2 * last + 1)
    (hfuel : xs.length ≤ fuel + next) :
    (leap keep xs fuel last next).1 < n ∧ n ≤ (leap keep xs fuel last next).2 ∧
      (leap keep xs fuel last next).2 ≤ (leap keep xs fuel last next).1 + 1 + xs.length := by
  have hlength := h.le_length
  induction fuel generalizing last next with
  | zero =>
    rw [leap]
    refine ⟨hlast, ?_, ?_⟩ <;> dsimp only <;> omega
  | succ fuel ih =>
    rw [leap]
    cases hitem : xs[next]? with
    | none =>
      refine ⟨hlast, hlength, ?_⟩
      dsimp only
      omega
    | some x =>
      have hsplit := h next
      rw [hitem, Option.any_some] at hsplit
      dsimp only
      by_cases hkeep : keep x = true
      · rw [if_pos hkeep]
        apply ih (hsplit.mp hkeep) <;> omega
      · rw [if_neg hkeep]
        rw [hsplit] at hkeep
        refine ⟨hlast, ?_, ?_⟩ <;> dsimp only <;> omega

theorem runLength_eq (h : Splits keep xs n) : runLength upward keep xs = n := by
  have hhead := h 0
  rw [← List.head?_eq_getElem?] at hhead
  rw [runLength]
  by_cases hkeep : (xs.head?).any keep = true
  · rw [if_pos hkeep]
    obtain ⟨hlast, hnext, hsteps⟩ :=
      leap_spec h (hhead.mp hkeep) (show 1 ≤ 2 * 0 + 1 by omega) (Nat.le_succ xs.length)
    apply bisect_eq h hlast hnext
    omega
  · rw [if_neg hkeep]
    rw [hhead] at hkeep
    omega

/-- Where a test holds in front of every item that it holds of, the items counted are those at the
start of which it holds. -/
theorem runLength_eq_length (h : xs.Pairwise fun a b => keep b → keep a) :
    runLength upward keep xs = (xs.takeWhile keep).length :=
  runLength_eq (splits_takeWhile h)

theorem take_runLength (h : xs.Pairwise fun a b => keep b → keep a) :
    xs.take (runLength upward keep xs) = xs.takeWhile keep := by
  rw [runLength_eq_length h]
  exact (List.prefix_iff_eq_take.mp (List.takeWhile_prefix keep)).symm

theorem drop_runLength (h : xs.Pairwise fun a b => keep b → keep a) :
    xs.drop (runLength upward keep xs) = xs.dropWhile keep := by
  have hsplit : xs.takeWhile keep ++ xs.drop (runLength upward keep xs) = xs := by
    rw [← take_runLength h, List.take_append_drop]
  apply List.append_cancel_left
  rw [hsplit, List.takeWhile_append_dropWhile]

end NodeWorkflow.Sorting
