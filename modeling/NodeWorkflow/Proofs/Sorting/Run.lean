import Mathlib
import NodeWorkflow.Proofs.Sorting.Search
import NodeWorkflow.Sorting.Run

/-!
# Runs rise

The runs that a list is cut into hold its items, whatever the test. Where the test compares ranks,
the ranks in each run rise.
-/
namespace NodeWorkflow.Sorting

variable {α β : Type} [LinearOrder β] {before : α → α → Bool} {rank : α → β} {xs ys : List α}
  {a item : α}

/-- The test compares the ranks of the items. -/
def Judges (before : α → α → Bool) (rank : α → β) (xs : List α) : Prop :=
  ∀ a ∈ xs, ∀ b ∈ xs, before a b = true ↔ rank a < rank b

def Rising (rank : α → β) (xs : List α) : Prop :=
  xs.Pairwise fun a b => rank a ≤ rank b

/-- The ranks rise if it is these that the test compares. -/
def Orderly (before : α → α → Bool) (rank : α → β) (xs : List α) : Prop :=
  Judges before rank xs → Rising rank xs

theorem Judges.mono (h : Judges before rank ys) (hsub : xs ⊆ ys) : Judges before rank xs :=
  fun a ha b hb => h a (hsub ha) b (hsub hb)

theorem Judges.not_before (h : Judges before rank xs) {b : α} (ha : a ∈ xs) (hb : b ∈ xs) :
    (!before a b) = true ↔ rank b ≤ rank a := by
  rw [Bool.not_eq_true', ← Bool.not_eq_true, h a ha b hb, not_lt]

theorem rising_append : Rising rank (xs ++ ys) ↔
    Rising rank xs ∧ Rising rank ys ∧ ∀ x ∈ xs, ∀ y ∈ ys, rank x ≤ rank y :=
  List.pairwise_append

theorem rising_cons : Rising rank (a :: xs) ↔ (∀ x ∈ xs, rank a ≤ rank x) ∧ Rising rank xs :=
  List.pairwise_cons

theorem Rising.head_le (h : Rising rank (a :: xs)) {x : α} (hx : x ∈ a :: xs) :
    rank a ≤ rank x := by
  rcases List.mem_cons.mp hx with rfl | hx
  · exact le_rfl
  · exact (rising_cons.mp h).1 x hx

theorem Rising.le_getLast (h : Rising rank xs) {last : α} (hlast : xs.getLast? = some last) {x : α}
    (hx : x ∈ xs) : rank x ≤ rank last := by
  obtain ⟨front, rfl⟩ := List.getLast?_eq_some_iff.mp hlast
  rcases List.mem_append.mp hx with hx | hx
  · exact (rising_append.mp h).2.2 x hx last List.mem_cons_self
  · rw [List.mem_singleton.mp hx]

/-- A list rises if the test finds no item before the one in front of it. -/
theorem rising_of_isChain (hjudges : Judges before rank xs)
    (h : xs.IsChain fun a b => before b a = false) : Rising rank xs := by
  have : Trans (fun a b => rank a ≤ rank b) (fun a b => rank a ≤ rank b)
      (fun a b => rank a ≤ rank b) := ⟨le_trans⟩
  apply List.IsChain.pairwise
  apply h.imp_of_mem_imp
  intro a b ha hb hbefore
  rw [← hjudges.not_before hb ha, hbefore]
  rfl

section Start

theorem risingRun_append (before : α → α → Bool) (a : α) (xs : List α) :
    (risingRun before a xs).1 ++ (risingRun before a xs).2 = a :: xs := by
  induction xs generalizing a with
  | nil => rfl
  | cons b xs ih =>
    rw [risingRun]
    split
    · rfl
    · rw [List.cons_append, ih]

theorem risingRun_fst (before : α → α → Bool) (a : α) (xs : List α) :
    ∃ run, (risingRun before a xs).1 = a :: run := by
  cases xs with
  | nil => exact ⟨[], rfl⟩
  | cons b xs =>
    rw [risingRun]
    split
    · exact ⟨[], rfl⟩
    · exact ⟨_, rfl⟩

theorem isChain_risingRun (before : α → α → Bool) (a : α) (xs : List α) :
    (risingRun before a xs).1.IsChain fun a b => before b a = false := by
  induction xs generalizing a with
  | nil => exact .singleton a
  | cons b xs ih =>
    rw [risingRun]
    split
    next => exact .singleton a
    next hbefore =>
      obtain ⟨run, hrun⟩ := risingRun_fst before b xs
      have hchain := ih b
      rw [hrun] at hchain ⊢
      exact .cons_cons (by simpa using hbefore) hchain

theorem fallingRun_eq (before : α → α → Bool) (a : α) (xs : List α) :
    fallingRun before a xs = risingRun (fun b a => !before b a) a xs := by
  induction xs generalizing a with
  | nil => rfl
  | cons b xs ih =>
    rw [fallingRun, risingRun, ih]
    by_cases hbefore : before b a <;> simp [hbefore]

theorem startRun_perm (before : α → α → Bool) (xs : List α) :
    ((startRun before xs).1 ++ (startRun before xs).2).Perm xs := by
  match xs with
  | [] => exact .refl _
  | [a] => exact .refl _
  | a :: b :: xs =>
    rw [startRun]
    split
    · rw [fallingRun_eq]
      refine .trans ((List.reverse_perm _).append_right _) ?_
      rw [risingRun_append]
    · rw [risingRun_append]

theorem startRun_ne_nil (before : α → α → Bool) (h : xs ≠ []) : (startRun before xs).1 ≠ [] := by
  match xs with
  | [] => exact absurd rfl h
  | [a] => simp [startRun]
  | a :: b :: xs =>
    rw [startRun]
    split
    · obtain ⟨run, hrun⟩ := risingRun_fst (fun b a => !before b a) a (b :: xs)
      simp [fallingRun_eq, hrun]
    · obtain ⟨run, hrun⟩ := risingRun_fst before a (b :: xs)
      simp [hrun]

theorem orderly_startRun (rank : α → β) (xs : List α) :
    Orderly before rank (startRun before xs).1 := by
  intro hjudges
  match xs with
  | [] => exact .nil
  | [a] => exact List.pairwise_singleton _ _
  | a :: b :: xs =>
    rw [startRun] at hjudges ⊢
    split at hjudges
    next hbefore =>
      rw [if_pos hbefore]
      dsimp only at hjudges ⊢
      apply rising_of_isChain hjudges
      have hchain : (fallingRun before a (b :: xs)).1.reverse.IsChain fun x y => before x y := by
        rw [fallingRun_eq, List.isChain_reverse]
        exact (isChain_risingRun _ a (b :: xs)).imp fun x y hfalls => by simpa using hfalls
      refine hchain.imp_of_mem_imp fun x y hx hy hless => ?_
      rw [← Bool.not_eq_true, hjudges y hy x hx, not_lt]
      exact ((hjudges x hx y hy).mp hless).le
    next hbefore =>
      rw [if_neg hbefore]
      exact rising_of_isChain hjudges (isChain_risingRun before a (b :: xs))

end Start

section Insert

theorem insertIdx_length_append (xs ys : List α) (item : α) :
    (xs ++ ys).insertIdx xs.length item = xs ++ item :: ys := by
  induction xs with
  | nil => rfl
  | cons x xs ih => rw [List.cons_append, List.length_cons, List.insertIdx_succ_cons, ih]; rfl

theorem insert_perm (before : α → α → Bool) (xs : List α) (item : α) :
    (insert before xs item).Perm (item :: xs) :=
  List.perm_insertIdx item xs (bisect_le (Nat.zero_le _))

/-- What holds of the lower ranks holds in a rising list in front of every item that it holds of. -/
theorem Rising.closed {keep : α → Bool} (h : Rising rank xs)
    (hkeep : ∀ x ∈ xs, ∀ y ∈ xs, rank x ≤ rank y → keep y → keep x) :
    xs.Pairwise fun a b => keep b → keep a :=
  List.Pairwise.imp_of_mem (fun ha hb hle => hkeep _ ha _ hb hle) h

theorem orderly_insert (h : Orderly before rank xs) (item : α) :
    Orderly before rank (insert before xs item) := by
  intro hjudges
  have hall := hjudges.mono (insert_perm before xs item).symm.subset
  have hrising := h (hall.mono (List.subset_cons_self item xs))
  have hitem : ∀ x ∈ xs, (!before item x) = true ↔ rank x ≤ rank item := fun x hx =>
    hall.not_before List.mem_cons_self (List.mem_cons_of_mem _ hx)
  have hclosed : xs.Pairwise fun a b => !before item b → !before item a := by
    apply hrising.closed
    intro x hx y hy hle hkeep
    exact (hitem x hx).mpr (hle.trans ((hitem y hy).mp hkeep))
  -- The place that is found splits the list at the rank of the item.
  have hsplit := List.takeWhile_append_dropWhile (p := fun x => !before item x) (l := xs)
  have hplace : insert before xs item = xs.takeWhile (fun x => !before item x) ++
      item :: xs.dropWhile fun x => !before item x := by
    have hsplits := splits_takeWhile hclosed
    rw [insert, bisect_eq hsplits (Nat.zero_le _) hsplits.le_length (by omega),
      ← insertIdx_length_append, hsplit]
  have hbelow : ∀ x ∈ xs.takeWhile (fun x => !before item x), rank x ≤ rank item := by
    intro x hx
    rw [← hitem x ((List.takeWhile_sublist _).mem hx)]
    exact List.mem_takeWhile_imp (p := fun x => !before item x) hx
  have habove : ∀ x ∈ xs.dropWhile (fun x => !before item x), rank item ≤ rank x := by
    intro x hx
    apply le_of_not_ge
    rw [← hitem x ((List.dropWhile_sublist _).mem hx), not_keep_of_mem_dropWhile hclosed x hx]
    simp
  rw [← hsplit, rising_append] at hrising
  obtain ⟨hfront, hback, hcross⟩ := hrising
  rw [hplace, rising_append, rising_cons]
  refine ⟨hfront, ⟨habove, hback⟩, ?_⟩
  intro x hx y hy
  rcases List.mem_cons.mp hy with rfl | hy
  · exact hbelow x hx
  · exact hcross x hx y hy

theorem foldl_insert_perm (before : α → α → Bool) (items xs : List α) :
    (items.foldl (insert before) xs).Perm (xs ++ items) := by
  induction items generalizing xs with
  | nil => simp
  | cons item items ih =>
    refine (ih _).trans (((insert_perm before xs item).append_right items).trans ?_)
    exact List.perm_middle.symm

theorem orderly_foldl_insert (h : Orderly before rank xs) (items : List α) :
    Orderly before rank (items.foldl (insert before) xs) := by
  induction items generalizing xs with
  | nil => exact h
  | cons item items ih => exact ih (orderly_insert h item)

end Insert

section Runs

variable {least fuel : ℕ}

theorem runs_of_ne_nil (h : xs ≠ []) : runs before least (fuel + 1) xs =
    ((startRun before xs).2.take (least - (startRun before xs).1.length)).foldl (insert before)
        (startRun before xs).1 ::
      runs before least fuel ((startRun before xs).2.drop (least - (startRun before xs).1.length)) := by
  rw [runs]
  exact h

/-- The runs hold the items of the list if there are steps enough. -/
theorem flatten_runs_perm (h : xs.length ≤ fuel) : (runs before least fuel xs).flatten.Perm xs := by
  induction fuel generalizing xs with
  | zero =>
    obtain rfl := List.length_eq_zero_iff.mp (Nat.le_zero.mp h)
    exact .refl _
  | succ fuel ih =>
    by_cases hxs : xs = []
    · subst hxs
      exact .refl _
    · rw [runs_of_ne_nil hxs, List.flatten_cons]
      have hperm := startRun_perm before xs
      have hpos := List.length_pos_iff.mpr (startRun_ne_nil before hxs)
      generalize (startRun before xs).1 = run at hperm hpos ⊢
      generalize (startRun before xs).2 = others at hperm ⊢
      -- A run takes one item at least, so the rest is shorter than the steps that remain.
      have hlength := hperm.length_eq
      rw [List.length_append] at hlength
      have hlater : (others.drop (least - run.length)).length ≤ fuel := by
        rw [List.length_drop]
        omega
      refine ((foldl_insert_perm before _ run).append (ih hlater)).trans ?_
      rwa [List.append_assoc, List.take_append_drop]

theorem orderly_runs (before : α → α → Bool) (rank : α → β) (least fuel : ℕ) (xs : List α) :
    ∀ run ∈ runs before least fuel xs, Orderly before rank run := by
  induction fuel generalizing xs with
  | zero => simp [runs]
  | succ fuel ih =>
    by_cases hxs : xs = []
    · subst hxs
      simp [runs]
    · rw [runs_of_ne_nil hxs]
      intro run hrun
      rcases List.mem_cons.mp hrun with rfl | hrun
      · exact orderly_foldl_insert (orderly_startRun rank xs) _
      · exact ih _ run hrun

end Runs
end NodeWorkflow.Sorting
