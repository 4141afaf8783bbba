import NodeWorkflow.Proofs.Sorting.Run
import NodeWorkflow.Sorting.Merge

/-!
# Merges rise

All that a merge does is made of a few steps, and a step loses no item. Where the winner is the item
of the lower rank, a step keeps the ranks rising from the items that are placed into both runs, and
one comparison at least is made as long as any is needed. So two rising runs become one.
-/
namespace NodeWorkflow.Sorting

variable {α β : Type} [LinearOrder β] {rank : α → β} {xs : List α}

/-- A search in a rising list for the ranks of a lower part finds just these. -/
theorem runLength_splits (upward : Bool) (keep : α → Bool) (lower : β → Prop)
    (hlower : ∀ x y, x ≤ y → lower y → lower x) (h : Rising rank xs)
    (hkeep : ∀ x ∈ xs, keep x = true ↔ lower (rank x)) :
    (∀ x ∈ xs.take (runLength upward keep xs), lower (rank x)) ∧
      ∀ x ∈ xs.drop (runLength upward keep xs), ¬ lower (rank x) := by
  have hclosed : xs.Pairwise fun a b => keep b → keep a := by
    apply h.closed
    intro x hx y hy hle hy'
    rw [hkeep y hy] at hy'
    exact (hkeep x hx).mpr (hlower _ _ hle hy')
  rw [take_runLength hclosed, drop_runLength hclosed]
  constructor
  · intro x hx
    rw [← hkeep x ((List.takeWhile_sublist _).mem hx)]
    exact List.mem_takeWhile_imp hx
  · intro x hx
    rw [← hkeep x ((List.dropWhile_sublist _).mem hx), not_keep_of_mem_dropWhile hclosed x hx]
    simp

namespace Merging

variable {c : Contest α} {m m' : Merging α} {n fuel : ℕ}

def size (m : Merging α) : ℕ := m.kept.length + m.other.length

/-- What is done at a time: an item is placed after a comparison, or a stretch and perhaps the item
of the other run that it was compared with, or the patience changes. -/
inductive Step (c : Contest α) : Merging α → Merging α → Prop
  | keptItem {m : Merging α} {k o : α} {ks os : List α} (hk : m.kept = k :: ks)
      (ho : m.other = o :: os) (h : c.wins o k = false) : Step c m (m.placeKept 1)
  | otherItem {m : Merging α} {k o : α} {ks os : List α} (hk : m.kept = k :: ks)
      (ho : m.other = o :: os) (h : c.wins o k = true) : Step c m (m.placeOther 1)
  | keptStretch {m : Merging α} {o : α} {os : List α} (ho : m.other = o :: os) :
      Step c m (m.placeKept (runLength c.upward (fun k => !c.wins o k) m.kept))
  | keptPass {m : Merging α} {o : α} {os : List α} (ho : m.other = o :: os) :
      Step c m ((m.placeKept (runLength c.upward (fun k => !c.wins o k) m.kept)).placeOther 1)
  | otherStretch {m : Merging α} {k : α} {ks : List α} (hk : m.kept = k :: ks) :
      Step c m (m.placeOther (runLength c.upward (fun o => c.wins o k) m.other))
  | otherPass {m : Merging α} {k : α} {ks : List α} (hk : m.kept = k :: ks) :
      Step c m ((m.placeOther (runLength c.upward (fun o => c.wins o k) m.other)).placeKept 1)
  | patience (m : Merging α) {p : ℕ} (hp : 1 ≤ p) : Step c m { m with patience := p }

abbrev Steps (c : Contest α) : Merging α → Merging α → Prop := Relation.ReflTransGen (Step c)

section Runs

theorem isOver_eq_false (h : m.isOver = false) :
    ∃ k next ks o os, m.kept = k :: next :: ks ∧ m.other = o :: os := by
  obtain ⟨placed, kept, other, patience⟩ := m
  match kept, other with
  | _, [] => simp [isOver] at h
  | [], o :: os => simp [isOver] at h
  | [k], o :: os => simp [isOver] at h
  | k :: next :: ks, o :: os => exact ⟨k, next, ks, o, os, rfl, rfl⟩

theorem steps_compareItems (c : Contest α) (fuel keptWins otherWins : ℕ) (m : Merging α) :
    Steps c m (m.compareItems c fuel keptWins otherWins) := by
  induction fuel generalizing keptWins otherWins m with
  | zero => exact .refl
  | succ fuel ih =>
    rw [compareItems]
    split
    next => exact .refl
    next =>
      split
      next k ks o os hk ho =>
        split
        next h => exact .head (.otherItem hk ho h) (ih _ _ _)
        next h => exact .head (.keptItem hk ho (by simpa using h)) (ih _ _ _)
      next => exact .refl

/-- One comparison is made at least if it is needed and there is any patience. -/
theorem exists_step_compareItems (c : Contest α) (fuel : ℕ) (hover : m.isOver = false)
    (hpatience : 1 ≤ m.patience) :
    ∃ m', Step c m m' ∧ m'.size < m.size ∧ Steps c m' (m.compareItems c (fuel + 1) 0 0) := by
  obtain ⟨k, next, ks, o, os, hk, ho⟩ := isOver_eq_false hover
  have hgo : ¬ (m.isOver || m.patience ≤ max 0 0) = true := by
    simp only [hover, Bool.false_or, max_self, decide_eq_true_eq]
    omega
  rw [compareItems, if_neg hgo]
  simp only [hk, ho]
  by_cases hwins : c.wins o k = true
  · rw [if_pos hwins]
    refine ⟨_, .otherItem hk ho hwins, ?_, steps_compareItems ..⟩
    simp only [size, placeOther, ho, List.drop_succ_cons, List.drop_zero, List.length_cons]
    omega
  · rw [if_neg hwins]
    refine ⟨_, .keptItem hk ho (by simpa using hwins), ?_, steps_compareItems ..⟩
    simp only [size, placeKept, hk, List.drop_succ_cons, List.drop_zero, List.length_cons]
    omega

theorem steps_passKept (c : Contest α) (m : Merging α) : Steps c m (m.passKept c).1 := by
  unfold passKept
  split
  next o os hover ho =>
    dsimp only
    split
    · exact .single (.keptStretch ho)
    · exact .single (.keptPass ho)
  next => exact .refl

theorem steps_passOther (c : Contest α) (m : Merging α) : Steps c m (m.passOther c).1 := by
  unfold passOther
  split
  next k ks hover hk =>
    dsimp only
    split
    · exact .single (.otherStretch hk)
    · exact .single (.otherPass hk)
  next => exact .refl

theorem steps_passBoth (c : Contest α) (m : Merging α) : Steps c m (m.passBoth c).1 := by
  unfold passBoth
  split
  · exact (steps_passKept c m).trans (steps_passOther c _)
  · exact (steps_passOther c m).trans (steps_passKept c _)

theorem steps_passStretches (c : Contest α) (fuel : ℕ) (m : Merging α) :
    Steps c m (m.passStretches c fuel) := by
  induction fuel generalizing m with
  | zero => exact .refl
  | succ fuel ih =>
    rw [passStretches]
    have hboth := steps_passBoth c m
    dsimp only
    split
    · exact hboth
    · split
      · exact (hboth.tail (.patience _ (Nat.le_max_left 1 _))).trans (ih _)
      · exact hboth.tail (.patience _ (by omega))

theorem steps_run (c : Contest α) (fuel : ℕ) (m : Merging α) : Steps c m (m.run c fuel) := by
  induction fuel generalizing m with
  | zero => exact .refl
  | succ fuel ih =>
    rw [run]
    have hitems := steps_compareItems c fuel 0 0 m
    split
    · exact hitems
    · exact (hitems.trans (steps_passStretches c fuel _)).trans (ih _)

end Runs

section Items

theorem reverse_placed_placeKept (n : ℕ) (m : Merging α) :
    (m.placeKept n).placed.reverse = m.placed.reverse ++ m.kept.take n := by
  rw [placeKept, List.reverse_append, List.reverse_reverse]

theorem reverse_placed_placeOther (n : ℕ) (m : Merging α) :
    (m.placeOther n).placed.reverse = m.placed.reverse ++ m.other.take n := by
  rw [placeOther, List.reverse_append, List.reverse_reverse]

theorem placeKept_perm (n : ℕ) (m : Merging α) : (m.placeKept n).result.Perm m.result := by
  change ((m.placeKept n).placed.reverse ++ m.other ++ m.kept.drop n).Perm
    (m.placed.reverse ++ m.other ++ m.kept)
  rw [reverse_placed_placeKept, List.append_assoc, List.append_assoc, List.append_assoc]
  apply List.Perm.append_left
  rw [← List.append_assoc]
  refine (List.perm_append_comm.append_right _).trans ?_
  rw [List.append_assoc, List.take_append_drop]

theorem placeOther_result (n : ℕ) (m : Merging α) : (m.placeOther n).result = m.result := by
  change (m.placeOther n).placed.reverse ++ m.other.drop n ++ m.kept =
    m.placed.reverse ++ m.other ++ m.kept
  rw [reverse_placed_placeOther, List.append_assoc m.placed.reverse, List.take_append_drop]

theorem Step.perm (h : Step c m m') : m'.result.Perm m.result := by
  cases h with
  | keptItem => exact placeKept_perm 1 m
  | otherItem => rw [placeOther_result]
  | keptStretch => exact placeKept_perm _ m
  | keptPass =>
    rw [placeOther_result]
    exact placeKept_perm _ m
  | otherStretch => rw [placeOther_result]
  | otherPass =>
    rw [← placeOther_result (runLength c.upward _ m.other) m]
    exact placeKept_perm 1 _
  | patience => exact .refl _

theorem Steps.perm (h : Steps c m m') : m'.result.Perm m.result := by
  induction h with
  | refl => exact .refl _
  | tail _ hstep ih => exact hstep.perm.trans ih

theorem size_placeKept_le (n : ℕ) (m : Merging α) : (m.placeKept n).size ≤ m.size := by
  simp only [size, placeKept, List.length_drop]
  omega

theorem size_placeOther_le (n : ℕ) (m : Merging α) : (m.placeOther n).size ≤ m.size := by
  simp only [size, placeOther, List.length_drop]
  omega

theorem Step.size_le (h : Step c m m') : m'.size ≤ m.size := by
  cases h with
  | keptItem => exact size_placeKept_le 1 m
  | otherItem => exact size_placeOther_le 1 m
  | keptStretch => exact size_placeKept_le _ m
  | keptPass => exact (size_placeOther_le 1 _).trans (size_placeKept_le _ m)
  | otherStretch => exact size_placeOther_le _ m
  | otherPass => exact (size_placeKept_le 1 _).trans (size_placeOther_le _ m)
  | patience => exact le_rfl

theorem Steps.size_le (h : Steps c m m') : m'.size ≤ m.size := by
  induction h with
  | refl => exact le_rfl
  | tail _ hstep ih => exact hstep.size_le.trans ih

theorem Steps.patient (h : Steps c m m') (hm : 1 ≤ m.patience) : 1 ≤ m'.patience := by
  induction h with
  | refl => exact hm
  | tail _ hstep ih => cases hstep <;> assumption

end Items

theorem isOver_compareItems (h : m.isOver = true) (c : Contest α) (fuel : ℕ) :
    m.compareItems c fuel 0 0 = m := by
  cases fuel with
  | zero => rw [compareItems]
  | succ fuel => rw [compareItems, if_pos (by rw [h, Bool.true_or])]

/-- A merge with steps enough comes to its end. -/
theorem isOver_run (hsize : m.size ≤ fuel + 1) (hpatience : 1 ≤ m.patience) :
    (m.run c fuel).isOver = true := by
  induction fuel generalizing m with
  | zero =>
    rw [run, ← Bool.not_eq_false]
    intro hover
    obtain ⟨k, next, ks, o, os, hk, ho⟩ := isOver_eq_false hover
    simp only [size, hk, ho, List.length_cons] at hsize
    omega
  | succ fuel ih =>
    rw [run]
    by_cases hover : (m.compareItems c fuel 0 0).isOver = true
    · rwa [if_pos hover]
    · rw [if_neg hover]
      have hitems := steps_compareItems c fuel 0 0 m
      have hsteps := steps_passStretches c fuel (m.compareItems c fuel 0 0)
      apply ih _ (hsteps.patient (hitems.patient hpatience))
      apply hsteps.size_le.trans
      -- The merge was not over before either, so that an item has been placed.
      have hbefore : m.isOver = false := by
        rw [← Bool.not_eq_true]
        intro hm
        exact hover (by rwa [isOver_compareItems hm])
      obtain ⟨k, next, ks, o, os, hk, ho⟩ := isOver_eq_false hbefore
      cases fuel with
      | zero =>
        simp only [size, hk, ho, List.length_cons] at hsize
        omega
      | succ fuel =>
        obtain ⟨m', -, hless, hrest⟩ := exists_step_compareItems c fuel hbefore hpatience
        have hle := hrest.size_le
        omega

/-- The ranks rise from the items that are placed into either run, the last item is a kept one, and
the winner is the item of the lower rank. -/
structure Sound (c : Contest α) (rank : α → β) (m : Merging α) : Prop where
  wins : ∀ o ∈ m.other, ∀ k ∈ m.kept, c.wins o k = true ↔ rank o < rank k
  kept : Rising rank (m.placed.reverse ++ m.kept)
  other : Rising rank (m.placed.reverse ++ m.other)
  last : ∀ l, m.kept.getLast? = some l → ∀ o ∈ m.other, rank o ≤ rank l

namespace Sound

theorem placeKept (h : m.Sound c rank)
    (hn : ∀ k ∈ m.kept.take n, ∀ o ∈ m.other, rank k ≤ rank o) :
    (m.placeKept n).Sound c rank := by
  have hkept := h.kept
  have hother := h.other
  rw [← List.take_append_drop n m.kept, ← List.append_assoc] at hkept
  constructor
  case wins =>
    intro o ho k hk
    exact h.wins o ho k (List.mem_of_mem_drop hk)
  case kept => rwa [reverse_placed_placeKept]
  case other =>
    rw [rising_append] at hkept hother
    rw [reverse_placed_placeKept, rising_append]
    refine ⟨hkept.1, hother.2.1, ?_⟩
    intro x hx y hy
    rcases List.mem_append.mp hx with hx | hx
    · exact hother.2.2 x hx y hy
    · exact hn x hx y hy
  case last =>
    intro l hl o ho
    have hl : (m.kept.drop n).getLast? = some l := hl
    rw [List.getLast?_drop] at hl
    split at hl
    · simp at hl
    · exact h.last l hl o ho

theorem placeOther (h : m.Sound c rank)
    (hn : ∀ o ∈ m.other.take n, ∀ k ∈ m.kept, rank o ≤ rank k) :
    (m.placeOther n).Sound c rank := by
  have hkept := h.kept
  have hother := h.other
  rw [← List.take_append_drop n m.other, ← List.append_assoc] at hother
  constructor
  case wins =>
    intro o ho
    exact h.wins o (List.mem_of_mem_drop ho)
  case kept =>
    rw [rising_append] at hkept hother
    rw [reverse_placed_placeOther, rising_append]
    refine ⟨hother.1, hkept.2.1, ?_⟩
    intro x hx y hy
    rcases List.mem_append.mp hx with hx | hx
    · exact hkept.2.2 x hx y hy
    · exact hn x hx y hy
  case other => rwa [reverse_placed_placeOther]
  case last =>
    intro l hl o ho
    exact h.last l hl o (List.mem_of_mem_drop ho)

theorem rising_kept (h : m.Sound c rank) : Rising rank m.kept := (rising_append.mp h.kept).2.1

theorem rising_other (h : m.Sound c rank) : Rising rank m.other := (rising_append.mp h.other).2.1

/-- The kept items up to the next other one, which comes before all the rest. -/
theorem split_kept (h : m.Sound c rank) {o : α} {os : List α} (ho : m.other = o :: os) :
    let count := runLength c.upward (fun k => !c.wins o k) m.kept
    (∀ k ∈ m.kept.take count, rank k ≤ rank o) ∧ ∀ k ∈ m.kept.drop count, rank o ≤ rank k := by
  have hmem : o ∈ m.other := ho ▸ List.mem_cons_self
  have hkeep : ∀ k ∈ m.kept, (!c.wins o k) = true ↔ rank k ≤ rank o := by
    intro k hk
    rw [Bool.not_eq_true', ← Bool.not_eq_true, h.wins o hmem k hk, not_lt]
  obtain ⟨hfront, hback⟩ := runLength_splits c.upward (fun k => !c.wins o k)
    (· ≤ rank o) (fun x y hle hy => hle.trans hy) h.rising_kept hkeep
  exact ⟨hfront, fun k hk => (not_le.mp (hback k hk)).le⟩

theorem split_other (h : m.Sound c rank) {k : α} {ks : List α} (hk : m.kept = k :: ks) :
    let count := runLength c.upward (fun o => c.wins o k) m.other
    (∀ o ∈ m.other.take count, rank o ≤ rank k) ∧ ∀ o ∈ m.other.drop count, rank k ≤ rank o := by
  have hmem : k ∈ m.kept := hk ▸ List.mem_cons_self
  obtain ⟨hfront, hback⟩ := runLength_splits c.upward (fun o => c.wins o k)
    (· < rank k) (fun x y hle hy => hle.trans_lt hy) h.rising_other fun o ho => h.wins o ho k hmem
  exact ⟨fun o ho => (hfront o ho).le, fun o ho => not_lt.mp (hback o ho)⟩

theorem other_le (h : m.Sound c rank) {o : α} {os : List α} (ho : m.other = o :: os) :
    ∀ x ∈ m.other, rank o ≤ rank x := by
  have hrising := h.rising_other
  rw [ho] at hrising ⊢
  exact fun x hx => hrising.head_le hx

theorem kept_le (h : m.Sound c rank) {k : α} {ks : List α} (hk : m.kept = k :: ks) :
    ∀ x ∈ m.kept, rank k ≤ rank x := by
  have hrising := h.rising_kept
  rw [hk] at hrising ⊢
  exact fun x hx => hrising.head_le hx

theorem keptStretch (h : m.Sound c rank) {o : α} {os : List α} (ho : m.other = o :: os) :
    (m.placeKept (runLength c.upward (fun k => !c.wins o k) m.kept)).Sound c rank := by
  apply h.placeKept
  intro k hk x hx
  exact ((h.split_kept ho).1 k hk).trans (h.other_le ho x hx)

theorem otherStretch (h : m.Sound c rank) {k : α} {ks : List α} (hk : m.kept = k :: ks) :
    (m.placeOther (runLength c.upward (fun o => c.wins o k) m.other)).Sound c rank := by
  apply h.placeOther
  intro o ho x hx
  exact ((h.split_other hk).1 o ho).trans (h.kept_le hk x hx)

end Sound

theorem Step.sound (hstep : Step c m m') (h : m.Sound c rank) : m'.Sound c rank := by
  cases hstep with
  | @keptItem k o ks os hk ho hwins =>
    apply h.placeKept
    intro x hx y hy
    obtain rfl : x = k := by simpa [hk] using hx
    have hle : rank x ≤ rank o := by
      rw [← not_lt, ← h.wins o (ho ▸ List.mem_cons_self) x (hk ▸ List.mem_cons_self), hwins]
      simp
    exact hle.trans (h.other_le ho y hy)
  | @otherItem k o ks os hk ho hwins =>
    apply h.placeOther
    intro x hx y hy
    obtain rfl : x = o := by simpa [ho] using hx
    rw [h.wins x (ho ▸ List.mem_cons_self) k (hk ▸ List.mem_cons_self)] at hwins
    exact hwins.le.trans (h.kept_le hk y hy)
  | keptStretch ho => exact h.keptStretch ho
  | @keptPass o os ho =>
    apply (h.keptStretch ho).placeOther
    intro x hx y hy
    have hother : x ∈ m.other.take 1 := hx
    obtain rfl : x = o := by simpa [ho] using hother
    exact (h.split_kept ho).2 y hy
  | otherStretch hk => exact h.otherStretch hk
  | @otherPass k ks hk =>
    apply (h.otherStretch hk).placeKept
    intro x hx y hy
    have hkept : x ∈ m.kept.take 1 := hx
    obtain rfl : x = k := by simpa [hk] using hkept
    exact (h.split_other hk).2 y hy
  | patience hp => exact ⟨h.wins, h.kept, h.other, h.last⟩

theorem Steps.sound (hsteps : Steps c m m') (h : m.Sound c rank) : m'.Sound c rank := by
  induction hsteps with
  | refl => exact h
  | tail _ hstep ih => exact hstep.sound ih

/-- At the end the items that are left follow in order. -/
theorem Sound.rising_result (h : m.Sound c rank) (hover : m.isOver = true) :
    Rising rank m.result := by
  obtain ⟨placed, kept, other, patience⟩ := m
  simp only [isOver, Bool.or_eq_true, List.isEmpty_iff, decide_eq_true_eq] at hover
  rcases hover with hover | hover
  · obtain rfl : other = [] := hover
    simpa [result] using h.kept
  · match kept with
    | [] => simpa [result] using h.other
    | [k] =>
      rw [result, rising_append]
      refine ⟨h.other, List.pairwise_singleton _ _, ?_⟩
      intro x hx y hy
      obtain rfl : y = k := List.mem_singleton.mp hy
      rcases List.mem_append.mp hx with hx | hx
      · exact (rising_append.mp h.kept).2.2 x hx y hy
      · exact h.last y rfl x hx
    | k :: next :: ks =>
      simp only [List.length_cons] at hover
      omega

end Merging

section Contest

variable {c : Contest α} {patience : ℕ} {kept other : List α}

theorem steps_contest (c : Contest α) (patience : ℕ) (kept other : List α) :
    ∃ m : Merging α, Merging.Steps c ((⟨[], kept, other, patience⟩ : Merging α).placeOther 1) m ∧
      (1 ≤ patience → m.isOver = true) ∧ contest c patience kept other = (m.result, m.patience) := by
  refine ⟨_, Merging.steps_run .., fun hpatience => ?_, rfl⟩
  apply Merging.isOver_run _ hpatience
  exact (Merging.size_placeOther_le ..).trans (Nat.le_succ _)

theorem contest_perm (c : Contest α) (patience : ℕ) (kept other : List α) :
    (contest c patience kept other).1.Perm (kept ++ other) := by
  obtain ⟨m, hsteps, -, heq⟩ := steps_contest c patience kept other
  rw [heq]
  refine hsteps.perm.trans ?_
  rw [Merging.placeOther_result]
  exact List.perm_append_comm

theorem patience_contest (h : 1 ≤ patience) : 1 ≤ (contest c patience kept other).2 := by
  obtain ⟨m, hsteps, -, heq⟩ := steps_contest c patience kept other
  rw [heq]
  exact hsteps.patient h

/-- Two rising runs become one if the first item is another one and the last a kept one. -/
theorem rising_contest (h : 1 ≤ patience)
    (hwins : ∀ o ∈ other, ∀ k ∈ kept, c.wins o k = true ↔ rank o < rank k)
    (hkept : Rising rank kept) (hother : Rising rank other)
    (hfirst : ∀ o, other.head? = some o → ∀ k ∈ kept, rank o ≤ rank k)
    (hlast : ∀ l, kept.getLast? = some l → ∀ o ∈ other, rank o ≤ rank l) :
    Rising rank (contest c patience kept other).1 := by
  obtain ⟨m, hsteps, hover, heq⟩ := steps_contest c patience kept other
  rw [heq]
  apply Merging.Sound.rising_result (c := c) _ (hover h)
  apply hsteps.sound
  have hstart : (⟨[], kept, other, patience⟩ : Merging α).Sound c rank :=
    ⟨hwins, by simpa using hkept, by simpa using hother, hlast⟩
  apply hstart.placeOther
  intro o ho k hk
  apply hfirst o _ k hk
  cases other with
  | nil => simp at ho
  | cons first rest => simpa [eq_comm] using ho

end Contest

section Merge

variable {before : α → α → Bool} {patience : ℕ} {low high : List α}

theorem rising_reverse : Rising rank xs.reverse ↔ Rising (OrderDual.toDual ∘ rank) xs :=
  List.pairwise_reverse

/-- How many items of the lower run come before the first of the upper one. -/
def leadCount (before : α → α → Bool) (first : α) (low : List α) : ℕ :=
  runLength true (fun x => !before first x) low

/-- How many items of the upper run are not after the last of the lower one. -/
def lowerCount (before : α → α → Bool) (last : α) (high : List α) : ℕ :=
  high.length - runLength false (fun x => !before x last) high.reverse

/-- The contest between what is left of two runs, from the end of the shorter one. -/
def contestBetween (before : α → α → Bool) (patience : ℕ) (kept lower : List α) : List α × ℕ :=
  if kept.length ≤ lower.length then contest ⟨true, fun o k => before o k⟩ patience kept lower
  else
    let outcome := contest ⟨false, fun o k => before k o⟩ patience lower.reverse kept.reverse
    (outcome.1.reverse, outcome.2)

theorem merge_eq {first last : α} (hfirst : high.head? = some first)
    (hlast : low.getLast? = some last) : merge before patience low high =
      let kept := low.drop (leadCount before first low)
      let lower := high.take (lowerCount before last high)
      if kept.isEmpty || lower.isEmpty then (low ++ high, patience)
      else
        let outcome := contestBetween before patience kept lower
        (low.take (leadCount before first low) ++ outcome.1 ++
          high.drop (lowerCount before last high), outcome.2) := by
  rw [merge, hfirst, hlast]
  rfl

theorem merge_of_nil (h : low = [] ∨ high = []) :
    merge before patience low high = (low ++ high, patience) := by
  rcases h with rfl | rfl
  · cases high <;> rfl
  · rfl

section Between

variable {kept lower : List α}

theorem contestBetween_perm (before : α → α → Bool) (patience : ℕ) (kept lower : List α) :
    (contestBetween before patience kept lower).1.Perm (kept ++ lower) := by
  unfold contestBetween
  split
  · exact contest_perm _ _ _ _
  · refine (List.reverse_perm _).trans ((contest_perm _ _ _ _).trans ?_)
    rw [← List.reverse_append]
    exact List.reverse_perm _

theorem patience_contestBetween (h : 1 ≤ patience) :
    1 ≤ (contestBetween before patience kept lower).2 := by
  unfold contestBetween
  split
  · exact patience_contest h
  · exact patience_contest h

theorem rising_contestBetween (h : 1 ≤ patience) (hjudges : Judges before rank (kept ++ lower))
    (hkept : Rising rank kept) (hlower : Rising rank lower)
    (hfirst : ∀ o, lower.head? = some o → ∀ k ∈ kept, rank o ≤ rank k)
    (hlast : ∀ l, kept.getLast? = some l → ∀ o ∈ lower, rank o ≤ rank l) :
    Rising rank (contestBetween before patience kept lower).1 := by
  unfold contestBetween
  split
  · apply rising_contest h _ hkept hlower hfirst hlast
    intro o ho k hk
    exact hjudges o (List.mem_append_right _ ho) k (List.mem_append_left _ hk)
  · -- From the upper end the same holds for the opposite order.
    rw [rising_reverse]
    apply rising_contest h
    · intro o ho k hk
      exact hjudges k (List.mem_append_right _ (List.mem_reverse.mp hk)) o
        (List.mem_append_left _ (List.mem_reverse.mp ho))
    · exact rising_reverse.mpr hlower
    · exact rising_reverse.mpr hkept
    · intro o ho k hk
      rw [List.head?_reverse] at ho
      exact hlast o ho k (List.mem_reverse.mp hk)
    · intro l hl o ho
      rw [List.getLast?_reverse] at hl
      exact hfirst l hl o (List.mem_reverse.mp ho)

end Between

theorem merge_perm (before : α → α → Bool) (patience : ℕ) (low high : List α) :
    (merge before patience low high).1.Perm (low ++ high) := by
  by_cases hnil : low = [] ∨ high = []
  · rw [merge_of_nil hnil]
  · obtain ⟨hlow, hhigh⟩ := not_or.mp hnil
    rw [merge_eq (List.head?_eq_some_head hhigh) (List.getLast?_eq_some_getLast hlow)]
    dsimp only
    split
    · exact .refl _
    · refine (((contestBetween_perm ..).append_left _).append_right _).trans ?_
      simp only [List.append_assoc, List.take_append_drop]
      rw [← List.append_assoc, List.take_append_drop]

theorem patience_merge (h : 1 ≤ patience) : 1 ≤ (merge before patience low high).2 := by
  by_cases hnil : low = [] ∨ high = []
  · rwa [merge_of_nil hnil]
  · obtain ⟨hlow, hhigh⟩ := not_or.mp hnil
    rw [merge_eq (List.head?_eq_some_head hhigh) (List.getLast?_eq_some_getLast hlow)]
    dsimp only
    split
    · exact h
    · exact patience_contestBetween h

/-- The lead holds the items that are no higher than the first one of the upper run. -/
theorem lead_splits (before : α → α → Bool) {first : α} (hlow : Rising rank low)
    (hfirst : ∀ x ∈ low, before first x = true ↔ rank first < rank x) :
    (∀ x ∈ low.take (leadCount before first low), rank x ≤ rank first) ∧
      ∀ x ∈ low.drop (leadCount before first low), rank first < rank x := by
  have hkeep : ∀ x ∈ low, (!before first x) = true ↔ rank x ≤ rank first := by
    intro x hx
    rw [Bool.not_eq_true', ← Bool.not_eq_true, hfirst x hx, not_lt]
  obtain ⟨hlead, hkept⟩ := runLength_splits true (fun x => !before first x) (· ≤ rank first)
    (fun x y hle hy => hle.trans hy) hlow hkeep
  exact ⟨hlead, fun x hx => not_le.mp (hkept x hx)⟩

/-- The tail holds the items that are no lower than the last one of the lower run. -/
theorem tail_splits (before : α → α → Bool) {last : α} (hhigh : Rising rank high)
    (hlast : ∀ x ∈ high, before x last = true ↔ rank x < rank last) :
    (∀ x ∈ high.take (lowerCount before last high), rank x < rank last) ∧
      ∀ x ∈ high.drop (lowerCount before last high), rank last ≤ rank x := by
  have hfalls : Rising (OrderDual.toDual ∘ rank) high.reverse := rising_reverse.mpr hhigh
  have hkeep : ∀ x ∈ high.reverse, (!before x last) = true ↔ rank last ≤ rank x := by
    intro x hx
    rw [Bool.not_eq_true', ← Bool.not_eq_true, hlast x (List.mem_reverse.mp hx), not_lt]
  obtain ⟨htail, hlower⟩ := runLength_splits false (fun x => !before x last)
    (fun r => rank last ≤ OrderDual.ofDual r) (fun x y hle hy => le_trans hy hle) hfalls hkeep
  rw [List.take_reverse] at htail
  rw [List.drop_reverse] at hlower
  constructor
  · intro x hx
    exact not_le.mp (hlower x (List.mem_reverse.mpr hx))
  · intro x hx
    exact htail x (List.mem_reverse.mpr hx)

/-- Two runs are cut so that the lead is below the upper run and the tail above the lower one. What
is left has its first item in the upper run and its last in the lower one. -/
structure Cut (rank : α → β) (low high : List α) (m n : ℕ) : Prop where
  lead : ∀ x ∈ low.take m, ∀ y ∈ high, rank x ≤ rank y
  tail : ∀ y ∈ high.drop n, ∀ x ∈ low, rank x ≤ rank y
  first : ∀ o, (high.take n).head? = some o → ∀ k ∈ low.drop m, rank o ≤ rank k
  last : ∀ l, (low.drop m).getLast? = some l → ∀ o ∈ high.take n, rank o ≤ rank l

theorem cut_counts {first last : α} (hjudges : Judges before rank (low ++ high))
    (hlow : Rising rank low) (hhigh : Rising rank high) (hfirst : high.head? = some first)
    (hlast : low.getLast? = some last) :
    Cut rank low high (leadCount before first low) (lowerCount before last high) := by
  obtain ⟨hlead, hkept⟩ := lead_splits before hlow fun x hx =>
    hjudges first (List.mem_append_right _ (List.mem_of_head? hfirst)) x (List.mem_append_left _ hx)
  obtain ⟨hlower, htail⟩ := tail_splits before hhigh fun x hx =>
    hjudges x (List.mem_append_right _ hx) last (List.mem_append_left _ (List.mem_of_getLast? hlast))
  constructor
  case lead =>
    intro x hx y hy
    obtain ⟨rest, rfl⟩ := List.head?_eq_some_iff.mp hfirst
    exact (hlead x hx).trans (hhigh.head_le hy)
  case tail =>
    intro y hy x hx
    exact (hlow.le_getLast hlast hx).trans (htail y hy)
  case first =>
    intro o ho k hk
    rw [List.head?_take] at ho
    split at ho
    · simp at ho
    · obtain rfl : first = o := Option.some.inj (hfirst.symm.trans ho)
      exact (hkept k hk).le
  case last =>
    intro l hl o ho
    rw [List.getLast?_drop] at hl
    split at hl
    · simp at hl
    · obtain rfl : last = l := Option.some.inj (hlast.symm.trans hl)
      exact (hlower o ho).le

/-- If all of the lower run is lead, or all of the upper one is tail, nothing is left to merge. -/
theorem Cut.rising_of_empty {m n : ℕ} (h : Cut rank low high m n) (hlow : Rising rank low)
    (hhigh : Rising rank high) (hempty : low.drop m = [] ∨ high.take n = []) :
    Rising rank (low ++ high) := by
  refine rising_append.mpr ⟨hlow, hhigh, fun x hx y hy => ?_⟩
  rcases hempty with hempty | hempty
  · rw [← List.take_append_drop m low, hempty, List.append_nil] at hx
    exact h.lead x hx y hy
  · rw [← List.take_append_drop n high, hempty, List.nil_append] at hy
    exact h.tail y hy x hx

/-- What is left, once it is merged, stands between the lead and the tail. -/
theorem Cut.rising_assemble {m n : ℕ} {middle : List α} (h : Cut rank low high m n)
    (hlow : Rising rank low) (hhigh : Rising rank high) (hmiddle : Rising rank middle)
    (hmem : ∀ x ∈ middle, x ∈ low.drop m ∨ x ∈ high.take n) :
    Rising rank (low.take m ++ middle ++ high.drop n) := by
  rw [← List.take_append_drop m low, rising_append] at hlow
  rw [← List.take_append_drop n high, rising_append] at hhigh
  obtain ⟨hlead, -, hlow⟩ := hlow
  obtain ⟨-, htail, hhigh⟩ := hhigh
  rw [rising_append, rising_append]
  refine ⟨⟨hlead, hmiddle, fun x hx y hy => ?_⟩, htail, fun x hx y hy => ?_⟩
  · rcases hmem y hy with hy | hy
    · exact hlow x hx y hy
    · exact h.lead x hx y (List.mem_of_mem_take hy)
  · rcases List.mem_append.mp hx with hx | hx
    · exact h.tail y hy x (List.mem_of_mem_take hx)
    · rcases hmem x hx with hx | hx
      · exact h.tail y hy x (List.mem_of_mem_drop hx)
      · exact hhigh x hx y hy

theorem rising_merge (h : 1 ≤ patience) (hjudges : Judges before rank (low ++ high))
    (hlow : Rising rank low) (hhigh : Rising rank high) :
    Rising rank (merge before patience low high).1 := by
  by_cases hnil : low = [] ∨ high = []
  · rw [merge_of_nil hnil]
    rcases hnil with rfl | rfl
    · exact hhigh
    · rwa [List.append_nil]
  · obtain ⟨hlowne, hhighne⟩ := not_or.mp hnil
    have hfirst := List.head?_eq_some_head hhighne
    have hlast := List.getLast?_eq_some_getLast hlowne
    have hcut := cut_counts hjudges hlow hhigh hfirst hlast
    rw [merge_eq hfirst hlast]
    generalize leadCount before _ low = m at hcut ⊢
    generalize lowerCount before _ high = n at hcut ⊢
    dsimp only
    split
    next hempty =>
      rw [Bool.or_eq_true, List.isEmpty_iff, List.isEmpty_iff] at hempty
      exact hcut.rising_of_empty hlow hhigh hempty
    next =>
      have hsub : ∀ x ∈ low.drop m ++ high.take n, x ∈ low ++ high := by
        intro x hx
        rw [List.mem_append] at hx ⊢
        exact hx.imp List.mem_of_mem_drop List.mem_of_mem_take
      have hmiddle := rising_contestBetween h (hjudges.mono hsub)
        (List.Pairwise.sublist (List.drop_sublist m low) hlow)
        (List.Pairwise.sublist (List.take_sublist n high) hhigh) hcut.first hcut.last
      have hperm := contestBetween_perm before patience (low.drop m) (high.take n)
      exact hcut.rising_assemble hlow hhigh hmiddle fun x hx =>
        List.mem_append.mp (hperm.subset hx)

end Merge
end NodeWorkflow.Sorting
