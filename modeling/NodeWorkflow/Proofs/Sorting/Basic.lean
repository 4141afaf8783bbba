import NodeWorkflow.Proofs.Sorting.Merge
import NodeWorkflow.Sorting.Basic

/-!
# What is sorted rises

The runs on the pile hold the items of the list at all times, and each of them rises if the test
compares ranks. When one run is left it is the list, sorted.
-/
namespace NodeWorkflow.Sorting

variable {α β γ δ : Type} [LinearOrder β] {before : α → α → Bool} {rank : α → β}
  {items : List α} {first second top : Stretch α} {pile : List (Stretch α)}

section Yields

variable {good : γ → Prop} {fine : δ → Prop} {x : Merges γ} {f : γ → Merges δ} {a : γ}

/-- With any patience the result has a property, and patience is left. -/
def Yields (x : Merges γ) (good : γ → Prop) : Prop :=
  ∀ patience, 1 ≤ patience → good (x.run patience).1 ∧ 1 ≤ (x.run patience).2

theorem Yields.pure (h : good a) : Yields (pure a) good := fun _ hpatience => ⟨h, hpatience⟩

theorem Yields.bind (hx : Yields x good) (hf : ∀ a, good a → Yields (f a) fine) :
    Yields (x >>= f) fine := by
  intro patience hpatience
  obtain ⟨hgood, hleft⟩ := hx patience hpatience
  exact hf _ hgood _ hleft

end Yields

/-- A list holds the given items, and its ranks rise if it is these that the test compares. -/
structure Arranges (before : α → α → Bool) (rank : α → β) (items out : List α) : Prop where
  perm : out.Perm items
  orderly : Orderly before rank out

theorem Arranges.trans {more out : List α} (h : Arranges before rank items out)
    (hperm : items.Perm more) : Arranges before rank more out :=
  ⟨h.perm.trans hperm, h.orderly⟩

/-- The stretches of a pile are orderly and hold the given items. -/
structure Piled (before : α → α → Bool) (rank : α → β) (items : List α)
    (pile : List (Stretch α)) : Prop where
  perm : (pile.flatMap Stretch.items).Perm items
  orderly : ∀ s ∈ pile, Orderly before rank s.items

theorem yields_join (h : Orderly before rank first.items) (h' : Orderly before rank second.items) :
    Yields (join before first second) fun s =>
      Arranges before rank (first.items ++ second.items) s.items := by
  intro patience hpatience
  have hrun : (join before first second).run patience =
      (⟨first.start, (merge before patience first.items second.items).1, second.power⟩,
        (merge before patience first.items second.items).2) := rfl
  rw [hrun]
  have hperm := merge_perm before patience first.items second.items
  refine ⟨⟨hperm, fun hjudges => ?_⟩, patience_merge hpatience⟩
  have hall := hjudges.mono hperm.symm.subset
  apply rising_merge hpatience hall
  · exact h (hall.mono (List.subset_append_left _ _))
  · exact h' (hall.mono (List.subset_append_right _ _))

theorem Piled.yields_join (above : List (Stretch α))
    (h : Piled before rank items (above ++ second :: first :: pile)) :
    Yields (join before first second) fun s => Piled before rank items (above ++ s :: pile) := by
  obtain ⟨hperm, horderly⟩ := h
  simp only [List.flatMap_append, List.flatMap_cons] at hperm
  simp only [List.forall_mem_append, List.forall_mem_cons] at horderly
  obtain ⟨habove, hsecond, hfirst, hpile⟩ := horderly
  intro patience hpatience
  obtain ⟨hs, hleft⟩ := Sorting.yields_join hfirst hsecond patience hpatience
  refine ⟨⟨?_, ?_⟩, hleft⟩
  · rw [List.flatMap_append, List.flatMap_cons]
    refine .trans (.append_left _ ?_) hperm
    rw [← List.append_assoc]
    exact (hs.perm.trans List.perm_append_comm).append_right _
  · simp only [List.forall_mem_append, List.forall_mem_cons]
    exact ⟨habove, hs.orderly, hpile⟩

theorem yields_collapse (power : ℕ) (h : Piled before rank items (top :: pile)) :
    Yields (collapse before power top pile) fun r => Piled before rank items (r.1 :: r.2) := by
  induction pile generalizing top with
  | nil => exact .pure h
  | cons below pile ih =>
    rw [collapse]
    split
    · exact (Piled.yields_join [] h).bind fun s hs => ih hs
    · exact .pure h

theorem Piled.arranges (h : Piled before rank items [top]) :
    Arranges before rank items top.items := by
  refine ⟨?_, h.orderly top List.mem_cons_self⟩
  have hperm := h.perm
  rwa [List.flatMap_singleton] at hperm

theorem yields_finish (h : Piled before rank items (top :: pile)) :
    Yields (finish before top pile) (Arranges before rank items) := by
  induction hlength : pile.length generalizing top pile with
  | zero =>
    obtain rfl := List.length_eq_zero_iff.mp hlength
    rw [finish]
    exact .pure h.arranges
  | succ n ih =>
    obtain ⟨below, pile, rfl⟩ := List.exists_cons_of_length_eq_add_one hlength
    cases pile with
    | nil =>
      rw [finish]
      exact (Piled.yields_join [] h).bind fun s hs => .pure hs.arranges
    | cons third pile =>
      rw [finish]
      split
      · exact (Piled.yields_join [top] h).bind fun s hs => ih hs (by simpa using hlength)
      · exact (Piled.yields_join [] h).bind fun s hs => ih hs (by simpa using hlength)

theorem yields_pileUp {later : List (List α)} (total : ℕ)
    (h : Piled before rank items (top :: pile)) (hlater : ∀ run ∈ later, Orderly before rank run) :
    Yields (pileUp before total top pile later)
      (Arranges before rank (items ++ later.flatten)) := by
  induction later generalizing items top pile with
  | nil =>
    rw [pileUp, List.flatten_nil, List.append_nil]
    exact yields_finish h
  | cons next later ih =>
    obtain ⟨hnext, hlater⟩ := List.forall_mem_cons.mp hlater
    rw [pileUp, List.flatten_cons, ← List.append_assoc]
    apply (yields_collapse _ h).bind
    rintro ⟨top, pile⟩ ⟨hperm, horderly⟩
    refine ih ⟨?_, ?_⟩ hlater
    · simp only [List.flatMap_cons] at hperm ⊢
      exact List.perm_append_comm.trans (hperm.append_right next)
    · simp only [List.forall_mem_cons] at horderly ⊢
      exact ⟨hnext, horderly⟩

theorem arranges_sort (before : α → α → Bool) (rank : α → β) (xs : List α) :
    Arranges before rank xs (sort before xs) := by
  have hperm : (runs before (leastRun xs.length 0 xs.length) xs.length xs).flatten.Perm xs :=
    flatten_runs_perm le_rfl
  have horderly := orderly_runs before rank (leastRun xs.length 0 xs.length) xs.length xs
  unfold sort
  split
  next hruns =>
    rw [hruns] at hperm
    exact ⟨hperm, fun _ => .nil⟩
  next first later hruns =>
    rw [hruns] at hperm horderly
    obtain ⟨hfirst, hlater⟩ := List.forall_mem_cons.mp horderly
    have hpile : Piled before rank first [⟨0, first, 0⟩] := ⟨by simp, by simpa using hfirst⟩
    have hlong : 1 ≤ Merging.longStretch := by decide
    exact (yields_pileUp xs.length hpile hlater _ hlong).1.trans hperm

/-- Sorting keeps all items, whatever the test. -/
theorem sort_perm (before : α → α → Bool) (xs : List α) : (sort before xs).Perm xs :=
  (arranges_sort before (fun _ => 0) xs).perm

/-- What is sorted by a test that compares ranks is in the order of these. -/
theorem rising_sort {xs : List α} (h : Judges before rank xs) : Rising rank (sort before xs) :=
  (arranges_sort before rank xs).orderly (h.mono (sort_perm before xs).subset)

end NodeWorkflow.Sorting
