import Mathlib.Tactic.IntervalCases
import NodeWorkflow.Text.Digit

/-!
# Digits

The decimal text of a number is made of digits, which have together the value of the number. Digits
are neither letters nor marks.
-/
namespace NodeWorkflow.Text

variable {c : Char} {d : Nat}

theorem digitValue?_digitChar {d : Nat} (h : d < 10) : digitValue? (Nat.digitChar d) = some d := by
  interval_cases d <;> decide

/-- The digits of a number in decimal have their values, and together that of the number. -/
theorem digits_toDigits (n : Nat) :
    (∀ c ∈ Nat.toDigits 10 n, (digitValue? c).isSome) ∧
      digitsValue ((Nat.toDigits 10 n).filterMap digitValue?) = n := by
  induction n using Nat.strong_induction_on with
  | _ n ih =>
    rcases lt_or_ge n 10 with hn | hn
    · rw [Nat.toDigits_of_lt_base hn]
      simp [digitValue?_digitChar hn, digitsValue]
    · obtain ⟨hall, hvalue⟩ := ih (n / 10) (by omega)
      have hlast : digitValue? (Nat.digitChar (n % 10)) = some (n % 10) :=
        digitValue?_digitChar (by omega)
      rw [Nat.toDigits_of_base_le (by norm_num) hn]
      constructor
      · intro c hc
        rcases List.mem_append.mp hc with hc | hc
        · exact hall c hc
        · rw [List.mem_singleton.mp hc, hlast]
          rfl
      · simp only [digitsValue, List.filterMap_append, List.foldl_append] at hvalue ⊢
        rw [hvalue]
        simp only [List.filterMap_cons, hlast, List.filterMap_nil, List.foldl_cons, List.foldl_nil]
        omega

theorem toNat_of_digitValue? (hc : digitValue? c = some d) :
    48 ≤ c.toNat ∧ c.toNat ≤ 57 ∨ 0x660 ≤ c.toNat := by
  obtain ⟨z, hz, -⟩ := Option.map_eq_some_iff.mp hc
  have hzeros : ∀ z ∈ digitZeros, z = 0x30 ∨ 0x660 ≤ z := by decide
  have hmem := hzeros z (List.mem_of_find?_eq_some hz)
  have hrange := List.find?_some hz
  simp only [Bool.and_eq_true, decide_eq_true_eq] at hrange
  omega

theorem ne_of_digitValue? {mark : Char} (hc : digitValue? c = some d)
    (hmark : digitValue? mark = none) : c ≠ mark := by
  rintro rfl
  exact absurd (hc.symm.trans hmark) (by simp)

theorem toLower_of_digitValue? (hc : digitValue? c = some d) : c.toLower = c := by
  have hrange := toNat_of_digitValue? hc
  refine dif_neg fun hletter => ?_
  have hlow : 65 ≤ c.toNat := hletter.1
  have hhigh : c.toNat ≤ 90 := hletter.2
  omega

/-- A number has at least as many bits as digits. -/
theorem le_log2_of_lt_length {n k : Nat} (hk : 0 < k) (h : k < (Nat.toDigits 10 n).length) :
    k ≤ n.log2 := by
  have hdigits : 10 ^ k ≤ n := by
    by_contra hlt
    have hle := (Nat.length_toDigits_le_iff (by decide) hk).mpr (Nat.lt_of_not_le hlt)
    omega
  have hbits : 2 ^ k ≤ n := (Nat.pow_le_pow_left (by decide) k).trans hdigits
  have hn : n ≠ 0 := Nat.ne_of_gt (Nat.lt_of_lt_of_le (Nat.two_pow_pos k) hbits)
  exact (Nat.le_log2 hn).mpr hbits

theorem toList_toString (n : Int) : (toString n).toList =
    (if n < 0 then ['-'] else []) ++ Nat.toDigits 10 n.natAbs := by
  cases n with
  | ofNat m =>
    have hnonneg : ¬ Int.ofNat m < 0 := by simp
    rw [if_neg hnonneg]
    exact Nat.toList_repr
  | negSucc m =>
    rw [if_pos (Int.negSucc_lt_zero m)]
    have htext : toString (Int.negSucc m) = "-" ++ Nat.repr (m + 1) := rfl
    rw [htext, String.toList_append, Nat.toList_repr]
    rfl

end NodeWorkflow.Text
