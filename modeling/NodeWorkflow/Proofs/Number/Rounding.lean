import Mathlib.Algebra.Order.Ring.Nat
import NodeWorkflow.Number.Binary64

/-!
# The range of rounding

A quotient or a decimal is rounded to a number of the format, with a mantissa of at most 53 bits and
an exponent from -1074 to 971, or it is too large for any such number and becomes infinite.
-/
namespace NodeWorkflow.Number.Binary64

variable {n d m : Nat} {e f : Int}

/-- A finite number has a mantissa of at most 53 bits and an exponent of the format. -/
def Representable : Binary64 → Prop
  | .finite _ m e => m < 2 ^ 53 ∧ -1074 ≤ e ∧ e ≤ 971
  | _ => True

/-- The integer part of `n / d / 2 ^ e`. -/
def scaled (n d : Nat) (e : Int) : Nat := (scaleDown n d e).1 / (scaleDown n d e).2

theorem scaled_natCast (n d k : Nat) : scaled n d k = n / (d * 2 ^ k) := by
  simp [scaled, scaleDown]

theorem scaled_neg_natCast (n d k : Nat) : scaled n d (-k) = n * 2 ^ k / d := by
  cases k with
  | zero => simp [scaled, scaleDown]
  | succ k =>
    have hneg : ¬ (0 : Int) ≤ -((k + 1 : Nat) : Int) := by omega
    simp only [scaled, scaleDown, if_neg hneg]
    simp

theorem scaled_add_one (n d : Nat) (e : Int) : scaled n d (e + 1) = scaled n d e / 2 := by
  rcases Int.eq_nat_or_neg e with ⟨k, rfl | rfl⟩
  · have hsucc : (k : Int) + 1 = ((k + 1 : Nat) : Int) := by omega
    rw [hsucc, scaled_natCast, scaled_natCast, Nat.div_div_eq_div_mul, Nat.mul_assoc, Nat.pow_succ]
  · cases k with
    | zero =>
      rw [show -((0 : Nat) : Int) + 1 = ((1 : Nat) : Int) by rfl, scaled_natCast, scaled_neg_natCast,
        Nat.pow_zero, Nat.mul_one, Nat.pow_one, Nat.div_div_eq_div_mul]
    | succ k =>
      have hpred : -((k + 1 : Nat) : Int) + 1 = -(k : Int) := by omega
      rw [hpred, scaled_neg_natCast, scaled_neg_natCast, Nat.div_div_eq_div_mul, Nat.pow_succ,
        ← Nat.mul_assoc, Nat.mul_div_mul_right _ _ (by decide)]

theorem scaled_le_of_le (h : e ≤ f) : scaled n d f ≤ scaled n d e := by
  obtain ⟨k, rfl⟩ := Int.le.dest h
  induction k with
  | zero => simp
  | succ k ih =>
    have hstep : scaled n d (e + (k + 1 : Nat)) = scaled n d (e + k) / 2 := by
      rw [← scaled_add_one]
      congr 1
      omega
    rw [hstep]
    have hle := ih (by omega)
    omega

theorem scaled_lt (hd : 0 < d) : scaled n d ((n.log2 : Int) - d.log2 - 53) < 2 ^ 54 := by
  have hn : n < 2 ^ (n.log2 + 1) := Nat.lt_log2_self
  have hd' : 2 ^ d.log2 ≤ d := Nat.log2_self_le (Nat.ne_of_gt hd)
  rcases Int.eq_nat_or_neg ((n.log2 : Int) - d.log2 - 53) with ⟨k, hk | hk⟩
  · rw [hk, scaled_natCast]
    apply Nat.div_lt_of_lt_mul
    calc n < 2 ^ (n.log2 + 1) := hn
      _ = 2 ^ d.log2 * 2 ^ k * 2 ^ 54 := by
        rw [← Nat.pow_add, ← Nat.pow_add]
        congr 1
        omega
      _ ≤ d * 2 ^ k * 2 ^ 54 := Nat.mul_le_mul_right _ (Nat.mul_le_mul_right _ hd')
  · rw [hk, scaled_neg_natCast]
    apply Nat.div_lt_of_lt_mul
    calc n * 2 ^ k < 2 ^ (n.log2 + 1) * 2 ^ k :=
          Nat.mul_lt_mul_of_pos_right hn (Nat.pow_pos (by decide))
      _ = 2 ^ d.log2 * 2 ^ 54 := by
        rw [← Nat.pow_add, ← Nat.pow_add]
        congr 1
        omega
      _ ≤ d * 2 ^ 54 := Nat.mul_le_mul_right _ hd'

/-- At the exponent that is chosen the quotient has 53 bits at most. -/
theorem scaled_exponentOf_lt (hd : 0 < d) : scaled n d (exponentOf n d) < 2 ^ 53 := by
  have hlt := scaled_lt (n := n) hd
  simp only [exponentOf]
  split
  next hsmall => exact hsmall
  next =>
    rw [scaled_add_one]
    omega

theorem le_exponentOf (n d : Nat) : (n.log2 : Int) - d.log2 - 53 ≤ exponentOf n d := by
  simp only [exponentOf]
  split <;> omega

theorem roundQuotient_le (n d : Nat) : roundQuotient n d ≤ n / d + 1 := by
  simp only [roundQuotient]
  split <;> omega

/-- Rounding keeps to the exponent that is chosen, or goes to the next one if the mantissa is
carried. -/
theorem exists_ofQuotient (negative : Bool) (hn : n ≠ 0) (hd : 0 < d) : ∃ m e,
    ofQuotient negative n d = (if 971 < e then .infinite negative else .finite negative m e) ∧
      m < 2 ^ 53 ∧ max (exponentOf n d) (-1074) ≤ e := by
  let low := max (exponentOf n d) (-1074)
  let s := scaleDown n d low
  have heq : ofQuotient negative n d =
      let r := if roundQuotient s.1 s.2 = Nat.pow 2 53 then (Nat.pow 2 52, low + 1)
        else (roundQuotient s.1 s.2, low)
      if 971 < r.2 then .infinite negative else .finite negative r.1 r.2 := by
    rw [ofQuotient, if_neg hn]
  have hquotient : s.1 / s.2 < 2 ^ 53 :=
    Nat.lt_of_le_of_lt (scaled_le_of_le (Int.le_max_left ..)) (scaled_exponentOf_lt hd)
  have hround := roundQuotient_le s.1 s.2
  rw [heq]
  by_cases hcarry : roundQuotient s.1 s.2 = Nat.pow 2 53
  · rw [if_pos hcarry]
    exact ⟨Nat.pow 2 52, low + 1, rfl, by decide, by omega⟩
  · rw [if_neg hcarry]
    have hne : roundQuotient s.1 s.2 ≠ 2 ^ 53 := hcarry
    exact ⟨roundQuotient s.1 s.2, low, rfl, by omega, Int.le_refl low⟩

theorem representable_zero (negative : Bool) : (zero negative).Representable :=
  ⟨by decide, by decide, by decide⟩

theorem representable_ofQuotient (negative : Bool) (n : Nat) (hd : 0 < d) :
    (ofQuotient negative n d).Representable := by
  by_cases hn : n = 0
  · rw [ofQuotient, if_pos hn]
    exact representable_zero negative
  · obtain ⟨m, e, heq, hm, he⟩ := exists_ofQuotient negative hn hd
    rw [heq]
    split
    · trivial
    · exact ⟨hm, by omega, by omega⟩

theorem representable_ofDecimal (negative : Bool) (m : Nat) (e : Int) :
    (ofDecimal negative m e).Representable := by
  simp only [ofDecimal]
  split
  · exact representable_zero negative
  split
  · trivial
  split
  · exact representable_zero negative
  split
  · exact representable_ofQuotient negative _ (by decide)
  · exact representable_ofQuotient negative _ (Nat.pow_pos (by decide))

/-- An integer of more than 1025 bits is too large for any number of the format. -/
theorem ofDecimal_of_large (negative : Bool) (h : 1025 ≤ m.log2) :
    ofDecimal negative m 0 = .infinite negative := by
  have hm : m ≠ 0 := by
    rintro rfl
    simp at h
  have hdecimal : ofDecimal negative m 0 = ofQuotient negative m 1 := by
    simp only [ofDecimal, if_neg hm]
    rw [if_neg (by decide), if_neg (by omega), if_pos (by decide)]
    simp
  obtain ⟨k, e, heq, -, he⟩ := exists_ofQuotient negative hm Nat.one_pos
  have hlow := le_exponentOf m 1
  rw [show Nat.log2 1 = 0 by decide] at hlow
  rw [hdecimal, heq, if_pos (by omega)]

end NodeWorkflow.Number.Binary64
