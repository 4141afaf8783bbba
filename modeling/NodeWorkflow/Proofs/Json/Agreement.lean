import Mathlib.Algebra.Order.Field.Rat
import Mathlib.Algebra.Order.Field.Power
import Mathlib.Tactic.Ring
import NodeWorkflow.Json.Basic

/-!
# Agreement of keys

Numbers and truth values agree when they denote one rational number, whatever mantissa, exponent and
form they are given in. So keys fall into kinds, and two keys agree if and only if they have a kind
in common: agreement is symmetric and transitive, and it is equality on texts and on integers.
-/
namespace NodeWorkflow

namespace Number.Binary64

def rational (negative : Bool) (m : Nat) (e : Int) : ℚ :=
  (if negative then -(m : ℚ) else m) * 2 ^ e

theorem aligned_mul (negative : Bool) (m : Nat) {e low : Int} (h : low ≤ e) :
    (aligned negative m e low : ℚ) * 2 ^ low = rational negative m e := by
  have hpow : ((2 : ℚ) ^ (e - low).toNat) * 2 ^ low = 2 ^ e := by
    rw [← zpow_natCast, ← zpow_add₀ (by norm_num : (2 : ℚ) ≠ 0)]
    congr 1
    omega
  cases negative
  · simp only [aligned, rational, Bool.false_eq_true, if_false, Nat.pow_eq]
    push_cast
    rw [mul_assoc, hpow]
  · simp only [aligned, rational, if_true, Nat.pow_eq]
    push_cast
    rw [neg_mul, neg_mul, mul_assoc, hpow]

theorem same_finite (a b : Bool) (m n : Nat) (e f : Int) :
    same (.finite a m e) (.finite b n f) = true ↔ rational a m e = rational b n f := by
  have hlow : (2 : ℚ) ^ min e f ≠ 0 := zpow_ne_zero _ (by norm_num)
  rw [← aligned_mul a m (min_le_left e f), ← aligned_mul b n (min_le_right e f),
    mul_left_inj' hlow, Int.cast_inj]
  simp [same]

theorem sameInt_finite (a : Bool) (m : Nat) (e n : Int) :
    sameInt (.finite a m e) n = true ↔ rational a m e = n := by
  have hlow : (2 : ℚ) ^ min e 0 ≠ 0 := zpow_ne_zero _ (by norm_num)
  have hint : ((n * 2 ^ (-min e 0).toNat : Int) : ℚ) * 2 ^ min e 0 = n := by
    have hpow : ((2 : ℚ) ^ (-min e 0).toNat) * 2 ^ min e 0 = 1 := by
      rw [← zpow_natCast, ← zpow_add₀ (by norm_num : (2 : ℚ) ≠ 0)]
      rw [show (((-min e 0).toNat : Nat) : Int) + min e 0 = 0 by omega, zpow_zero]
    push_cast
    rw [mul_assoc, hpow, mul_one]
  rw [← aligned_mul a m (min_le_left e 0)]
  conv_rhs => rw [← hint]
  rw [mul_left_inj' hlow, Int.cast_inj]
  simp [sameInt]

end Number.Binary64

namespace Scalar
open Number

/-- What scalars that are one key have in common. -/
inductive Kind where
  | null
  | number (q : ℚ)
  | infinite (negative : Bool)
  /-- The one thing in JSON text that is not a number. -/
  | oddity
  | text (s : String)

/-- The kind of a binary number; what is not a number, and no literal of it, is of no kind. -/
def binaryKind? : Binary64 → Option Kind
  | .finite negative m e => some (.number (Binary64.rational negative m e))
  | .infinite negative => some (.infinite negative)
  | .nan literal => if literal then some .oddity else none

def kind? : Scalar → Option Kind
  | .null => some .null
  | .bool b => some (.number (if b then 1 else 0))
  | .int n => some (.number n)
  | .float x => binaryKind? x
  | .str s => some (.text s)

private theorem sameInt_iff (x : Binary64) (n : Int) :
    x.sameInt n = true ↔ binaryKind? x = some (.number n) := by
  rcases x with literal | negative | ⟨negative, m, e⟩
  · cases literal <;> simp [Binary64.sameInt, binaryKind?]
  · simp [Binary64.sameInt, binaryKind?]
  · simp [Binary64.sameInt_finite, binaryKind?]

private theorem agrees_float_iff (x y : Binary64) :
    (Scalar.float x).agrees (.float y) = true ↔
      ∃ k, binaryKind? x = some k ∧ binaryKind? y = some k := by
  rcases x with p | p | ⟨p, m, e⟩ <;> rcases y with q | q | ⟨q, n, f⟩
  case finite.finite =>
    simp only [agrees, same, Binary64.same_finite, binaryKind?, Option.some.injEq]
    constructor
    · intro h
      exact ⟨_, rfl, by rw [h]⟩
    · rintro ⟨k, rfl, h⟩
      exact (Kind.number.inj h).symm
  all_goals cases p <;> cases q <;> simp [agrees, same, Binary64.same, binaryKind?]

private theorem binaryKind?_ne (x : Binary64) (s : String) :
    binaryKind? x ≠ some .null ∧ binaryKind? x ≠ some (.text s) := by
  rcases x with p | p | p <;> cases p <;> simp [binaryKind?]

private theorem common_kind_iff (k l : Kind) :
    (∃ j, some k = some j ∧ some l = some j) ↔ k = l := by
  constructor
  · rintro ⟨j, hk, hl⟩
    exact Option.some.inj (hk.trans hl.symm)
  · rintro rfl
    exact ⟨k, rfl, rfl⟩

private theorem kind?_of_int? {a : Scalar} {m : Int} (h : a.int? = some m) :
    a.kind? = some (.number m) := by
  rcases a with _ | p | i | x | s
  case bool =>
    cases p <;> (rw [← Option.some.inj h]; simp [kind?])
  case int => rw [← Option.some.inj h]; rfl
  all_goals simp [int?] at h

private theorem agrees_int_iff (m n : Int) {a b : Scalar} (ha : a.int? = some m)
    (hb : b.int? = some n) : a.agrees b = true ↔ ∃ k, a.kind? = some k ∧ b.kind? = some k := by
  rw [kind?_of_int? ha, kind?_of_int? hb, common_kind_iff, Kind.number.injEq, Int.cast_inj]
  cases a <;> cases b <;> simp_all [int?, agrees, same]

/-- Two keys agree if and only if they have a kind in common. -/
theorem agrees_iff (a b : Scalar) :
    a.agrees b = true ↔ ∃ k, a.kind? = some k ∧ b.kind? = some k := by
  cases a with
  | float x => cases b with
    | float y => exact agrees_float_iff x y
    | null => simp [agrees, same, int?, kind?, (binaryKind?_ne x "").1]
    | str t => simp [agrees, same, int?, kind?, (binaryKind?_ne x t).2]
    | bool q => cases q <;> simp [agrees, same, int?, kind?, sameInt_iff]
    | int n => simp [agrees, same, int?, kind?, sameInt_iff]
  | null => cases b with
    | float y => simp [agrees, same, int?, kind?, (binaryKind?_ne y "").1]
    | _ => simp [agrees, same, int?, kind?]
  | str s => cases b with
    | float y => simp [agrees, same, int?, kind?, (binaryKind?_ne y s).2]
    | str t => simpa [agrees, same, kind?] using eq_comm
    | _ => simp [agrees, same, int?, kind?]
  | bool p => cases b with
    | float y => cases p <;> simp [agrees, same, int?, kind?, sameInt_iff]
    | bool | int => exact agrees_int_iff _ _ rfl rfl
    | _ => simp [agrees, same, int?, kind?]
  | int m => cases b with
    | float y => simp [agrees, same, int?, kind?, sameInt_iff]
    | bool | int => exact agrees_int_iff _ _ rfl rfl
    | _ => simp [agrees, same, int?, kind?]

@[simp] theorem agrees_str (s t : String) : (Scalar.str s).agrees (.str t) = (s == t) := rfl

@[simp] theorem agrees_int (m n : Int) : (Scalar.int m).agrees (.int n) = (m == n) := rfl

/-- A key agrees with a text only if it is that text. -/
theorem agrees_str_iff {a : Scalar} {s : String} : a.agrees (.str s) = true ↔ a = .str s := by
  cases a <;> simp [agrees, same, int?]

theorem agrees_symm {a b : Scalar} (h : a.agrees b = true) : b.agrees a = true := by
  obtain ⟨k, ha, hb⟩ := (agrees_iff a b).mp h
  exact (agrees_iff b a).mpr ⟨k, hb, ha⟩

theorem agrees_trans {a b c : Scalar} (hab : a.agrees b = true) (hbc : b.agrees c = true) :
    a.agrees c = true := by
  obtain ⟨k, ha, hb⟩ := (agrees_iff a b).mp hab
  obtain ⟨l, hb', hc⟩ := (agrees_iff b c).mp hbc
  have hkl : k = l := Option.some.inj (hb.symm.trans hb')
  exact (agrees_iff a c).mpr ⟨k, ha, hkl ▸ hc⟩

theorem same_eq_false {a : Scalar} (h : a.same a = false) (b : Scalar) : a.same b = false := by
  cases a with
  | float x => cases x with
    | nan literal => cases b <;> simp [same, Binary64.same, Binary64.sameInt, int?]
    | infinite negative => simp [same, Binary64.same] at h
    | finite negative m e => simp [same, Binary64.same] at h
  | _ => simp [same, int?] at h

end Scalar
end NodeWorkflow
