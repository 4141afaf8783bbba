import NodeWorkflow.Parameter.Coercion
import NodeWorkflow.Proofs.Number.Numeral

/-!
# Exactness of numbers

A value that is coerced to a number gives an integer or a finite number of the format, and is then
coerced to itself. Numbers are left as they are. A text gives an integer if and only if an integer
numeral of not too many digits stands in it between blanks, and then the integer is its exact value.
-/
namespace NodeWorkflow
open Number

namespace Text

variable {before body after : List Char}

private theorem dropWhile_blanks (hbefore : ∀ c ∈ before, isBlank c = true) (hne : body ≠ [])
    (hbody : ∀ c ∈ body, isBlank c = false) (after : List Char) :
    (before ++ (body ++ after)).dropWhile isBlank = body ++ after := by
  rw [List.dropWhile_append_of_pos hbefore]
  cases body with
  | nil => exact absurd rfl hne
  | cons c body => simp [hbody c List.mem_cons_self]

theorem trim_surrounded (hbefore : ∀ c ∈ before, isBlank c = true)
    (hafter : ∀ c ∈ after, isBlank c = true) (hne : body ≠ [])
    (hbody : ∀ c ∈ body, isBlank c = false) : trim (before ++ body ++ after) = body := by
  have hfront := dropWhile_blanks hbefore hne hbody after
  have hback : (after.reverse ++ (body.reverse ++ [])).dropWhile isBlank = body.reverse ++ [] :=
    dropWhile_blanks (by simpa using hafter) (List.reverse_ne_nil_iff.mpr hne)
      (by simpa using hbody) []
  rw [trim, List.append_assoc, hfront, List.reverse_append]
  simpa using congrArg List.reverse hback

theorem not_isBlank_toString {n : Int} : ∀ c ∈ (toString n).toList, isBlank c = false := by
  have hdigit : ∀ c ∈ Nat.toDigits 10 n.natAbs, isBlank c = false := by
    intro c hc
    have h := Nat.isDigit_of_mem_toDigits (by decide) (by decide) hc
    have hrange : 48 ≤ c.toNat ∧ c.toNat ≤ 57 := by
      simp only [Char.isDigit, Bool.and_eq_true, decide_eq_true_eq] at h
      exact h
    simp only [isBlank, Bool.or_eq_false_iff, Bool.and_eq_false_iff, decide_eq_false_iff_not,
      beq_eq_false_iff_ne]
    omega
  rw [toList_toString]
  split
  · exact List.forall_mem_cons.mpr ⟨by decide, hdigit⟩
  · exact hdigit

end Text

namespace ParameterType

variable {s : String} {v r : Json} {n : Int} {count : Nat}

theorem finite_eq_ok {x : Binary64} : finite v x = .ok r ↔ r = .float x ∧ x.isFinite = true := by
  unfold finite
  split
  next hx => simp [hx, eq_comm]
  next hx => simp [hx]

/-- What is no integer numeral, or one that is too long, is read as a binary number. -/
theorem numberOfText_of_not_value (h : ∀ n, readInteger (Text.trim s.toList) ≠ .value n) :
    numberOfText s = match readBinary64? (Text.trim s.toList) with
      | some x => finite (.str s) x
      | none => .error (.notNumeral (String.ofList (Text.trim s.toList))) := by
  rw [numberOfText]
  split
  next m hread => exact absurd hread (h m)
  next => rfl

theorem numberOfText_eq_int : numberOfText s = .ok (.int n) ↔
    ∃ count ≤ integerDigitLimit, IntegerNumeral (Text.trim s.toList) n count := by
  rw [← readInteger_eq_value]
  by_cases h : ∃ m, readInteger (Text.trim s.toList) = .value m
  · obtain ⟨m, hread⟩ := h
    simp [numberOfText, hread]
  · push Not at h
    rw [numberOfText_of_not_value h, iff_false_right (h n)]
    split <;> simp [finite_eq_ok]

/-- A text gives an integer or a finite number of the format. -/
theorem numberOfText_cases (h : numberOfText s = .ok r) : (∃ n, r = .int n) ∨
    ∃ x : Binary64, r = .float x ∧ x.isFinite = true ∧ x.Representable := by
  by_cases hread : ∃ m, readInteger (Text.trim s.toList) = .value m
  · obtain ⟨m, hread⟩ := hread
    left
    exact ⟨m, by simpa [numberOfText, hread, eq_comm] using h⟩
  · push Not at hread
    rw [numberOfText_of_not_value hread] at h
    split at h
    next x hx =>
      obtain ⟨hr, hfinite⟩ := finite_eq_ok.mp h
      exact .inr ⟨x, hr, hfinite, representable_readBinary64? hx⟩
    next => simp at h

theorem numberOfText_of_large (h : IntegerNumeral (Text.trim s.toList) n count)
    (hcount : integerDigitLimit < count) (hlarge : 1025 ≤ n.natAbs.log2) :
    numberOfText s = .error (.notFinite (.str s)) := by
  have hread : ∀ m, readInteger (Text.trim s.toList) ≠ .value m := by
    intro m hm
    obtain ⟨k, hk, h'⟩ := readInteger_eq_value.mp hm
    obtain ⟨-, rfl⟩ := h.unique h'
    exact Nat.not_lt.mpr hk hcount
  obtain ⟨negative, hbinary⟩ := h.exists_readBinary64?
  rw [numberOfText_of_not_value hread, hbinary]
  simp [Binary64.ofDecimal_of_large negative hlarge, finite, Binary64.isFinite]

/-- The decimal text of an integer between blanks gives the integer, and it is refused if it has too
many digits. -/
theorem numberOfText_surrounded {before after : String}
    (hbefore : ∀ c ∈ before.toList, Text.isBlank c = true)
    (hafter : ∀ c ∈ after.toList, Text.isBlank c = true) (n : Int) :
    numberOfText (before ++ toString n ++ after) =
      if (Nat.toDigits 10 n.natAbs).length ≤ integerDigitLimit then .ok (.int n)
      else .error (.notFinite (.str (before ++ toString n ++ after))) := by
  have hnumeral := integerNumeral_toString n
  have hne : (toString n).toList ≠ [] := by
    rw [Text.toList_toString]
    simp
  have htrim : Text.trim (before ++ toString n ++ after).toList = (toString n).toList := by
    rw [String.toList_append, String.toList_append]
    exact Text.trim_surrounded hbefore hafter hne Text.not_isBlank_toString
  rw [← htrim] at hnumeral
  split
  next hshort => exact numberOfText_eq_int.mpr ⟨_, hshort, hnumeral⟩
  next hlong =>
    have hcount := Nat.lt_of_not_le hlong
    refine numberOfText_of_large hnumeral hcount ?_
    have hbits := Text.le_log2_of_lt_length (by decide) hcount
    exact Nat.le_trans (by decide) hbits

theorem coerce_str (s : String) : number.coerce (.str s) = numberOfText s := by
  rw [coerce, toNumber]

theorem toNumber_float {x : Binary64} (h : x.isFinite = true) :
    toNumber (.float x) = .ok (.float x) := finite_eq_ok.mpr ⟨rfl, h⟩

theorem eq_of_toNumber (h : toNumber v = .ok r) (hv : ∀ s, v ≠ .str s) :
    r = v ∧ ((∃ n, r = .int n) ∨ ∃ x, r = .float x ∧ x.isFinite = true) := by
  unfold toNumber at h
  split at h
  next s => exact absurd rfl (hv s)
  next n =>
    obtain rfl := Except.ok.inj h
    exact ⟨rfl, .inl ⟨n, rfl⟩⟩
  next x =>
    obtain ⟨rfl, hx⟩ := finite_eq_ok.mp h
    exact ⟨rfl, .inr ⟨x, rfl, hx⟩⟩
  next => simp at h

/-- Coercion to a number gives an integer or a finite number, and a number that it gave it gives
again. What is no text it leaves as it is, and from a text it gives only numbers of the format. A
text gives an integer if and only if, without the blanks around it, it is a numeral of the integer
with 4300 digits at most. So the decimal text of an integer between any blanks gives just this
integer, and with more digits it is refused. -/
theorem number_exact_and_closed :
    (∀ v r, number.coerce v = .ok r →
      ((∃ n, r = .int n) ∨ ∃ x, r = .float x ∧ x.isFinite = true) ∧ number.coerce r = .ok r ∧
        (r = v ∨ ∃ s, v = .str s ∧ ∀ x, r = .float x → x.Representable)) ∧
    (∀ s n, number.coerce (.str s) = .ok (.int n) ↔
      ∃ count ≤ 4300, IntegerNumeral (Text.trim s.toList) n count) ∧
    ∀ (n : Int) (before after : String), (∀ c ∈ before.toList, Text.isBlank c = true) →
      (∀ c ∈ after.toList, Text.isBlank c = true) →
      number.coerce (.str (before ++ toString n ++ after)) =
        if (Nat.toDigits 10 n.natAbs).length ≤ 4300 then .ok (.int n)
        else .error (.notFinite (.str (before ++ toString n ++ after))) := by
  simp only [coerce_str]
  refine ⟨fun v r h => ?_, fun s n => numberOfText_eq_int, fun n before after hbefore hafter =>
    numberOfText_surrounded hbefore hafter n⟩
  have hagain : ((∃ n, r = .int n) ∨ ∃ x, r = .float x ∧ x.isFinite = true) →
      number.coerce r = .ok r := by
    rintro (⟨n, rfl⟩ | ⟨x, rfl, hx⟩)
    · rfl
    · exact toNumber_float hx
  by_cases htext : ∃ s, v = .str s
  · obtain ⟨s, rfl⟩ := htext
    rw [coerce_str] at h
    rcases numberOfText_cases h with ⟨n, rfl⟩ | ⟨x, rfl, hx, hformat⟩
    · exact ⟨.inl ⟨n, rfl⟩, hagain (.inl ⟨n, rfl⟩), .inr ⟨s, rfl, by simp⟩⟩
    · refine ⟨.inr ⟨x, rfl, hx⟩, hagain (.inr ⟨x, rfl, hx⟩), .inr ⟨s, rfl, fun y hy => ?_⟩⟩
      obtain rfl : x = y := by simpa using hy
      exact hformat
  · push Not at htext
    obtain ⟨heq, hnumber⟩ := eq_of_toNumber h htext
    exact ⟨hnumber, hagain hnumber, .inl heq⟩

/-- A long integer between blanks of several kinds, and a decimal with an exponent. -/
theorem number_exact_of_texts :
    let n : Int := -123456789012345678901
    let x : Binary64 := .finite false 8796093022208000 (-43)
    (Nat.toDigits 10 n.natAbs).length = 21 ∧
      number.coerce (.str ("\t\u00a0" ++ toString n ++ "\u2003\n")) = .ok (.int n) ∧
      number.coerce (.str " 1e3") = .ok (.float x) ∧ number.coerce (.float x) = .ok (.float x) := by
  intro n x
  have hlength : (Nat.toDigits 10 n.natAbs).length = 21 := by decide +kernel
  have hx : number.coerce (.str " 1e3") = .ok (.float x) := by rfl
  have hbefore : ∀ c ∈ "\t\u00a0".toList, Text.isBlank c = true := List.all_eq_true.mp rfl
  have hafter : ∀ c ∈ "\u2003\n".toList, Text.isBlank c = true := List.all_eq_true.mp rfl
  refine ⟨hlength, ?_, hx, (number_exact_and_closed.1 _ _ hx).2.1⟩
  rw [number_exact_and_closed.2.2 n _ _ hbefore hafter, hlength]
  rfl

end ParameterType
end NodeWorkflow
