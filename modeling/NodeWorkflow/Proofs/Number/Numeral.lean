import Mathlib.Data.List.TakeWhile
import NodeWorkflow.Number.Numeral
import NodeWorkflow.Proofs.Number.Rounding
import NodeWorkflow.Proofs.Text.Digits

/-!
# How integers are written

An integer is read from a run of digits with a sign or without one, if there are not too many
digits, and from no other text; the integer that is read has the value of the digits. Its decimal
text is such a numeral. As a binary number a numeral is rounded from the same value.
-/
namespace NodeWorkflow.Number
open Text

/-- The characters are digits of any script with these values. A single underscore may stand between
two of them. -/
inductive DigitRun : List Char → List Nat → Prop
  | last {c : Char} {d : Nat} (hc : digitValue? c = some d) : DigitRun [c] [d]
  | next {c : Char} {d : Nat} {cs : List Char} {ds : List Nat} (hc : digitValue? c = some d)
      (hrest : DigitRun cs ds) : DigitRun (c :: cs) (d :: ds)
  | gap {c : Char} {d : Nat} {cs : List Char} {ds : List Nat} (hc : digitValue? c = some d)
      (hrest : DigitRun cs ds) : DigitRun (c :: '_' :: cs) (d :: ds)

/-- The characters denote an integer by so many digits. -/
inductive IntegerNumeral : List Char → Int → Nat → Prop
  | unsigned {cs : List Char} {ds : List Nat} (hrun : DigitRun cs ds) :
      IntegerNumeral cs (digitsValue ds) ds.length
  | plus {cs : List Char} {ds : List Nat} (hrun : DigitRun cs ds) :
      IntegerNumeral ('+' :: cs) (digitsValue ds) ds.length
  | minus {cs : List Char} {ds : List Nat} (hrun : DigitRun cs ds) :
      IntegerNumeral ('-' :: cs) (-(digitsValue ds : Int)) ds.length

variable {cs : List Char} {ds : List Nat} {c : Char} {d count : Nat} {n : Int}

theorem DigitRun.exists_cons (h : DigitRun cs ds) :
    ∃ c rest d values, cs = c :: rest ∧ ds = d :: values ∧ digitValue? c = some d := by
  cases h with
  | last hc => exact ⟨_, _, _, _, rfl, rfl, hc⟩
  | next hc => exact ⟨_, _, _, _, rfl, rfl, hc⟩
  | gap hc => exact ⟨_, _, _, _, rfl, rfl, hc⟩

theorem DigitRun.ne_of_mem (h : DigitRun cs ds) (mark : Char) (hmark : digitValue? mark = none)
    (hgap : '_' ≠ mark) : ∀ c ∈ cs, c ≠ mark := by
  induction h with
  | last hc => simp [ne_of_digitValue? hc hmark]
  | next hc _ ih => exact List.forall_mem_cons.mpr ⟨ne_of_digitValue? hc hmark, ih⟩
  | gap hc _ ih =>
    exact List.forall_mem_cons.mpr
      ⟨ne_of_digitValue? hc hmark, List.forall_mem_cons.mpr ⟨hgap, ih⟩⟩

theorem digitRun?_eq_some : digitRun? cs = some ds ↔ DigitRun cs ds := by
  constructor
  · intro h
    fun_induction digitRun? cs generalizing ds with
    | case1 => simp at h
    | case2 c =>
      obtain ⟨d, hc, rfl⟩ := Option.map_eq_some_iff.mp h
      exact .last hc
    | case3 c rest ih =>
      simp only [bind, Option.bind_eq_some_iff, pure, Option.some.injEq] at h
      obtain ⟨d, hc, values, hrest, rfl⟩ := h
      exact .gap hc (ih hrest)
    | case4 c rest hlast hgap ih =>
      simp only [bind, Option.bind_eq_some_iff, pure, Option.some.injEq] at h
      obtain ⟨d, hc, values, hrest, rfl⟩ := h
      exact .next hc (ih hrest)
  · intro h
    induction h with
    | last hc => simp [digitRun?, hc]
    | gap hc _ ih => simp [digitRun?, hc, ih]
    | next hc hrest ih =>
      -- What follows begins with a digit, so that it is neither missing nor an underscore.
      obtain ⟨c, rest, d, values, rfl, rfl, hfirst⟩ := hrest.exists_cons
      have hne : c ≠ '_' := ne_of_digitValue? hfirst (by decide)
      rw [digitRun?]
      · simp [hc, ih]
      · simp
      · simp [hne]

theorem DigitRun.splitSign_eq (h : DigitRun cs ds) : splitSign cs = (false, cs) := by
  obtain ⟨c, rest, d, values, rfl, rfl, hc⟩ := h.exists_cons
  have hminus : c ≠ '-' := ne_of_digitValue? hc (by decide)
  have hplus : c ≠ '+' := ne_of_digitValue? hc (by decide)
  simp [splitSign, hminus, hplus]

/-- A numeral is a sign, if there is one, before a run of digits. -/
theorem integerNumeral_iff : IntegerNumeral cs n count ↔ ∃ negative body ds,
    splitSign cs = (negative, body) ∧ DigitRun body ds ∧ n = signed negative (digitsValue ds) ∧
      count = ds.length := by
  constructor
  · intro h
    cases h with
    | unsigned hrun => exact ⟨false, cs, _, hrun.splitSign_eq, hrun, rfl, rfl⟩
    | plus hrun => exact ⟨false, _, _, rfl, hrun, rfl, rfl⟩
    | minus hrun => exact ⟨true, _, _, rfl, hrun, rfl, rfl⟩
  · rintro ⟨negative, body, ds, hsplit, hrun, rfl, rfl⟩
    unfold splitSign at hsplit
    split at hsplit
    · obtain ⟨rfl, rfl⟩ := Prod.mk.inj hsplit
      exact .minus hrun
    · obtain ⟨rfl, rfl⟩ := Prod.mk.inj hsplit
      exact .plus hrun
    · obtain ⟨rfl, rfl⟩ := Prod.mk.inj hsplit
      exact .unsigned hrun

/-- A text is the numeral of one integer only, by one number of digits. -/
theorem IntegerNumeral.unique {m : Int} {k : Nat} (h : IntegerNumeral cs n count)
    (h' : IntegerNumeral cs m k) : n = m ∧ count = k := by
  obtain ⟨negative, body, ds, hsplit, hrun, rfl, rfl⟩ := integerNumeral_iff.mp h
  obtain ⟨negative', body', ds', hsplit', hrun', rfl, rfl⟩ := integerNumeral_iff.mp h'
  obtain ⟨rfl, rfl⟩ := Prod.mk.inj (hsplit.symm.trans hsplit')
  have heq : some ds = some ds' := by
    rw [← digitRun?_eq_some.mpr hrun, digitRun?_eq_some.mpr hrun']
  rw [Option.some.inj heq]
  exact ⟨rfl, rfl⟩

/-- An integer is read from its numerals of not too many digits, and from nothing else. -/
theorem readInteger_eq_value : readInteger cs = .value n ↔
    ∃ count ≤ integerDigitLimit, IntegerNumeral cs n count := by
  simp only [integerNumeral_iff, readInteger]
  constructor
  · intro h
    split at h
    · simp at h
    next ds hrun =>
      split at h
      · simp at h
      next hshort =>
        obtain rfl := IntegerReading.value.inj h
        exact ⟨_, Nat.le_of_not_lt hshort, _, _, ds, rfl, digitRun?_eq_some.mp hrun, rfl, rfl⟩
  · rintro ⟨count, hcount, negative, body, ds, hsplit, hrun, rfl, rfl⟩
    rw [hsplit]
    simp only [digitRun?_eq_some.mpr hrun, if_neg (Nat.not_lt.mpr hcount)]

example : readInteger "+1_2\u0663".toList = .value 123 := rfl

theorem DigitRun.word?_eq_none (h : DigitRun cs ds) (negative : Bool) :
    word? negative cs = none := by
  obtain ⟨c, rest, d, values, rfl, rfl, hc⟩ := h.exists_cons
  have hhead : ∀ word : String, digitValue? (word.toList.headD 'x') = none →
      String.ofList ((c :: rest).map Char.toLower) ≠ word := by
    rintro word hword rfl
    simp [toLower_of_digitValue? hc, hc] at hword
  rw [word?, if_neg, if_neg]
  · exact hhead _ (by decide)
  · exact not_or.mpr ⟨hhead _ (by decide), hhead _ (by decide)⟩

theorem DigitRun.mantissa?_eq (h : DigitRun cs ds) : mantissa? cs = some (ds, []) := by
  have hpoint : ∀ c ∈ cs, (c != '.') = true := by
    simpa using h.ne_of_mem '.' (by decide) (by decide)
  have hbefore : cs.takeWhile (· != '.') = cs := List.takeWhile_eq_self_iff.mpr hpoint
  have hafter : cs.dropWhile (· != '.') = [] := List.dropWhile_eq_nil_iff.mpr hpoint
  obtain ⟨c, rest, d, values, rfl, rfl, -⟩ := h.exists_cons
  have hwhole : optionalRun? (c :: rest) = some (d :: values) := digitRun?_eq_some.mpr h
  simp only [mantissa?, hbefore, hafter, hwhole]
  rfl

theorem DigitRun.decimal?_eq (h : DigitRun cs ds) : decimal? cs = some (digitsValue ds, 0) := by
  have hmark : ∀ c ∈ cs, (!(c == 'e' || c == 'E')) = true := by
    intro c hc
    simp [h.ne_of_mem 'e' (by decide) (by decide) c hc,
      h.ne_of_mem 'E' (by decide) (by decide) c hc]
  have hbefore := List.takeWhile_eq_self_iff.mpr hmark
  have hafter := List.dropWhile_eq_nil_iff.mpr hmark
  simp only [decimal?, hbefore, hafter, h.mantissa?_eq]
  simp

theorem signed_natAbs (negative : Bool) (m : Nat) : (signed negative m).natAbs = m := by
  cases negative <;> simp [signed]

/-- As a binary number an integer numeral is rounded from its value. -/
theorem IntegerNumeral.exists_readBinary64? (h : IntegerNumeral cs n count) :
    ∃ negative, readBinary64? cs = some (Binary64.ofDecimal negative n.natAbs 0) := by
  obtain ⟨negative, body, ds, hsplit, hrun, rfl, -⟩ := integerNumeral_iff.mp h
  refine ⟨negative, ?_⟩
  simp [readBinary64?, hsplit, hrun.word?_eq_none, hrun.decimal?_eq, signed_natAbs]

theorem representable_readBinary64? {x : Binary64} (h : readBinary64? cs = some x) :
    x.Representable := by
  simp only [readBinary64?] at h
  split at h
  next y hword =>
    obtain rfl := Option.some.inj h
    simp only [word?] at hword
    split at hword
    · obtain rfl := Option.some.inj hword
      trivial
    split at hword
    · obtain rfl := Option.some.inj hword
      trivial
    · simp at hword
  next =>
    obtain ⟨⟨m, e⟩, -, rfl⟩ := Option.map_eq_some_iff.mp h
    exact Binary64.representable_ofDecimal _ m e

theorem DigitRun.of_digits (hne : cs ≠ []) (hcs : ∀ c ∈ cs, (digitValue? c).isSome) :
    DigitRun cs (cs.filterMap digitValue?) := by
  induction cs with
  | nil => exact absurd rfl hne
  | cons c rest ih =>
    obtain ⟨hc, hrest⟩ := List.forall_mem_cons.mp hcs
    obtain ⟨d, hd⟩ := Option.isSome_iff_exists.mp hc
    rw [List.filterMap_cons_some hd]
    by_cases hlast : rest = []
    · subst hlast
      exact .last hd
    · exact .next hd (ih hlast hrest)

/-- The decimal text of an integer denotes it, by as many digits as it has. -/
theorem integerNumeral_toString (n : Int) :
    IntegerNumeral (toString n).toList n (Nat.toDigits 10 n.natAbs).length := by
  obtain ⟨hdigits, hvalue⟩ := digits_toDigits n.natAbs
  have hrun := DigitRun.of_digits Nat.toDigits_ne_nil hdigits
  generalize hds : (Nat.toDigits 10 n.natAbs).filterMap digitValue? = ds at hrun hvalue
  have hlength : (Nat.toDigits 10 n.natAbs).length = ds.length := by
    rw [← hds, List.filterMap_length_eq_length.mpr hdigits]
  rw [toList_toString, hlength]
  split
  next hneg =>
    have hn : n = -(digitsValue ds : Int) := by omega
    nth_rewrite 2 [hn]
    exact .minus hrun
  next hneg =>
    have hn : n = (digitsValue ds : Int) := by omega
    nth_rewrite 2 [hn]
    exact .unsigned hrun

end NodeWorkflow.Number
