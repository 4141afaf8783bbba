import Mathlib.Data.List.Forall2
import Mathlib.Data.List.TakeWhile
import Mathlib.Data.Nat.Digits.Defs
import NodeWorkflow.Path.Basic
import NodeWorkflow.Proofs.Outcome

/-!
# The grammar of paths

A path is spelled as its segments with dots between them, and a segment as its name or as its name
with a numeral in brackets. Reading gives a path for every spelling of it whose numerals are not too
long. It also gives one where a line break follows a closing bracket, and for no other text.
-/
namespace NodeWorkflow

def Nameable (name : String) : Prop := name ≠ "" ∧ ∀ c ∈ name.toList, Segment.isMark c = false

namespace Text

/-- The characters are decimal digits of any script, one at least, with the number as their
value. -/
def IsNumeral (digits : List Char) (n : Nat) : Prop :=
  ∃ values : List Nat, values ≠ [] ∧ digits.map digitValue? = values.map some ∧
    n = Nat.ofDigits 10 values.reverse

theorem digitsValue_eq (values : List Nat) :
    digitsValue values = Nat.ofDigits 10 values.reverse := by
  simp [digitsValue, Nat.ofDigits_eq_foldr, add_comm]

theorem digitValue?_bracket : digitValue? ']' = none := by decide

theorem map_digitValue?_eq {digits : List Char} (h : ∀ c ∈ digits, Segment.isDigit c = true) :
    digits.map digitValue? = (digits.filterMap digitValue?).map some := by
  induction digits with
  | nil => rfl
  | cons c digits ih =>
    obtain ⟨hc, hdigits⟩ := List.forall_mem_cons.mp h
    obtain ⟨d, hd⟩ := Option.isSome_iff_exists.mp hc
    simp [hd, ih hdigits]

theorem filterMap_digitValue?_eq {digits : List Char} {values : List Nat}
    (h : digits.map digitValue? = values.map some) : digits.filterMap digitValue? = values := by
  have hid : digits.filterMap digitValue? = (digits.map digitValue?).filterMap id := by
    simp [List.filterMap_map]
  rw [hid, h]
  simp [List.filterMap_map]

theorem isDigit_of_map_eq {digits : List Char} {values : List Nat}
    (h : digits.map digitValue? = values.map some) : ∀ c ∈ digits, Segment.isDigit c = true := by
  intro c hc
  obtain ⟨d, -, hd⟩ := List.mem_map.mp (h ▸ List.mem_map_of_mem hc : digitValue? c ∈ values.map some)
  simp [Segment.isDigit, ← hd]

theorem IsNumeral.isDigit {digits : List Char} {n : Nat} (h : IsNumeral digits n) :
    ∀ c ∈ digits, Segment.isDigit c = true := by
  obtain ⟨values, -, hmap, -⟩ := h
  exact isDigit_of_map_eq hmap

end Text

namespace Segment
open Text

variable {name text : String} {cs rest digits : List Char} {values : List Nat} {s : Segment}

def bracketed (name : String) (digits : List Char) : List Char :=
  name.toList ++ '[' :: (digits ++ [']'])

/-- How a segment is spelled: by its name, with a numeral in brackets if there is an index. -/
inductive SpelledAs : Segment → List Char → Prop
  | name {name : String} (hname : Nameable name) : SpelledAs ⟨name, none⟩ name.toList
  | item {name : String} {index : Nat} {digits : List Char} (hname : Nameable name)
      (hdigits : IsNumeral digits index) : SpelledAs ⟨name, some index⟩ (bracketed name digits)

/-- From what a segment is read: a spelling without too many digits, where a line break may follow
the bracket. -/
inductive ReadFrom : Segment → List Char → Prop
  | name {name : String} (hname : Nameable name) : ReadFrom ⟨name, none⟩ name.toList
  | item {name : String} {index : Nat} {digits : List Char} (hname : Nameable name)
      (hdigits : IsNumeral digits index) (hshort : digits.length ≤ Number.integerDigitLimit) :
      ReadFrom ⟨name, some index⟩ (bracketed name digits)
  | broken {name : String} {index : Nat} {digits : List Char} (hname : Nameable name)
      (hdigits : IsNumeral digits index) (hshort : digits.length ≤ Number.integerDigitLimit) :
      ReadFrom ⟨name, some index⟩ (bracketed name digits ++ ['\n'])

theorem indexDigits?_eq_some : indexDigits? cs = some values ↔ values ≠ [] ∧
    ∃ digits : List Char, digits.map digitValue? = values.map some ∧
      (cs = digits ++ [']'] ∨ cs = digits ++ [']', '\n']) := by
  constructor
  · intro h
    unfold indexDigits? at h
    dsimp only at h
    split at h
    next hcond =>
      obtain ⟨hne, hrest⟩ : cs.takeWhile isDigit ≠ [] ∧
          (cs.dropWhile isDigit = [']'] ∨ cs.dropWhile isDigit = [']', '\n']) := by
        simpa using hcond
      obtain rfl := Option.some.inj h
      have hmap := map_digitValue?_eq fun c (hc : c ∈ cs.takeWhile isDigit) =>
        List.mem_takeWhile_imp hc
      refine ⟨fun hnil => hne ?_, _, hmap, ?_⟩
      · rwa [hnil, List.map_nil, List.map_eq_nil_iff] at hmap
      · refine hrest.imp (fun hrest => ?_) fun hrest => ?_ <;>
          rw [← hrest, List.takeWhile_append_dropWhile]
    next => simp at h
  · rintro ⟨hne, digits, hmap, hcs⟩
    have hdigits := isDigit_of_map_eq hmap
    have hbracket : isDigit ']' = false := by simp [isDigit, digitValue?_bracket]
    have hdigits_ne : digits ≠ [] := by
      rintro rfl
      exact hne (List.map_eq_nil_iff.mp hmap.symm)
    rcases hcs with rfl | rfl <;>
      simp [indexDigits?, List.takeWhile_append_of_pos hdigits, List.dropWhile_append_of_pos hdigits,
        hbracket, hdigits_ne, filterMap_digitValue?_eq hmap]

theorem split?_name (h : Nameable name) : split? name.toList = some (name, none) := by
  have hmarks : ∀ c ∈ name.toList, (!isMark c) = true := by simpa using h.2
  have hne : name.toList ≠ [] := by simpa using h.1
  simp [split?, List.takeWhile_eq_self_iff.mpr hmarks, List.dropWhile_eq_nil_iff.mpr hmarks, hne]

theorem split?_bracket (h : Nameable name) (rest : List Char) :
    split? (name.toList ++ '[' :: rest) = (indexDigits? rest).map fun values => (name, some values) := by
  have hmarks : ∀ c ∈ name.toList, (!isMark c) = true := by simpa using h.2
  have hne : name.toList ≠ [] := by simpa using h.1
  have hbracket : (!isMark '[') = false := by decide
  simp [split?, List.takeWhile_append_of_pos hmarks, List.dropWhile_append_of_pos hmarks, hbracket, hne]

theorem exists_of_split? {index : Option (List Nat)} (h : split? cs = some (name, index)) :
    Nameable name ∧ (cs = name.toList ∨ ∃ rest, cs = name.toList ++ '[' :: rest) := by
  have hsplit := (List.takeWhile_append_dropWhile (p := (!isMark ·)) (l := cs)).symm
  unfold split? at h
  dsimp only at h
  split at h
  · simp at h
  next hne =>
    rw [List.isEmpty_iff] at hne
    have hname : Nameable (String.ofList (cs.takeWhile (!isMark ·))) := by
      refine ⟨by simpa using hne, fun c hc => ?_⟩
      rw [String.toList_ofList] at hc
      simpa using List.mem_takeWhile_imp hc
    split at h
    next hrest =>
      obtain ⟨rfl, -⟩ := Prod.mk.inj (Option.some.inj h)
      refine ⟨hname, .inl ?_⟩
      rw [String.toList_ofList]
      simpa [hrest] using hsplit
    next rest hrest =>
      obtain ⟨_, -, heq⟩ := Option.map_eq_some_iff.mp h
      obtain ⟨rfl, -⟩ := Prod.mk.inj heq
      refine ⟨hname, .inr ⟨rest, ?_⟩⟩
      rwa [String.toList_ofList, ← hrest]
    next => simp at h

theorem split?_eq_item : split? cs = some (name, some values) ↔ Nameable name ∧ values ≠ [] ∧
    ∃ digits : List Char, digits.map digitValue? = values.map some ∧
      (cs = bracketed name digits ∨ cs = bracketed name digits ++ ['\n']) := by
  constructor
  · intro h
    obtain ⟨hname, rfl | ⟨rest, rfl⟩⟩ := exists_of_split? h
    · simp [split?_name hname] at h
    · rw [split?_bracket hname, Option.map_eq_some_iff] at h
      obtain ⟨read, hindex, heq⟩ := h
      obtain rfl : read = values := by simpa using heq
      obtain ⟨hne, digits, hmap, hrest⟩ := indexDigits?_eq_some.mp hindex
      refine ⟨hname, hne, digits, hmap, ?_⟩
      rcases hrest with rfl | rfl <;> simp [bracketed]
  · rintro ⟨hname, hne, digits, hmap, hcs⟩
    have hindex {rest : List Char} (hrest : rest = digits ++ [']'] ∨ rest = digits ++ [']', '\n']) :
        split? (name.toList ++ '[' :: rest) = some (name, some values) := by
      rw [split?_bracket hname, indexDigits?_eq_some.mpr ⟨hne, digits, hmap, hrest⟩, Option.map_some]
    rcases hcs with rfl | rfl
    · exact hindex (.inl rfl)
    · simpa [bracketed] using hindex (.inr rfl)

theorem parse_eq_ok : parse text cs = .ok s ↔ s.ReadFrom cs := by
  constructor
  · intro h
    unfold parse at h
    split at h
    · simp at h
    next name hsplit =>
      obtain rfl := Except.ok.inj h
      obtain ⟨hname, rfl | ⟨rest, rfl⟩⟩ := exists_of_split? hsplit
      · exact .name hname
      · simp [split?_bracket hname] at hsplit
    next name values hsplit =>
      split at h
      · simp at h
      next hshort =>
        obtain rfl := Except.ok.inj h
        obtain ⟨hname, hne, digits, hmap, hcs⟩ := split?_eq_item.mp hsplit
        have hnumeral : IsNumeral digits (digitsValue values) :=
          ⟨values, hne, hmap, digitsValue_eq values⟩
        have hlength : digits.length = values.length := by simpa using congrArg List.length hmap
        have hdigits : digits.length ≤ Number.integerDigitLimit := hlength ▸ not_lt.mp hshort
        rcases hcs with rfl | rfl
        · exact .item hname hnumeral hdigits
        · exact .broken hname hnumeral hdigits
  · intro h
    have hitem {name : String} {index : Nat} {digits : List Char} (hname : Nameable name)
        (hdigits : IsNumeral digits index) (hshort : digits.length ≤ Number.integerDigitLimit)
        (hcs : cs = bracketed name digits ∨ cs = bracketed name digits ++ ['\n']) :
        parse text cs = .ok ⟨name, some index⟩ := by
      obtain ⟨values, hne, hmap, rfl⟩ := hdigits
      have hlength : digits.length = values.length := by simpa using congrArg List.length hmap
      have hsplit := split?_eq_item.mpr ⟨hname, hne, digits, hmap, hcs⟩
      simp only [parse, hsplit, if_neg (hlength ▸ hshort).not_gt, digitsValue_eq]
    cases h with
    | name hname => simp only [parse, split?_name hname]
    | item hname hdigits hshort => exact hitem hname hdigits hshort (.inl rfl)
    | broken hname hdigits hshort => exact hitem hname hdigits hshort (.inr rfl)

theorem SpelledAs.ne_nil (h : s.SpelledAs cs) : cs ≠ [] := by
  cases h with
  | name hname => simpa using hname.1
  | item hname hdigits => simp [bracketed]

theorem SpelledAs.no_dot (h : s.SpelledAs cs) : '.' ∉ cs := by
  have hmark {name : String} (hname : Nameable name) : '.' ∉ name.toList := fun hmem => by
    simpa [isMark] using hname.2 _ hmem
  cases h with
  | name hname => exact hmark hname
  | @item name index digits hname hdigits =>
    have hdot : '.' ∉ digits := fun hmem => absurd (hdigits.isDigit _ hmem) (by decide)
    simp [bracketed, hmark hname, hdot]

/-- No spelling ends with a line break behind a bracket. -/
theorem SpelledAs.unbroken (h : s.SpelledAs cs) : ¬ [']', '\n'] <:+ cs := by
  intro hsuffix
  cases h with
  | name hname => simpa [isMark] using hname.2 ']' (hsuffix.subset (by simp))
  | @item name index digits =>
    obtain ⟨front, hfront⟩ := hsuffix
    have hlast : (front ++ [']']) ++ ['\n'] = (name.toList ++ '[' :: digits) ++ [']'] := by
      simpa [bracketed] using hfront
    exact absurd (List.append_inj_right' hlast rfl) (by decide)

theorem ReadFrom.spelled_or_broken (h : s.ReadFrom cs) :
    s.SpelledAs cs ∨ ∃ spelling, s.SpelledAs spelling ∧ cs = spelling ++ ['\n'] ∧
      [']', '\n'] <:+ cs := by
  cases h with
  | name hname => exact .inl (.name hname)
  | item hname hdigits => exact .inl (.item hname hdigits)
  | @broken name index digits hname hdigits =>
    exact .inr ⟨_, .item hname hdigits, rfl, name.toList ++ '[' :: digits, by simp [bracketed]⟩

theorem ReadFrom.spelledAs_iff (h : s.ReadFrom cs) : s.SpelledAs cs ↔ ¬ [']', '\n'] <:+ cs := by
  refine ⟨SpelledAs.unbroken, fun hunbroken => ?_⟩
  rcases h.spelled_or_broken with hspelled | ⟨-, -, -, hbroken⟩
  · exact hspelled
  · exact absurd hbroken hunbroken

theorem ReadFrom.nameable (h : s.ReadFrom cs) : Nameable s.name := by
  cases h <;> assumption

theorem ReadFrom.ne_nil (h : s.ReadFrom cs) : cs ≠ [] := by
  rcases h.spelled_or_broken with hspelled | ⟨spelling, -, rfl, -⟩
  · exact hspelled.ne_nil
  · simp

theorem ReadFrom.no_dot (h : s.ReadFrom cs) : '.' ∉ cs := by
  rcases h.spelled_or_broken with hspelled | ⟨spelling, hspelled, rfl, -⟩
  · exact hspelled.no_dot
  · simpa using hspelled.no_dot

end Segment

namespace Path

variable {text : String} {p : Path} {form : Segment → List Char → Prop}

/-- The text consists of the segments of the path in order, each in the given form, with dots
between them. -/
def Written (form : Segment → List Char → Prop) (p : Path) (text : String) : Prop :=
  p ≠ [] ∧ ∃ pieces, text.toList = ['.'].intercalate pieces ∧ List.Forall₂ form p pieces

theorem pieces_eq_splitOn (cs : List Char) : pieces cs = cs.splitOn '.' := by
  induction cs with
  | nil => rfl
  | cons c cs ih =>
    rw [pieces, List.splitOn_cons_eq_if_modifyHead, ih]
    cases hsplit : cs.splitOn '.' with
    | nil => exact absurd hsplit (List.splitOn_ne_nil '.' cs)
    | cons piece rest => simp

theorem no_dot_of_forall₂ (hdot : ∀ s cs, form s cs → '.' ∉ cs) {pieces : List (List Char)}
    (h : List.Forall₂ form p pieces) : ∀ piece ∈ pieces, '.' ∉ piece := by
  induction h with
  | nil => simp
  | cons hs _ ih => exact List.forall_mem_cons.mpr ⟨hdot _ _ hs, ih⟩

/-- A text in which no segment holds a dot has the segments for its pieces. -/
theorem written_iff (hdot : ∀ s cs, form s cs → '.' ∉ cs) :
    Written form p text ↔ List.Forall₂ form p (text.toList.splitOn '.') := by
  constructor
  · rintro ⟨hne, pieces, htext, hpieces⟩
    have hpieces_ne : pieces ≠ [] := by
      rintro rfl
      exact hne (List.forall₂_nil_right_iff.mp hpieces)
    rwa [htext, List.splitOn_intercalate '.' (no_dot_of_forall₂ hdot hpieces) hpieces_ne]
  · intro h
    refine ⟨?_, _, (List.intercalate_splitOn '.').symm, h⟩
    rintro rfl
    exact List.splitOn_ne_nil '.' _ (List.forall₂_nil_left_iff.mp h)

theorem parse_eq_ok : parse text = .ok p ↔ Written Segment.ReadFrom p text := by
  rw [written_iff fun _ _ => Segment.ReadFrom.no_dot, parse]
  by_cases hempty : text.isEmpty
  · rw [String.isEmpty_iff] at hempty
    subst hempty
    refine iff_of_false (by simp) fun h => ?_
    rw [String.toList_empty, List.splitOn_nil] at h
    cases h with
    | cons hs _ => exact hs.ne_nil rfl
  · rw [if_neg hempty, Except.mapM_eq_ok, pieces_eq_splitOn, ← List.forall₂_eq_eq_eq,
      List.forall₂_map_left_iff, List.forall₂_map_right_iff]
    constructor
    · intro h
      exact h.flip.imp fun _ _ => Segment.parse_eq_ok.mp
    · intro h
      exact (h.imp fun _ _ => Segment.parse_eq_ok.mpr).flip

theorem parse_ne_nil (h : parse text = .ok p) : p ≠ [] := (parse_eq_ok.mp h).1

theorem parsed_nameable (h : parse text = .ok p) : ∀ s ∈ p, Nameable s.name := by
  obtain ⟨-, pieces, -, hpieces⟩ := parse_eq_ok.mp h
  clear h
  induction hpieces with
  | nil => simp
  | cons hs _ ih => exact List.forall_mem_cons.mpr ⟨hs.nameable, ih⟩

theorem ne_nil_of_ofJson {path : Json} (h : ofJson path = .ok p) : p ≠ [] := by
  unfold ofJson at h
  split at h
  · exact parse_ne_nil h
  · simp at h

/-- A path is read from a text if and only if its segments are written there in order, with dots
between them, as names or names with a numeral in brackets, behind which a line break may stand. The
text is a spelling of the path unless there is such a line break. -/
theorem parsed_iff_written (text : String) (p : Path) :
    (parse text = .ok p ↔ Written Segment.ReadFrom p text) ∧
      (parse text = .ok p → (Written Segment.SpelledAs p text ↔
        ∀ piece ∈ text.toList.splitOn '.', ¬ [']', '\n'] <:+ piece)) := by
  refine ⟨parse_eq_ok, fun h => ?_⟩
  rw [parse_eq_ok, written_iff fun _ _ => Segment.ReadFrom.no_dot] at h
  rw [written_iff fun _ _ => Segment.SpelledAs.no_dot]
  generalize text.toList.splitOn '.' = pieces at h
  induction h with
  | nil => simp
  | cons hs _ ih => rw [List.forall₂_cons, List.forall_mem_cons, hs.spelledAs_iff, ih]

/-- The line break behind the bracket is no part of the segment. -/
theorem broken_line_parsed :
    parse "a[0]\n" = .ok [⟨"a", some 0⟩] ∧ ¬ Written Segment.SpelledAs [⟨"a", some 0⟩] "a[0]\n" := by
  have hparsed : parse "a[0]\n" = .ok [⟨"a", some 0⟩] := by rfl
  refine ⟨hparsed, fun hspelled => ?_⟩
  have hunbroken := ((parsed_iff_written _ _).2 hparsed).mp hspelled
  exact absurd hunbroken (by decide +kernel)

end Path
end NodeWorkflow
