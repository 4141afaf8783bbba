import NodeWorkflow.Proofs.Failure
import NodeWorkflow.Proofs.Json.Decoded
import NodeWorkflow.Proofs.Path.Grammar
import NodeWorkflow.Proofs.Path.Overrun

/-!
# Writes that are refused

A write is refused if and only if its path is empty or malformed, the data is no object, or
something in the data stands in the way of the path. Whether this is so does not depend on what the
write would make, and a write that is refused leaves everything as it was.
-/
namespace NodeWorkflow

theorem Path.failsIn_parse (text : String) : FailsIn (fun cause =>
    (cause = .noText ∧ text = "") ∨ (∃ piece, cause = .badSegment piece text) ∨
      ∃ digits, cause = .indexTooLong digits) (parse text) := by
  unfold parse
  split
  next hempty => simpa using hempty
  next =>
    refine .mapM fun piece _ => ?_
    unfold Segment.parse
    split
    · simp
    · simp
    · split <;> simp

namespace Json

variable {v inner value : Json} {s : Segment} {p rest : Path} {text : String}

/-- Something other than null stands where a path goes on, and it is not what the path needs there:
a list for a segment with an index, and an object if there are more segments. -/
def ObstructedAt (v : Json) (before : Path) (s : Segment) (after : Path) : Prop :=
  (s.index ≠ none ∧
    ∃ x, v.at? (before ++ [⟨s.name, none⟩]) = some x ∧ x ≠ .null ∧ ∀ xs, x ≠ .list xs) ∨
  (after ≠ [] ∧ ∃ x, v.at? (before ++ [s]) = some x ∧ x ≠ .null ∧ ∀ es, x ≠ .obj es)

/-- Something stands in the way of a path. -/
def Obstructed (v : Json) (p : Path) : Prop :=
  ∃ before s after, p = before ++ s :: after ∧ ObstructedAt v before s after

theorem obstructedAt_cons {before after : Path} {r : Segment} :
    ObstructedAt v (r :: before) s after ↔
      ∃ inner, v.at? [r] = some inner ∧ ObstructedAt inner before s after := by
  have hlist := at?_cons r (before ++ [⟨s.name, none⟩]) v
  have hobj := at?_cons r (before ++ [s]) v
  cases hread : v.at? [r] with
  | none => simp [ObstructedAt, hlist, hobj, hread]
  | some inner => simp [ObstructedAt, hlist, hobj, hread]

theorem obstructed_cons : Obstructed v (s :: rest) ↔
    ObstructedAt v [] s rest ∨ ∃ inner, v.at? [s] = some inner ∧ Obstructed inner rest := by
  constructor
  · rintro ⟨before, t, after, hsplit, hobstructed⟩
    cases before with
    | nil =>
      obtain ⟨rfl, rfl⟩ := List.cons.inj hsplit
      exact .inl hobstructed
    | cons r before =>
      obtain ⟨rfl, rfl⟩ := List.cons.inj hsplit
      obtain ⟨inner, hread, hinner⟩ := obstructedAt_cons.mp hobstructed
      exact .inr ⟨inner, hread, before, t, after, rfl, hinner⟩
  · rintro (hhere | ⟨inner, hread, before, t, after, rfl, hinner⟩)
    · exact ⟨[], s, rest, rfl, hhere⟩
    · exact ⟨s :: before, t, after, rfl, obstructedAt_cons.mpr ⟨inner, hread, hinner⟩⟩

theorem under?_eq_none_iff (es : Entries Json) : under? s (.obj es) = none ↔ s.index ≠ none ∧
    ∃ x, (Json.obj es).at? [⟨s.name, none⟩] = some x ∧ x ≠ .null ∧ ∀ xs, x ≠ .list xs := by
  obtain ⟨name, index⟩ := s
  cases index with
  | none => simp [under?]
  | some i => cases hget : Entries.get? (.str name) es with
    | none => simp [under?, listUnder?, at?, field?, hget]
    | some x => cases x with
      | scalar a => cases a <;> simp [under?, listUnder?, at?, field?, hget]
      | list xs => simp [under?, listUnder?, at?, field?, hget]
      | obj fs => simp [under?, listUnder?, at?, field?, hget]

/-- Where a write goes on, only what is met can stand in its way. -/
theorem obstructedAt_nil_of_under? (h : under? s v = some inner) : ObstructedAt v [] s rest ↔
    rest ≠ [] ∧ ∃ x, v.at? [s] = some x ∧ x ≠ .null ∧ ∀ es, x ≠ .obj es := by
  cases v with
  | scalar a => simp [under?] at h
  | list xs => simp [under?] at h
  | obj es => exact or_iff_right (mt (under?_eq_none_iff es).mpr (by simp [h]))

theorem not_obstructed_nil (v : Json) : ¬ Obstructed v [] := by
  rintro ⟨before, s, after, hsplit, -⟩
  simp at hsplit

theorem not_obstructed_null (p : Path) : ¬ Obstructed null p := by
  have hread {before : Path} {s : Segment} {x : Json} (h : null.at? (before ++ [s]) = some x) :
      False := by
    have hne := List.append_ne_nil_of_right_ne_nil before (List.cons_ne_nil s [])
    simpa [isNull] using isNull_of_at? h hne
  rintro ⟨before, s, after, -, ⟨-, x, hx, -⟩ | ⟨-, x, hx, -⟩⟩
  · exact hread hx
  · exact hread hx

theorem obstructed_cons_of_under? (hunder : under? s v = some inner) (hrest : rest ≠ []) :
    Obstructed v (s :: rest) ↔
      inner ≠ .null ∧ ((∀ es, inner ≠ .obj es) ∨ Obstructed inner rest) := by
  have hsame {x : Json} (h : v.at? [s] = some x) : x = inner := by
    obtain ⟨inner', hinner', hx⟩ := under?_of_at? h
    obtain rfl := Option.some.inj (hunder.symm.trans hinner')
    exact (Option.some.inj hx).symm
  rw [obstructed_cons, obstructedAt_nil_of_under? hunder]
  constructor
  · rintro (⟨-, x, hx, hne, hobj⟩ | ⟨x, hx, hbelow⟩)
    · obtain rfl := hsame hx
      exact ⟨hne, .inl hobj⟩
    · obtain rfl := hsame hx
      refine ⟨?_, .inr hbelow⟩
      rintro rfl
      exact not_obstructed_null rest hbelow
  · rintro ⟨hne, h⟩
    have hread := at?_of_under? hunder (Bool.eq_false_iff.mpr (mt isNull_iff.mp hne))
    exact h.imp (fun hobj => ⟨hrest, inner, hread, hne, hobj⟩) fun hbelow => ⟨inner, hread, hbelow⟩

/-- A path does not fit data that is no object, and data in which something stands in its way. -/
theorem fits_eq_false_iff (hp : p ≠ []) :
    fits p v = false ↔ (∀ es, v ≠ .obj es) ∨ Obstructed v p := by
  induction p generalizing v with
  | nil => exact absurd rfl hp
  | cons s rest ih => cases v with
    | scalar a => simp [fits, under?]
    | list xs => simp [fits, under?]
    | obj es => cases hunder : under? s (.obj es) with
      | none =>
        have hlist : ObstructedAt (.obj es) [] s rest := .inl ((under?_eq_none_iff es).mp hunder)
        simp [fits_of_under?_eq_none hunder, obstructed_cons, hlist]
      | some inner =>
        by_cases hrest : rest = []
        · subst hrest
          simp [fits, hunder, obstructed_cons, obstructedAt_nil_of_under? hunder, not_obstructed_nil]
        rw [fits_cons hunder hrest, obstructed_cons_of_under? hunder hrest]
        by_cases hnull : inner = .null
        · -- what stands for nothing is made anew, and every path fits there
          subst hnull
          simp [vivified, isNull, fits_empty hrest]
        · rw [vivified_of_isNull (Bool.eq_false_iff.mpr (mt isNull_iff.mp hnull)), ih hrest]
          simp [hnull]

section

variable [Machine]

theorem setByPath_of_parse (h : Path.parse text = .ok p) (value v : Json) :
    v.setByPath (.str text) value = writeAt value p v := by
  simp only [setByPath, Path.ofJson, h]

/-- A write at a path that is given as text is refused if and only if the text is empty or
malformed, the data is no object, or something in the data stands in the way of the path. A write
that is refused leaves no trace. -/
theorem refused_iff_obstructed (v value : Json) (text : String) :
    ((v.setByPath (.str text) value).2 = .refused ↔
      text = "" ∨ (∃ piece, Path.parse text = .error (.badSegment piece text)) ∨
        ∃ p, Path.parse text = .ok p ∧ ((∀ es, v ≠ .obj es) ∨ Obstructed v p)) ∧
      ((v.setByPath (.str text) value).2 = .refused →
        v.setByPath (.str text) value = (v, .refused)) := by
  have hempty (h : text = "") : Path.parse text = .error .noText := by
    rw [h]
    rfl
  constructor
  · cases hparse : Path.parse text with
    | ok p =>
      have hne : text ≠ "" := fun h => by simp [hempty h] at hparse
      rw [setByPath_of_parse hparse, writeAt_refused_iff]
      simpa [hne] using fits_eq_false_iff (Path.parse_ne_nil hparse)
    | error cause =>
      rcases Path.failsIn_parse text cause hparse with ⟨rfl, rfl⟩ | ⟨piece, rfl⟩ | ⟨digits, rfl⟩
      · simp [setByPath, Path.ofJson, hparse]
      · simp [setByPath, Path.ofJson, hparse]
      · have hne : text ≠ "" := fun h => by simp [hempty h] at hparse
        simp [setByPath, Path.ofJson, hparse, hne]
  · intro h
    have hreturns : ∀ fault, (v.setByPath (.str text) value).2 ≠ .stopped fault := by simp [h]
    rcases setByPath_cases hreturns with ⟨p, -, -, hdone⟩ | ⟨-, hrefused⟩
    · simp [hdone] at h
    · exact hrefused

end

attribute [local instance] Machine.common in
/-- A text stands where the path needs a list. -/
theorem write_into_text_refused :
    (Json.obj [(.str "a", .list [.null, .obj [(.str "b", .str "x")]])]).setByPath (.str "a[1].b[7]")
      (.str "y") = (.obj [(.str "a", .list [.null, .obj [(.str "b", .str "x")]])], .refused) := by
  have hparse : Path.parse "a[1].b[7]" = .ok [⟨"a", some 1⟩, ⟨"b", some 7⟩] := by rfl
  have hobstructed : Obstructed (.obj [(.str "a", .list [.null, .obj [(.str "b", .str "x")]])])
      [⟨"a", some 1⟩, ⟨"b", some 7⟩] :=
    ⟨[⟨"a", some 1⟩], ⟨"b", some 7⟩, [], rfl, .inl ⟨by simp, .str "x", by rfl, by simp, by simp⟩⟩
  apply (refused_iff_obstructed _ _ _).2
  exact (refused_iff_obstructed _ _ _).1.mpr (.inr (.inr ⟨_, hparse, .inr hobstructed⟩))

end Json
end NodeWorkflow
