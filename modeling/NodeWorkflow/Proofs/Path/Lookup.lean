import NodeWorkflow.Proofs.Failure
import NodeWorkflow.Proofs.Path.Fill
import NodeWorkflow.Proofs.Path.Grammar

/-!
# What is read at a path

Reading at a path gives what stands there, or the default if the path is malformed or the way along
it ends early. It always gives one of them, unless the text has an index with more digits than can
be read before anything else in it is malformed.
-/
namespace NodeWorkflow

namespace Segment
open Text

variable {name text : String} {cs : List Char} {count : Nat}

/-- The piece is a name with an index in brackets of so many digits, which are too many. A line
break may follow. -/
def Overlong (cs : List Char) (count : Nat) : Prop :=
  Number.integerDigitLimit < count ∧ ∃ name digits, Nameable name ∧
    (∀ c ∈ digits, isDigit c = true) ∧ digits.length = count ∧
      (cs = bracketed name digits ∨ cs = bracketed name digits ++ ['\n'])

theorem parse_eq_indexTooLong :
    parse text cs = .error (.indexTooLong count) ↔ Overlong cs count := by
  constructor
  · intro h
    unfold parse at h
    split at h
    · simp at h
    · simp at h
    next name values hsplit =>
      split at h
      next hlong =>
        obtain rfl : values.length = count := by simpa using h
        obtain ⟨hname, -, digits, hmap, hcs⟩ := split?_eq_item.mp hsplit
        have hlength : digits.length = values.length := by simpa using congrArg List.length hmap
        exact ⟨hlong, name, digits, hname, isDigit_of_map_eq hmap, hlength, hcs⟩
      next => simp at h
  · rintro ⟨hlong, name, digits, hname, hdigits, rfl, hcs⟩
    have hmap := map_digitValue?_eq hdigits
    have hlength : (digits.filterMap digitValue?).length = digits.length := by
      simpa using (congrArg List.length hmap).symm
    have hne : digits.filterMap digitValue? ≠ [] := by
      rw [← List.length_pos_iff, hlength]
      exact Nat.zero_lt_of_lt hlong
    have hsplit := split?_eq_item.mpr ⟨hname, hne, digits, hmap, hcs⟩
    simp only [parse, hsplit, hlength, if_pos hlong]

end Segment

namespace Path

variable {text : String} {p : Path}

/-- The text has a piece whose index has more digits than can be read, and every piece before it is
read as a segment. -/
def Overlong (text : String) : Prop :=
  ∃ before piece after count, text.toList.splitOn '.' = before ++ piece :: after ∧
    (∀ cs ∈ before, ∃ s : Segment, s.ReadFrom cs) ∧ Segment.Overlong piece count

theorem parse_eq_indexTooLong : (∃ count, parse text = .error (.indexTooLong count)) ↔ Overlong text := by
  have hfails {α : Type} (r : Except PathFault α) :
      (∃ count, r = .error (.indexTooLong count)) ↔
        ¬ FailsIn (fun cause => ∀ count, cause ≠ .indexTooLong count) r := by
    cases r <;> simp
  have hparse : FailsIn (fun cause => ∀ count, cause ≠ .indexTooLong count) (parse text) ↔
      FailsIn (fun cause => ∀ count, cause ≠ .indexTooLong count)
        ((text.toList.splitOn '.').mapM (Segment.parse text)) := by
    rw [parse, pieces_eq_splitOn]
    split
    next hempty =>
      obtain rfl := String.isEmpty_iff.mp hempty
      refine iff_of_true (by simp) ?_
      simp [Segment.parse, Segment.split?]
    next => rfl
  rw [hfails, hparse, failsIn_mapM]
  simp only [not_forall, ← hfails, Segment.parse_eq_ok, Segment.parse_eq_indexTooLong]
  constructor
  · rintro ⟨before, piece, after, hsplit, hbefore, count, hlong⟩
    exact ⟨before, piece, after, count, hsplit, hbefore, hlong⟩
  · rintro ⟨before, piece, after, count, hsplit, hbefore, hlong⟩
    exact ⟨before, piece, after, hsplit, hbefore, count, hlong⟩

theorem overlong_of_bracketed {name : String} {digits : List Char} (hname : Nameable name)
    (hdigits : ∀ c ∈ digits, Segment.isDigit c = true)
    (hlong : Number.integerDigitLimit < digits.length) :
    Overlong (String.ofList (Segment.bracketed name digits)) := by
  have hdot : '.' ∉ Segment.bracketed name digits := by
    have hname : '.' ∉ name.toList := fun hmem => by simpa [Segment.isMark] using hname.2 _ hmem
    have hdigits : '.' ∉ digits := fun hmem => absurd (hdigits _ hmem) (by decide)
    simp [Segment.bracketed, hname, hdigits]
  have hpieces : (Segment.bracketed name digits).splitOn '.' = [Segment.bracketed name digits] := by
    simpa using List.splitOn_intercalate '.' (List.forall_mem_singleton.mpr hdot) (by simp)
  refine ⟨[], _, [], digits.length, ?_, by simp, hlong, name, digits, hname, hdigits, rfl, .inl rfl⟩
  rw [String.toList_ofList, hpieces, List.nil_append]

end Path

namespace Json

variable {v x : Json} {s : Segment} {p : Path}

/-- The value stands in the data at the path: every name on the way is that of a field of an object,
and every index that of an item of a list. -/
inductive Stands : Json → Path → Json → Prop
  | here (v : Json) : Stands v [] v
  | field {name : String} {es : Entries Json} {child x : Json} {rest : Path}
      (hget : Entries.get? (.str name) es = some child) (h : Stands child rest x) :
      Stands (.obj es) (⟨name, none⟩ :: rest) x
  | item {name : String} {index : Nat} {es : Entries Json} {xs : List Json} {item x : Json}
      {rest : Path} (hget : Entries.get? (.str name) es = some (.list xs))
      (hitem : xs[index]? = some item) (h : Stands item rest x) :
      Stands (.obj es) (⟨name, some index⟩ :: rest) x

/-- The segment leads nowhere: the data is no object or has no field of that name, or the segment
has an index and the field is no list, or a list that ends before the index. -/
def DeadEnd (v : Json) (s : Segment) : Prop :=
  (∀ es, v ≠ .obj es) ∨ ∃ es, v = .obj es ∧ (Entries.get? (.str s.name) es = none ∨
    ∃ child index, Entries.get? (.str s.name) es = some child ∧ s.index = some index ∧
      ∀ xs, child = .list xs → xs.length ≤ index)

/-- The way along the path comes to a dead end. -/
def Missing (v : Json) (p : Path) : Prop :=
  ∃ before s after x, p = before ++ s :: after ∧ v.Stands before x ∧ x.DeadEnd s

theorem at?_eq_some_iff : v.at? p = some x ↔ v.Stands p x := by
  constructor
  · intro h
    induction p generalizing v with
    | nil =>
      obtain rfl := Option.some.inj h
      exact .here v
    | cons s rest ih =>
      obtain ⟨name, index⟩ := s
      cases v with
      | obj es =>
        simp only [at?, field?] at h
        split at h
        next child hget => exact .field hget (ih h)
        next xs i hget =>
          split at h
          next item hitem => exact .item hget hitem (ih h)
          next => simp at h
        next => simp at h
      | _ => simp [at?, field?] at h
  · intro h
    induction h with
    | here v => rfl
    | field hget _ ih => simpa [at?, field?, hget] using ih
    | item hget hitem _ ih => simpa [at?, field?, hget, hitem] using ih

theorem deadEnd_iff : v.DeadEnd s ↔ v.at? [s] = none := by
  obtain ⟨name, index⟩ := s
  cases v with
  | obj es => cases hget : Entries.get? (.str name) es with
    | none => simp [DeadEnd, at?, field?, hget]
    | some child => cases index with
      | none => simp [DeadEnd, at?, field?, hget]
      | some i => cases child with
        | list xs => cases hitem : xs[i]? with
          | none => simpa [DeadEnd, at?, field?, hget, hitem] using List.getElem?_eq_none_iff.mp hitem
          | some item =>
            simpa [DeadEnd, at?, field?, hget, hitem] using (List.getElem?_eq_some_iff.mp hitem).1
        | _ => simp [DeadEnd, at?, field?, hget]
  | _ => simp [DeadEnd, at?, field?]

theorem at?_append (before rest : Path) (v : Json) :
    v.at? (before ++ rest) = (v.at? before).bind (at? rest) := by
  induction before generalizing v with
  | nil => rfl
  | cons s before ih =>
    rw [List.cons_append, at?_cons, at?_cons s before, Option.bind_assoc]
    congr 1
    funext inner
    exact ih inner

theorem at?_eq_none_iff : v.at? p = none ↔ v.Missing p := by
  constructor
  · intro h
    induction p generalizing v with
    | nil => simp [at?] at h
    | cons s rest ih => cases hread : v.at? [s] with
      | none => exact ⟨[], s, rest, v, rfl, .here v, deadEnd_iff.mpr hread⟩
      | some inner =>
        rw [at?_cons, hread, Option.bind_some] at h
        obtain ⟨before, t, after, x, rfl, hbefore, hdead⟩ := ih h
        refine ⟨s :: before, t, after, x, rfl, at?_eq_some_iff.mp ?_, hdead⟩
        rw [at?_cons, hread, Option.bind_some, at?_eq_some_iff.mpr hbefore]
  · rintro ⟨before, s, after, x, rfl, hbefore, hdead⟩
    rw [at?_append, at?_eq_some_iff.mpr hbefore, Option.bind_some, at?_cons, deadEnd_iff.mp hdead,
      Option.bind_none]

/-- Reading at a path that is given as text gives what stands there, and the default if no path is
written in the text or the way along it ends early. It gives neither if and only if an index in the
text is too long to be read. -/
theorem read_returns_iff (v default : Json) (text : String) :
    ((∃ x, v.getByPath (.str text) default = .ok x) ↔ ¬ Path.Overlong text) ∧
      ∀ x, v.getByPath (.str text) default = .ok x ↔ ¬ Path.Overlong text ∧
        ((∃ p, Path.Written Segment.ReadFrom p text ∧ v.Stands p x) ∨
          x = default ∧ ∀ p, Path.Written Segment.ReadFrom p text → v.Missing p) := by
  simp only [getByPath, Path.ofJson, ← Path.parse_eq_indexTooLong, ← Path.parse_eq_ok,
    ← at?_eq_some_iff, ← at?_eq_none_iff]
  cases hparse : Path.parse text with
  | ok p => cases hread : v.at? p <;> simp [hread, eq_comm]
  | error cause => cases cause <;> simp [eq_comm]

/-- The index has one digit more than can be read. -/
theorem overlong_index_not_read : ∀ x, (Json.obj []).getByPath
    (.str (String.ofList (Segment.bracketed "a" (List.replicate 4301 '9')))) .null ≠ .ok x := by
  have hoverlong : Path.Overlong (String.ofList (Segment.bracketed "a" (List.replicate 4301 '9'))) := by
    refine Path.overlong_of_bracketed ⟨by decide, by simp [Segment.isMark]⟩ (fun c hc => ?_) ?_
    · obtain rfl := List.eq_of_mem_replicate hc
      decide
    · rw [List.length_replicate]
      decide
  exact fun x hx => (read_returns_iff _ _ _).1.mp ⟨x, hx⟩ hoverlong

end Json
end NodeWorkflow
