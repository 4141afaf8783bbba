import NodeWorkflow.Proofs.Path.Grammar
import NodeWorkflow.Proofs.Text.Digits

/-!
# Printing of paths

A path that is printed is written by the grammar, with the digits of ASCII. So it is read again, if
it has a segment and its indices are not too long.
-/
namespace NodeWorkflow

namespace Text

theorem isNumeral_toDigits (n : Nat) : IsNumeral (Nat.toDigits 10 n) n := by
  obtain ⟨hdigits, hvalue⟩ := digits_toDigits n
  have hmap := map_digitValue?_eq hdigits
  refine ⟨_, fun hnil => ?_, hmap, ?_⟩
  · rw [hnil, List.map_nil, List.map_eq_nil_iff] at hmap
    exact Nat.toDigits_ne_nil hmap
  · rw [← digitsValue_eq, hvalue]

end Text

/-- The segment can be printed: its name may be written in a path, and its index is not too long. -/
structure Segment.Printable (s : Segment) : Prop where
  name : Nameable s.name
  index : ∀ i, s.index = some i → (Nat.toDigits 10 i).length ≤ Number.integerDigitLimit

theorem Segment.Printable.readFrom {s : Segment} (h : s.Printable) : s.ReadFrom s.print := by
  obtain ⟨name, index⟩ := s
  cases index with
  | none => simpa [print] using ReadFrom.name h.name
  | some i => exact .item h.name (Text.isNumeral_toDigits i) (h.index i rfl)

theorem Segment.spelledAs_print {s : Segment} (h : Nameable s.name) : s.SpelledAs s.print := by
  obtain ⟨name, index⟩ := s
  cases index with
  | none => simpa [print] using SpelledAs.name h
  | some i => exact .item h (Text.isNumeral_toDigits i)

theorem Segment.ReadFrom.printable {s : Segment} (h : s.ReadFrom s.print) : s.Printable := by
  refine ⟨h.nameable, fun i hi => ?_⟩
  have hunbroken := (spelledAs_print h.nameable).unbroken
  obtain ⟨name, index⟩ := s
  obtain rfl : index = some i := hi
  have hprint : print ⟨name, some i⟩ = bracketed name (Nat.toDigits 10 i) := rfl
  rw [hprint] at h hunbroken
  generalize hcs : bracketed name (Nat.toDigits 10 i) = cs at h hunbroken
  cases h with
  | item hname hdigits hshort =>
    obtain rfl := List.append_cancel_right (List.cons.inj (List.append_cancel_left hcs)).2
    exact hshort
  | @broken _ _ digits =>
    exact absurd ⟨name.toList ++ '[' :: digits, by simp [bracketed]⟩ hunbroken

namespace Path

theorem print_eq_intercalate (p : Path) : p.print = ['.'].intercalate (p.map Segment.print) := by
  induction p with
  | nil => rfl
  | cons s rest ih => cases rest with
    | nil => simp [print]
    | cons s' rest => simp [print, ih, List.intercalate]

theorem parse_print {path : Path} (hne : path ≠ []) (h : ∀ s ∈ path, s.Printable) :
    parse (String.ofList path.print) = .ok path := by
  refine parse_eq_ok.mpr ⟨hne, path.map Segment.print, ?_, ?_⟩
  · rw [String.toList_ofList, print_eq_intercalate]
  · exact List.forall₂_map_right_iff.mpr (List.forall₂_same.mpr fun s hs => (h s hs).readFrom)

theorem splitOn_print {path : Path} (hne : path ≠ []) (h : ∀ s ∈ path, Nameable s.name) :
    path.print.splitOn '.' = path.map Segment.print := by
  rw [print_eq_intercalate, List.splitOn_intercalate '.' ?_ (by simpa using hne)]
  simp only [List.forall_mem_map]
  exact fun s hs => (Segment.spelledAs_print (h s hs)).no_dot

/-- A path is read from what is printed for it if and only if it has a segment, its names are not
empty and hold no dot and no bracket, and its indices have no more digits than can be read. -/
theorem parse_print_iff (path : Path) :
    parse (String.ofList path.print) = .ok path ↔ path ≠ [] ∧ ∀ s ∈ path, s.Printable := by
  refine ⟨fun h => ?_, fun h => parse_print h.1 h.2⟩
  have hne := parse_ne_nil h
  have hpieces := splitOn_print hne (parsed_nameable h)
  rw [parse_eq_ok, written_iff fun _ _ => Segment.ReadFrom.no_dot, String.toList_ofList, hpieces,
    List.forall₂_map_right_iff, List.forall₂_same] at h
  exact ⟨hne, fun s hs => (h s hs).printable⟩

end Path
end NodeWorkflow
