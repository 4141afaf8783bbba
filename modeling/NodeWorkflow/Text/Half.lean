/-!
# Halves of surrogate pairs

An escape in JSON text may denote one half of a surrogate pair without the other, which is no
character. Texts keep such a half as two characters, a mark and a private-use character whose code
point ends in the same four hexadecimal digits, and they keep the mark itself doubled. So what a
text holds is a list of points, each a character or a half. `ofRaw` and `toRaw` lead between this
form and characters as they come from outside; `points_ofPoints` says that the form is faithful.
-/
namespace NodeWorkflow.Text

def isHighUnit (n : Nat) : Bool := 0xd800 ≤ n && n ≤ 0xdbff

def isLowUnit (n : Nat) : Bool := 0xdc00 ≤ n && n ≤ 0xdfff

def isHalfUnit (n : Nat) : Bool := isHighUnit n || isLowUnit n

def ofPair (high low : Nat) : Char :=
  Char.ofNat (0x10000 + (high - 0xd800) * 0x400 + (low - 0xdc00))

def replacement : Char := Char.ofNat 0xfffd

/-- The character in front of a kept half. -/
def mark : Char := Char.ofNat 0x10ffff

inductive Point where
  | char (c : Char)
  | half (unit : Nat)
  deriving DecidableEq

namespace Point

def ofCode (n : Nat) : Point := if isHalfUnit n then .half n else .char (Char.ofNat n)

def code : Point → Nat
  | .char c => c.toNat
  | .half unit => unit

def isHalf : Point → Bool
  | .char _ => false
  | .half _ => true

/-- The characters that a point is kept as. -/
def kept : Point → List Char
  | .char c => if c = mark then [mark, mark] else [c]
  | .half unit => [mark, Char.ofNat (0xf0000 + unit)]

/-- The character that a point is shown as. -/
def shown : Point → Char
  | .char c => c
  | .half _ => replacement

def ofMarked (c : Char) : Point :=
  if isHalfUnit (c.toNat - 0xf0000) then .half (c.toNat - 0xf0000) else .char mark

end Point

def pointsOf : List Char → List Point
  | [] => []
  | [c] => [.char c]
  | c :: d :: rest =>
    if c = mark then .ofMarked d :: pointsOf rest else .char c :: pointsOf (d :: rest)

def points (s : String) : List Point := pointsOf s.toList

def ofPoints (ps : List Point) : String := String.ofList (ps.flatMap Point.kept)

/-- The text of characters as they come from outside. -/
def ofRaw (s : String) : String := ofPoints (s.toList.map .char)

/-- The characters of a text as they are shown outside. -/
def toRaw (s : String) : String := String.ofList ((points s).map Point.shown)

/-- Whether a text holds no halves. -/
def isWhole (s : String) : Bool := (points s).all fun p => !p.isHalf

/-- The order of texts by code points. -/
def before (s t : String) : Bool :=
  ((points s).map Point.code).lex ((points t).map Point.code) fun a b => decide (a < b)

/-- A half is one of the units that make pairs. -/
def Point.Proper : Point → Prop
  | .char _ => True
  | .half unit => isHalfUnit unit = true

private theorem ofMarked_half {unit : Nat} (h : isHalfUnit unit = true) :
    Point.ofMarked (Char.ofNat (0xf0000 + unit)) = .half unit := by
  have bound : unit ≤ 0xdfff := by
    simp [isHalfUnit, isHighUnit, isLowUnit] at h
    omega
  have valid : (0xf0000 + unit).isValidChar := by
    simp [Nat.isValidChar]
    omega
  have toNat_eq : (Char.ofNat (0xf0000 + unit)).toNat = 0xf0000 + unit := by
    rw [Char.ofNat, dif_pos valid]
    rfl
  simp [Point.ofMarked, toNat_eq, h]

private theorem ofMarked_mark : Point.ofMarked mark = .char mark := by decide +kernel

private theorem pointsOf_char {c : Char} (hc : c ≠ mark) (rest : List Char) :
    pointsOf (c :: rest) = .char c :: pointsOf rest := by
  cases rest <;> simp [pointsOf, hc]

private theorem pointsOf_kept {p : Point} (hp : p.Proper) (rest : List Char) :
    pointsOf (p.kept ++ rest) = p :: pointsOf rest := by
  cases p with
  | char c =>
    by_cases hc : c = mark
    · subst hc
      simp [Point.kept, pointsOf, ofMarked_mark]
    · simp [Point.kept, hc, pointsOf_char hc]
  | half unit => simp [Point.kept, pointsOf, ofMarked_half hp]

theorem pointsOf_flatMap_kept {ps : List Point} (hps : ∀ p ∈ ps, p.Proper) :
    pointsOf (ps.flatMap Point.kept) = ps := by
  induction ps with
  | nil => rfl
  | cons p ps ih =>
    rw [List.flatMap_cons, pointsOf_kept (hps p (by simp)), ih fun q hq => hps q (by simp [hq])]

theorem points_ofPoints {ps : List Point} (hps : ∀ p ∈ ps, p.Proper) :
    points (ofPoints ps) = ps := by
  simp [points, ofPoints, pointsOf_flatMap_kept hps]

theorem toRaw_ofRaw (s : String) : toRaw (ofRaw s) = s := by
  rw [toRaw, ofRaw, points_ofPoints (by simp [Point.Proper])]
  simp [Function.comp_def, Point.shown]

end NodeWorkflow.Text
