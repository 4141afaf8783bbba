import NodeWorkflow.Shell.HostName.Composite

/-!
# Normal form

A letter and a mark on it may be one character or two. In normal form they are one wherever there is
such a character, and marks on one letter stand in the order of their classes: `isNormal` tells
whether a list of code points is in this form. To see it, the characters are taken apart, the marks
are sorted, and all is put together again.
-/
namespace NodeWorkflow.HostName

def parts (c : Nat) : List Nat :=
  match composites.find? (·.whole == c) with
  | some composite => [composite.base, composite.mark]
  | none => [c]

/-- The letters without their marks, and the marks. No character holds more than three marks. -/
def decompose (cs : List Nat) : List Nat :=
  ((cs.flatMap parts).flatMap parts).flatMap parts

/-- Puts a character in front of others, behind the marks of smaller classes if it is a mark. -/
def placeMark (c : Nat) : List Nat → List Nat
  | [] => [c]
  | d :: rest =>
    if 0 < markClass d && markClass d < markClass c then d :: placeMark c rest else c :: d :: rest

def sortMarks (cs : List Nat) : List Nat := cs.foldr placeMark []

/-- The syllable of Hangul that two letters, or a syllable and a letter, make. -/
def syllable? (c d : Nat) : Option Nat :=
  if 0x1100 ≤ c ∧ c ≤ 0x1112 ∧ 0x1161 ≤ d ∧ d ≤ 0x1175 then
    some (0xac00 + ((c - 0x1100) * 21 + (d - 0x1161)) * 28)
  else if 0xac00 ≤ c ∧ c ≤ 0xd7a3 ∧ (c - 0xac00) % 28 = 0 ∧ 0x11a8 ≤ d ∧ d ≤ 0x11c2 then
    some (c + (d - 0x11a7))
  else none

def join? (c d : Nat) : Option Nat :=
  match composites.find? fun e => e.base == c && e.mark == d with
  | some composite => some composite.whole
  | none => syllable? c d

/-- A letter and the marks behind it that it does not hold, the last one first. -/
structure Cluster where
  letter : Nat
  loose : List Nat

def Cluster.codes (k : Cluster) : List Nat := k.letter :: k.loose.reverse

/-- Whether a letter can hold a character although there are marks between the two. -/
def Cluster.reaches (k : Cluster) (c : Nat) : Bool :=
  match k.loose with
  | [] => true
  | mark :: _ => markClass mark < markClass c

def compose (k : Cluster) : List Nat → List Nat
  | [] => k.codes
  | c :: rest =>
    match if k.reaches c then join? k.letter c else none with
    | some whole => compose { k with letter := whole } rest
    | none =>
      if markClass c = 0 then k.codes ++ compose ⟨c, []⟩ rest
      else compose { k with loose := c :: k.loose } rest

/-- The normal form of characters none of which has another form on its own. -/
def normalize (cs : List Nat) : List Nat :=
  match sortMarks (decompose cs) with
  | [] => []
  | c :: rest => compose ⟨c, []⟩ rest

def isNormal (cs : List Nat) : Bool := !cs.any unstable.contains && normalize cs == cs

end NodeWorkflow.HostName
