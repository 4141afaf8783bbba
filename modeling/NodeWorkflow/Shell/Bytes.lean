import NodeWorkflow.Text.Half

/-!
# Text as bytes

Reading text from bytes in UTF-8, UTF-16 and UTF-32. What is no UTF-8 is replaced: every longest
start of a sequence that does not go on counts once, and every byte that starts nothing.
-/
namespace NodeWorkflow.Text

/-- A sequence of UTF-8 on the way: the bits so far, how many bytes follow the next one, and the
range that the next one must lie in. -/
structure Sequence where
  bits : Nat
  rest : Nat
  low : Nat
  high : Nat

def leadByte (b : Nat) : List Char × Option Sequence :=
  if b < 0x80 then ([Char.ofNat b], none)
  else if b < 0xc2 then ([replacement], none)
  else if b < 0xe0 then ([], some ⟨b - 0xc0, 0, 0x80, 0xbf⟩)
  else if b = 0xe0 then ([], some ⟨0, 1, 0xa0, 0xbf⟩)
  else if b = 0xed then ([], some ⟨0xd, 1, 0x80, 0x9f⟩)
  else if b < 0xf0 then ([], some ⟨b - 0xe0, 1, 0x80, 0xbf⟩)
  else if b = 0xf0 then ([], some ⟨0, 2, 0x90, 0xbf⟩)
  else if b < 0xf4 then ([], some ⟨b - 0xf0, 2, 0x80, 0xbf⟩)
  else if b = 0xf4 then ([], some ⟨4, 2, 0x80, 0x8f⟩)
  else ([replacement], none)

/-- Goes on with a sequence; a byte that does not belong to it starts anew. -/
def nextByte (s : Sequence) (b : Nat) : List Char × Option Sequence :=
  let bits := s.bits * 64 + b % 64
  if b < s.low || s.high < b then (replacement :: (leadByte b).1, (leadByte b).2)
  else match s.rest with
    | 0 => ([Char.ofNat bits], none)
    | rest + 1 => ([], some ⟨bits, rest, 0x80, 0xbf⟩)

def readUtf8 : Option Sequence → List UInt8 → List Char
  | none, [] => []
  | some _, [] => [replacement]
  | none, b :: bs => (leadByte b.toNat).1 ++ readUtf8 (leadByte b.toNat).2 bs
  | some s, b :: bs => (nextByte s b.toNat).1 ++ readUtf8 (nextByte s b.toNat).2 bs

def ofUtf8 (bytes : List UInt8) : String := ofPoints ((readUtf8 none bytes).map .char)

/-- The points of units of sixteen bits. Halves that make no pair are kept. -/
def ofUnits : List Nat → List Point
  | [] => []
  | [u] => [.ofCode u]
  | high :: low :: rest =>
    if isHighUnit high && isLowUnit low then .char (ofPair high low) :: ofUnits rest
    else .ofCode high :: ofUnits (low :: rest)

def ofBigEndian (bytes : List UInt8) : Nat :=
  bytes.foldl (fun n b => 256 * n + b.toNat) 0

/-- The number that bytes stand for in the given order. -/
def number (bigEndian : Bool) (bytes : List UInt8) : Nat :=
  ofBigEndian (if bigEndian then bytes else bytes.reverse)

/-- Reads units of sixteen bits; `none` if a byte is left over. -/
def units? (bigEndian : Bool) : List UInt8 → Option (List Nat)
  | [] => some []
  | a :: b :: rest => (units? bigEndian rest).map (number bigEndian [a, b] :: ·)
  | [_] => none

def ofUtf16? (bigEndian : Bool) (bytes : List UInt8) : Option String :=
  (units? bigEndian bytes).map fun units => ofPoints (ofUnits units)

/-- Reads code points of 32 bits; `none` if bytes are left over or there is no such code point. -/
def codes? (bigEndian : Bool) : List UInt8 → Option (List Nat)
  | [] => some []
  | a :: b :: c :: d :: rest =>
    let n := number bigEndian [a, b, c, d]
    if 0x10ffff < n then none else (codes? bigEndian rest).map (n :: ·)
  | _ => none

def ofUtf32? (bigEndian : Bool) (bytes : List UInt8) : Option String :=
  (codes? bigEndian bytes).map fun codes => ofPoints (codes.map .ofCode)

end NodeWorkflow.Text
