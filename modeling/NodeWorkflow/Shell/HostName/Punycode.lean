/-!
# Punycode

How a label is written in ASCII: its characters of ASCII, and behind a hyphen the others in the
order of their code points. Each of these is told by the number of places that are passed over until
it is inserted, where the places of a label are gone through once for every code point. The numbers
are written with the least digit first, in digits whose weights follow from the numbers before.
-/
namespace NodeWorkflow.HostName.Punycode

/-- The character of a digit: the letters count before the digits of ASCII. -/
def digitChar (d : Nat) : Nat := if d < 26 then 0x61 + d else 22 + d

def digitValue? (c : Nat) : Option Nat :=
  if 0x61 ≤ c ∧ c ≤ 0x7a then some (c - 0x61)
  else if 0x30 ≤ c ∧ c ≤ 0x39 then some (c - 22)
  else none

theorem digitValue?_digitChar {d : Nat} (h : d < 36) : digitValue? (digitChar d) = some d := by
  unfold digitChar digitValue?
  split
  · rw [if_pos (by omega)]
    exact congrArg some (by omega)
  · rw [if_neg (by omega), if_pos (by omega)]
    exact congrArg some (by omega)

/-- The bound that the last digit of a number stays below, by the place of the digit. -/
def threshold (bias place : Nat) : Nat := max 1 (min 26 (36 * (place + 1) - bias))

theorem threshold_pos (bias place : Nat) : 1 ≤ threshold bias place := by
  unfold threshold
  omega

def biasOf (n bias : Nat) : Nat :=
  if 455 < n then biasOf (n / 35) (bias + 36) else bias + 36 * n / (n + 38)
termination_by n
decreasing_by exact Nat.div_lt_self (by omega) (by omega)

def adapt (n : Nat) (isFirst : Bool) (count : Nat) : Nat :=
  let damped := if isFirst then n / 700 else n / 2
  biasOf (damped + damped / count) 0

def hyphen : Nat := 0x2d

def isBasic (c : Nat) : Bool := c < 0x80

def digits (bias place n : Nat) : List Nat :=
  let t := threshold bias place
  if n < t then [digitChar n]
  else digitChar (t + (n - t) % (36 - t)) :: digits bias (place + 1) ((n - t) / (36 - t))
termination_by n
decreasing_by
  have pos := threshold_pos bias place
  have le := Nat.div_le_self (n - threshold bias place) (36 - threshold bias place)
  omega

structure Writing where
  written : List Nat
  /-- The places that are passed over since the last insertion. -/
  passed : Nat
  /-- The characters that are told. -/
  count : Nat
  bias : Nat
  isFirst : Bool

namespace Writing

/-- Goes past a character of the label: one that is told already is a place, and one of the code
point in turn is told. -/
def pass (code : Nat) (w : Writing) (c : Nat) : Writing :=
  if c < code then { w with passed := w.passed + 1 }
  else if c = code then
    { written := w.written ++ digits w.bias 0 w.passed
      passed := 0
      count := w.count + 1
      bias := adapt w.passed w.isFirst (w.count + 1)
      isFirst := false }
  else w

/-- Goes through a label for all code points from one to another. -/
def tell (label : List Nat) (state : Writing × Nat) (code : Nat) : Writing × Nat :=
  let (w, next) := state
  let w := { w with passed := w.passed + (code - next) * (w.count + 1) }
  let w := label.foldl (pass code) w
  ({ w with passed := w.passed + 1 }, code + 1)

end Writing

def encode (label : List Nat) : List Nat :=
  let basic := label.filter isBasic
  let codes := (label.filter (!isBasic ·)).mergeSort.eraseDups
  let start : Writing := ⟨[], 0, basic.length, 72, true⟩
  let extended := (codes.foldl (Writing.tell label) (start, 0x80)).1.written
  if basic.isEmpty then extended else basic ++ hyphen :: extended

structure Reading where
  label : List Nat
  /-- The code point of the last insertion. -/
  code : Nat
  /-- Where a character is inserted if no place is passed over. -/
  start : Nat
  bias : Nat
  isFirst : Bool
  /-- The number that is read, as far as it goes, the weight of its next digit and the place. -/
  number : Nat
  weight : Nat
  place : Nat

namespace Reading

def insert? (r : Reading) (number : Nat) : Option Reading :=
  let places := r.label.length + 1
  let code := r.code + (r.start + number) / places
  let i := (r.start + number) % places
  if 0x10ffff < code then none
  else some
    { label := r.label.take i ++ code :: r.label.drop i
      code := code
      start := i + 1
      bias := adapt number r.isFirst places
      isFirst := false
      number := 0
      weight := 1
      place := 0 }

def next? (r : Reading) (c : Nat) : Option Reading := do
  let d ← digitValue? c
  let t := threshold r.bias r.place
  let number := r.number + d * r.weight
  if d < t then r.insert? number
  else return { r with number := number, weight := r.weight * (36 - t), place := r.place + 1 }

end Reading

/-- Reads a label. The last number must be complete. -/
def decode? (cs : List Nat) : Option (List Nat) := do
  let extended := (cs.reverse.takeWhile (· != hyphen)).reverse
  let basic := (cs.take (cs.length - extended.length)).dropLast
  let r ← extended.foldlM Reading.next? ⟨basic, 0x80, 0, 72, true, 0, 1, 0⟩
  if r.place = 0 then return r.label else none

end NodeWorkflow.HostName.Punycode
