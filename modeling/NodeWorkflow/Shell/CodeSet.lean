import NodeWorkflow.Text.Digit

/-!
# Sets of code points

A set of code points is kept as ranges, some of which hold every second code point only. Tables of
such sets are written in hexadecimal digits, with blanks between the ranges: `b5` is one code point,
`61-7a` all those from one to another, `100-12e/2` every second one of them.
-/
namespace NodeWorkflow.Text

structure CodeRange where
  first : Nat
  last : Nat
  stride : Nat

namespace CodeRange

def contains (r : CodeRange) (n : Nat) : Bool :=
  r.first ≤ n && n ≤ r.last && (n - r.first) % r.stride == 0

def number (s : String) : Nat :=
  (s.toList.filterMap hexValue?).foldl (fun n d => 16 * n + d) 0

def readEnds (s : String) (stride : Nat) : CodeRange :=
  match s.splitOn "-" with
  | [first, last] => ⟨number first, number last, stride⟩
  | _ => ⟨number s, number s, stride⟩

def read (s : String) : CodeRange :=
  match s.splitOn "/" with
  | [ends, stride] => readEnds ends (number stride)
  | _ => readEnds s 1

end CodeRange

structure CodeSet where
  ranges : List CodeRange

namespace CodeSet

def contains (s : CodeSet) (n : Nat) : Bool := s.ranges.any (·.contains n)

/-- Reads the lines of a table. -/
def read (lines : List String) : CodeSet :=
  ⟨lines.flatMap fun line => (line.splitOn " ").map CodeRange.read⟩

end CodeSet
end NodeWorkflow.Text
