import NodeWorkflow.Number.Binary64
import NodeWorkflow.Text.Digit

/-!
# Numerals

The texts that denote integers and binary numbers. The digits may be of any script, and a single
underscore may stand between two digits.
-/
namespace NodeWorkflow.Number
open Text

def integerDigitLimit : Nat := 4300

def tooLongMessage (digits : Nat) : String :=
  s!"Exceeds the limit ({integerDigitLimit} digits) for integer string conversion: value has " ++
    s!"{digits} digits; use sys.set_int_max_str_digits() to increase the limit"

/-- A run of digits with single underscores inside. -/
def digitRun? : List Char → Option (List Nat)
  | [] => none
  | [c] => (digitValue? c).map ([·])
  | c :: '_' :: rest => do return (← digitValue? c) :: (← digitRun? rest)
  | c :: rest => do return (← digitValue? c) :: (← digitRun? rest)

/-- Splits off a sign; `true` stands for minus. -/
def splitSign : List Char → Bool × List Char
  | '-' :: rest => (true, rest)
  | '+' :: rest => (false, rest)
  | cs => (false, cs)

def signed (negative : Bool) (n : Nat) : Int :=
  if negative then -n else n

inductive IntegerReading where
  | value (n : Int)
  | malformed
  | tooLong (digits : Nat)

def readInteger (cs : List Char) : IntegerReading :=
  let (negative, body) := splitSign cs
  match digitRun? body with
  | none => .malformed
  | some ds =>
    if integerDigitLimit < ds.length then .tooLong ds.length
    else .value (signed negative (digitsValue ds))

def exponent? (cs : List Char) : Option Int :=
  let (negative, body) := splitSign cs
  (digitRun? body).map fun ds => signed negative (digitsValue ds)

def optionalRun? : List Char → Option (List Nat)
  | [] => some []
  | cs => digitRun? cs

/-- Whole and fractional digits, at least one in all. -/
def mantissa? (cs : List Char) : Option (List Nat × List Nat) := do
  let whole ← optionalRun? (cs.takeWhile (· != '.'))
  let fraction ← optionalRun? ((cs.dropWhile (· != '.')).drop 1)
  if whole.isEmpty && fraction.isEmpty then none else some (whole, fraction)

def decimal? (cs : List Char) : Option (Nat × Int) := do
  let isMark (c : Char) := c == 'e' || c == 'E'
  let (whole, fraction) ← mantissa? (cs.takeWhile (!isMark ·))
  let exponent ← match cs.dropWhile (!isMark ·) with
    | [] => some 0
    | _ :: rest => exponent? rest
  return (digitsValue (whole ++ fraction), exponent - fraction.length)

def word? (negative : Bool) (cs : List Char) : Option Binary64 :=
  let word := String.ofList (cs.map Char.toLower)
  if word = "inf" ∨ word = "infinity" then some (.infinite negative)
  else if word = "nan" then some (.nan false)
  else none

/-- Reads the numeral of a binary number: a word or a decimal, rounded to the nearest. -/
def readBinary64? (cs : List Char) : Option Binary64 :=
  let (negative, body) := splitSign cs
  match word? negative body with
  | some x => some x
  | none => (decimal? body).map fun (m, e) => Binary64.ofDecimal negative m e

end NodeWorkflow.Number
