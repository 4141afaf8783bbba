import NodeWorkflow.Number.Numeral

/-!
# Loose numerals

The integers that a setting may hold: with a sign, with zeros in front, with single underscores
inside and with a fraction of zeros. The digits are those of ASCII.
-/
namespace NodeWorkflow.Number

def isNonzeroDigit (c : Char) : Bool := 49 ≤ c.toNat && c.toNat ≤ 57

/-- What zeros and underscores at the start leave of a numeral, given the last of them so far. The
last one stays if the numeral ends or a point follows. -/
def afterZeros (last : Char) : List Char → Option (List Char)
  | [] => some [last]
  | c :: rest =>
    if c == '0' || c == '_' then afterZeros c rest
    else if isNonzeroDigit c || c == '-' then some (c :: rest)
    else if c == '.' then some (last :: c :: rest)
    else none

/-- Drops a plus sign, which no minus sign may follow. -/
def dropPlus : List Char → Option (List Char)
  | '+' :: '-' :: _ => none
  | '+' :: rest => some rest
  | cs => some cs

def dropZeros : List Char → Option (List Char)
  | '0' :: rest => afterZeros '0' rest
  | c :: rest => if isNonzeroDigit c || c == '-' then some (c :: rest) else none
  | [] => none

/-- Drops a fraction, which must consist of zeros. -/
def dropFraction (cs : List Char) : Option (List Char) :=
  match cs.dropWhile (· != '.') with
  | [] => some cs
  | _ :: zeros =>
    if !zeros.isEmpty && zeros.all (· == '0') then some (cs.takeWhile (· != '.')) else none

/-- Drops underscores, each of which must stand between two other characters. -/
def dropUnderscores : List Char → Option (List Char)
  | [] => some []
  | ['_'] => none
  | '_' :: _ :: _ => none
  | [c] => some [c]
  | c :: '_' :: d :: rest => if d == '_' then none else (dropUnderscores (d :: rest)).map (c :: ·)
  | c :: rest => (dropUnderscores rest).map (c :: ·)

def readStrictDigits (cs : List Char) : Option Nat :=
  let isDigit (c : Char) : Bool := c == '0' || isNonzeroDigit c
  match cs with
  | ['0'] => some 0
  | c :: _ =>
    if isNonzeroDigit c && cs.all isDigit then
      some (Text.digitsValue (cs.map fun d => d.toNat - 48))
    else none
  | [] => none

/-- Reads an integer of at most `integerDigitLimit` characters, its minus sign included. -/
def readStrict (cs : List Char) : Option Int :=
  if integerDigitLimit < cs.length then none
  else match cs with
    | '-' :: rest => (readStrictDigits rest).map fun n => -(n : Int)
    | _ => (readStrictDigits cs).map fun n => (n : Int)

def tighten (cs : List Char) : Option (List Char) := do
  dropUnderscores (← dropFraction (← dropZeros cs))

/-- Reads a loose numeral. One that does not start with a minus sign may have it behind zeros. -/
def readLoose? : List Char → Option Int
  | '-' :: rest => do
    let digits ← tighten rest
    if integerDigitLimit < digits.length then none
    else (readStrictDigits digits).map fun n => -(n : Int)
  | cs => do readStrict (← tighten (← dropPlus cs))

end NodeWorkflow.Number
