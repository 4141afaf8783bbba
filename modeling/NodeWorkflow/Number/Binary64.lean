/-!
# Binary numbers of 64 bits

A finite number is `mantissa * 2 ^ exponent` with a mantissa of at most 53 bits and an exponent from
-1074 to 971. Quotients and decimals are rounded to the nearest such number, a tie to the even
mantissa, in exact arithmetic.
-/
namespace NodeWorkflow.Number

inductive Binary64 where
  /-- What is not a number. All literals of it in JSON text denote one thing (`literal` is set); any
  other is a thing of its own. -/
  | nan (literal : Bool)
  | infinite (negative : Bool)
  | finite (negative : Bool) (mantissa : Nat) (exponent : Int)
  deriving DecidableEq

namespace Binary64

def zero (negative : Bool) : Binary64 := .finite negative 0 (-1074)

def isFinite : Binary64 → Bool
  | .finite .. => true
  | _ => false

def isZero : Binary64 → Bool
  | .finite _ m _ => m == 0
  | _ => false

/-- The nearest natural number to `n / d`, a tie going to the even one. -/
def roundQuotient (n d : Nat) : Nat :=
  let q := n / d
  let r := n % d
  if 2 * r < d || (2 * r == d && q % 2 == 0) then q else q + 1

/-- Numerator and denominator of `n / d / 2 ^ e`. -/
def scaleDown (n d : Nat) (e : Int) : Nat × Nat :=
  if 0 ≤ e then (n, d * Nat.pow 2 e.toNat) else (n * Nat.pow 2 (-e).toNat, d)

/-- The exponent that gives `n / d` a mantissa of 53 bits. -/
def exponentOf (n d : Nat) : Int :=
  let e : Int := (n.log2 : Int) - d.log2 - 53
  let s := scaleDown n d e
  if s.1 / s.2 < Nat.pow 2 53 then e else e + 1

def ofQuotient (negative : Bool) (n d : Nat) : Binary64 :=
  if n = 0 then zero negative
  else
    let e := max (exponentOf n d) (-1074)
    let s := scaleDown n d e
    let m := roundQuotient s.1 s.2
    let (m, e) := if m = Nat.pow 2 53 then (Nat.pow 2 52, e + 1) else (m, e)
    if 971 < e then .infinite negative else .finite negative m e

/-- The number nearest to `m * 10 ^ e`. Exponents too large or too small for any number are told
from the size of `m` alone. -/
def ofDecimal (negative : Bool) (m : Nat) (e : Int) : Binary64 :=
  if m = 0 then zero negative
  else if 400 < e then .infinite negative
  else if (m.log2 : Int) + 1 + 3 * e < -1100 then zero negative
  else if 0 ≤ e then ofQuotient negative (m * Nat.pow 10 e.toNat) 1
  else ofQuotient negative m (Nat.pow 10 (-e).toNat)

/-- The integer `m * 2 ^ (e - low)`, for `low ≤ e`. -/
def aligned (negative : Bool) (m : Nat) (e low : Int) : Int :=
  let n : Int := m * Nat.pow 2 (e - low).toNat
  if negative then -n else n

/-- Equality of values: both zeros are equal, and what is not a number equals nothing. -/
def same : Binary64 → Binary64 → Bool
  | .infinite a, .infinite b => a == b
  | .finite a m e, .finite b n f => aligned a m e (min e f) == aligned b n f (min e f)
  | _, _ => false

def sameInt : Binary64 → Int → Bool
  | .finite a m e, n => aligned a m e (min e 0) == n * Nat.pow 2 (-min e 0).toNat
  | _, _ => false

def truncate? : Binary64 → Option Int
  | .finite a m e =>
    let n : Nat := if 0 ≤ e then m * Nat.pow 2 e.toNat else m / Nat.pow 2 (-e).toNat
    some (if a then -(n : Int) else n)
  | _ => none

end Binary64
end NodeWorkflow.Number
