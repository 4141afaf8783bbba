import NodeWorkflow.Number.Binary64

/-!
# Shortest decimals

A finite number is written with the fewest significant digits that read back as the same number;
of the decimals with that many digits the nearest is taken.
-/
namespace NodeWorkflow.Number

/-- How a decimal is laid out: positionally while its exponent lies in a range, and otherwise as a
mantissa and an exponent with a least number of digits. -/
structure DecimalStyle where
  leastPositional : Int
  mostPositional : Int
  exponentWidth : Nat
  nanText : String
  infinityText : String

/-- Exponents from -4 to 15 are written positionally, others with two digits at least. -/
def DecimalStyle.plain : DecimalStyle := ⟨-4, 15, 2, "nan", "inf"⟩

namespace Binary64

/-- The number of digits before the point of the positive number `n / d`; for a number below one,
minus the number of zeros after it. -/
def decimalPoint (n d : Nat) : Int :=
  if d ≤ n then ((n / d).repr.length : Int)
  else (((n * Nat.pow 10 400 / d).repr.length : Nat) : Int) - 400

/-- The decimal with `k` significant digits, if there is one, that is read as `m * 2 ^ e`: the
digits as a natural number and the exponent of ten of the last digit. All quantities are counted in
quarters of the last binary place and cleared of denominators. -/
def decimalWith? (m : Nat) (e point : Int) (k : Nat) : Option (Nat × Int) :=
  let unit : Int := point - k
  let grid := Nat.pow 10 unit.toNat * Nat.pow 2 (2 - e).toNat
  let quarter := Nat.pow 2 (e - 2).toNat * Nat.pow 10 (-unit).toNat
  let value := 4 * m * quarter
  let low := (4 * m - if m = Nat.pow 2 52 && e != -1074 then 1 else 2) * quarter
  let high := (4 * m + 2) * quarter
  let inside (y : Nat) : Bool :=
    if m % 2 = 0 then low ≤ y && y ≤ high else low < y && y < high
  let below := value / grid
  let above := below + 1
  let takeBelow :=
    if inside (below * grid) && inside (above * grid) then
      let down := value - below * grid
      let up := above * grid - value
      down < up || (down == up && below % 2 == 0)
    else inside (below * grid)
  if takeBelow then some (below, unit)
  else if inside (above * grid) then some (above, unit)
  else none

def stripZeros : Nat → Nat × Int → Nat × Int
  | 0, d => d
  | fuel + 1, (n, e) => if n % 10 = 0 && n != 0 then stripZeros fuel (n / 10, e + 1) else (n, e)

/-- Digits and exponent of the shortest decimal of `m * 2 ^ e`. Seventeen digits always suffice. -/
def shortest (m : Nat) (e : Int) : Nat × Int :=
  if m = 0 then (0, 0)
  else
    let point := decimalPoint (m * Nat.pow 2 e.toNat) (Nat.pow 2 (-e).toNat)
    let found := (List.range 17).findSome? fun k => decimalWith? m e point (k + 1)
    stripZeros 17 (found.getD (0, 0))

def zeros (n : Nat) : String := String.ofList (List.replicate n '0')

def layout (style : DecimalStyle) (digits : Nat) (exponent : Int) : String :=
  let text := toString digits
  let length : Int := text.length
  let lead := length + exponent - 1
  if style.leastPositional ≤ lead && lead ≤ style.mostPositional then
    if 0 ≤ exponent then text ++ zeros exponent.toNat ++ ".0"
    else if 0 ≤ lead then
      let whole := (lead + 1).toNat
      String.ofList (text.toList.take whole) ++ "." ++ String.ofList (text.toList.drop whole)
    else "0." ++ zeros (-lead - 1).toNat ++ text
  else
    let fraction := String.ofList (text.toList.drop 1)
    let mark := if lead < 0 then "e-" else "e+"
    let size := toString lead.natAbs
    String.ofList (text.toList.take 1) ++ (if fraction.isEmpty then "" else "." ++ fraction) ++
      mark ++ zeros (style.exponentWidth - size.length) ++ size

def toText (style : DecimalStyle) : Binary64 → String
  | .nan _ => style.nanText
  | .infinite negative => (if negative then "-" else "") ++ style.infinityText
  | .finite negative m e =>
    let (digits, exponent) := shortest m e
    (if negative then "-" else "") ++ layout style digits exponent

end Binary64
end NodeWorkflow.Number
