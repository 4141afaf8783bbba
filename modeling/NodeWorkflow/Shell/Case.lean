/-!
# Capitals and small letters

Texts in letters of any case, as far as they agree with words of ASCII letters.
-/
namespace NodeWorkflow.Text

/-- The small letter for a capital. Next to the ASCII ones only the Kelvin sign has a small letter
of ASCII. -/
def lowerChar (c : Char) : Char := if c.toNat = 0x212a then 'k' else c.toLower

def lower (s : String) : String := String.ofList (s.toList.map lowerChar)

/-- The letters outside ASCII whose capitals are ASCII letters: the sharp and the long s, the i
without a dot, and ligatures. -/
def foreignCapitals : List (Nat × String) :=
  [(0xdf, "SS"), (0x131, "I"), (0x17f, "S"), (0xfb00, "FF"), (0xfb01, "FI"), (0xfb02, "FL"),
    (0xfb03, "FFI"), (0xfb04, "FFL"), (0xfb05, "ST"), (0xfb06, "ST")]

def upperChar (c : Char) : List Char :=
  match foreignCapitals.lookup c.toNat with
  | some capitals => capitals.toList
  | none => [c.toUpper]

def upper (s : String) : String := String.ofList (s.toList.flatMap upperChar)

end NodeWorkflow.Text
