import NodeWorkflow.Text.Half
import NodeWorkflow.Text.Printable

/-!
# Quoted text

Text between quotes on one line: what is not printable is written as an escape with hexadecimal
digits. The quote is the single one, unless the text holds single quotes and no double ones.
-/
namespace NodeWorkflow.Text

def hexDigit (n : Nat) : Char :=
  Char.ofNat (if n < 10 then 48 + n else 87 + n)

/-- The low `width` hexadecimal digits of a number. -/
def hexDigits : Nat → Nat → List Char
  | 0, _ => []
  | width + 1, n => hexDigits width (n / 16) ++ [hexDigit (n % 16)]

def quoteFor (cs : List Char) : Char :=
  if cs.contains '\x27' && !cs.contains '\x22' then '\x22' else '\x27'

def escapeCode (n : Nat) : List Char :=
  if n < 0x100 then '\x5c' :: 'x' :: hexDigits 2 n
  else if n < 0x10000 then '\x5c' :: 'u' :: hexDigits 4 n
  else '\x5c' :: 'U' :: hexDigits 8 n

def escapeChar (quote c : Char) : List Char :=
  if c = quote || c = '\x5c' then ['\x5c', c]
  else if c = '\n' then ['\x5c', 'n']
  else if c = '\r' then ['\x5c', 'r']
  else if c = '\t' then ['\x5c', 't']
  else if isPrintable c then [c]
  else escapeCode c.toNat

def escapePoint (quote : Char) : Point → List Char
  | .char c => escapeChar quote c
  | .half unit => escapeCode unit

def quoted (s : String) : String :=
  let quote := quoteFor s.toList
  String.ofList (quote :: (points s).flatMap (escapePoint quote) ++ [quote])

end NodeWorkflow.Text
