import NodeWorkflow.Shell.Bytes
import NodeWorkflow.Text.Digit

/-!
# Percent encoding

In an encoded text `%` and two hexadecimal digits stand for a byte; the bytes are read as UTF-8.
Which characters are encoded is up to the text.
-/
namespace NodeWorkflow.Text

/-- The bytes that encoded characters stand for. A `%` without digits stands for itself. -/
def percentBytes : List Char → List UInt8
  | [] => []
  | '%' :: a :: b :: rest =>
    match hexValue? a, hexValue? b with
    | some high, some low => UInt8.ofNat (16 * high + low) :: percentBytes rest
    | _, _ => '%'.toNat.toUInt8 :: percentBytes (a :: b :: rest)
  | c :: rest => (String.singleton c).toUTF8.toList ++ percentBytes rest

def percentDecode (s : String) : String := ofUtf8 (percentBytes (toRaw s).toList)

def percentByte (b : UInt8) : List Char :=
  ['%', Nat.digitChar (b.toNat / 16), Nat.digitChar (b.toNat % 16)]

def percentEncode (isKept : Char → Bool) (s : String) : String :=
  ofRaw <| String.ofList <| (toRaw s).toList.flatMap fun c =>
    if isKept c then [c] else (String.singleton c).toUTF8.toList.flatMap percentByte

end NodeWorkflow.Text
