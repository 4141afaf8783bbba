import NodeWorkflow.Shell.Bytes

/-!
# Encodings of JSON text

JSON text comes in UTF-8, UTF-16 or UTF-32. It starts with a character of ASCII, so the places of
the zeros among its first bytes tell the encoding.
-/
namespace NodeWorkflow.Json

inductive Encoding where
  | utf8
  | utf16 (bigEndian : Bool)
  | utf32 (bigEndian : Bool)
  deriving DecidableEq

namespace Encoding

/-- The encoding of bytes. Only two bytes, or four and more, can show another one than UTF-8. -/
def ofBytes : List UInt8 → Encoding
  | [a, b] => if a = 0 then .utf16 true else if b = 0 then .utf16 false else .utf8
  | a :: b :: c :: d :: _ =>
    if a = 0 then if b = 0 then .utf32 true else .utf16 true
    else if b = 0 then if c = 0 && d = 0 then .utf32 false else .utf16 false
    else .utf8
  | _ => .utf8

def dropMark (s : String) : String :=
  match s.toList with
  | c :: rest => if c.toNat = 0xfeff then String.ofList rest else s
  | [] => s

/-- The text that is meant by a text whose bytes in UTF-8 are sent; `none` if they are no text in
the encoding that they show. -/
def read? (s : String) : Option String :=
  let bytes := (Text.toRaw s).toUTF8.toList
  match ofBytes bytes with
  | .utf8 => some (dropMark s)
  | .utf16 bigEndian => Text.ofUtf16? bigEndian bytes
  | .utf32 bigEndian => Text.ofUtf32? bigEndian bytes

end Encoding
end NodeWorkflow.Json
