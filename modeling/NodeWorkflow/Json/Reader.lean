import NodeWorkflow.Json.Basic
import NodeWorkflow.Number.Numeral
import NodeWorkflow.Text.Half

/-!
# Reading data from text

The JSON grammar with the words `NaN`, `Infinity` and `-Infinity`. A number with a fraction or an
exponent is a binary number and any other an integer. Of two entries with one key the first gives
the place and the last the value. A text that is refused is refused at an offset, which counts
points.
-/
namespace NodeWorkflow.Json
open Number

namespace Reader

inductive Problem where
  | noValue
  | noKey
  | noColon
  | noComma
  | openString
  | control
  | escape
  | unit
  | extra
  | byteOrderMark

def Problem.message : Problem → String
  | .noValue => "Expecting value"
  | .noKey => "Expecting property name enclosed in double quotes"
  | .noColon => "Expecting ':' delimiter"
  | .noComma => "Expecting ',' delimiter"
  | .openString => "Unterminated string starting at"
  | .control => "Invalid control character at"
  | .escape => "Invalid \\escape"
  | .unit => "Invalid \\uXXXX escape"
  | .extra => "Extra data"
  | .byteOrderMark => "Unexpected UTF-8 BOM (decode using utf-8-sig)"

/-- Why reading stops: `invalid` counts the characters that were left. -/
inductive Stop where
  | invalid (problem : Problem) (left : Nat)
  | integerTooLong (digits : Nat)
  | tooDeep

abbrev Step := Except Stop

def skipSpace (cs : List Char) : List Char :=
  cs.dropWhile fun c => c == ' ' || c == '\t' || c == '\n' || c == '\r'

def isDigit (c : Char) : Bool :=
  48 ≤ c.toNat && c.toNat ≤ 57

def refuseUnit (cs : List Char) : Step (Nat × List Char) := .error (.invalid .unit (cs.length + 1))

/-- The four hexadecimal digits of an escape, given the characters after its letter. An escape must
not end the text. -/
def readUnit (cs : List Char) : Step (Nat × List Char) :=
  match cs with
  | a :: b :: c :: d :: e :: rest =>
    match Text.hexValue? a, Text.hexValue? b, Text.hexValue? c, Text.hexValue? d with
    | some a, some b, some c, some d => .ok (((a * 16 + b) * 16 + c) * 16 + d, e :: rest)
    | _, _, _, _ => refuseUnit cs
  | _ => refuseUnit cs

/-- The point of an escape by number: a high half takes a low one that follows it. -/
def readNumbered (cs : List Char) : Step (Text.Point × List Char) := do
  let (high, rest) ← readUnit cs
  match rest with
  | '\x5c' :: 'u' :: more =>
    if Text.isHighUnit high && !(more.drop 4).isEmpty then
      let (low, after) ← readUnit more
      if Text.isLowUnit low then .ok (.char (Text.ofPair high low), after)
      else .ok (.ofCode high, rest)
    else .ok (.ofCode high, rest)
  | _ => .ok (.ofCode high, rest)

def lettered? : Char → Option Char
  | '\x22' => some '\x22'
  | '\x5c' => some '\x5c'
  | '/' => some '/'
  | 'b' => some '\x08'
  | 'f' => some '\x0c'
  | 'n' => some '\n'
  | 'r' => some '\r'
  | 't' => some '\t'
  | _ => none

/-- Reads the rest of a string; `start` is what was left at its opening quote. -/
def readString (start : List Char) : Nat → List Char → List Char → Step (String × List Char)
  | 0, _, _ => .error (.invalid .openString start.length)
  | _ + 1, _, [] => .error (.invalid .openString start.length)
  | _ + 1, read, '\x22' :: rest => .ok (String.ofList read.reverse, rest)
  | _ + 1, _, ['\x5c'] => .error (.invalid .openString start.length)
  | fuel + 1, read, '\x5c' :: 'u' :: rest => do
    let (p, rest) ← readNumbered rest
    readString start fuel (p.kept.reverse ++ read) rest
  | fuel + 1, read, '\x5c' :: c :: rest =>
    match lettered? c with
    | some c => readString start fuel (c :: read) rest
    | none => .error (.invalid .escape (rest.length + 2))
  | fuel + 1, read, c :: rest =>
    if c.toNat ≤ 0x1f then .error (.invalid .control (rest.length + 1))
    else readString start fuel (c :: read) rest

def readFraction : List Char → List Char × List Char
  | '.' :: c :: rest =>
    if isDigit c then ((c :: rest).takeWhile isDigit, (c :: rest).dropWhile isDigit)
    else ([], '.' :: c :: rest)
  | cs => ([], cs)

def readExponent (cs : List Char) : Option (Int × List Char) :=
  match cs with
  | mark :: rest =>
    if mark == 'e' || mark == 'E' then
      let (negative, body) := splitSign rest
      let digits := body.takeWhile isDigit
      if digits.isEmpty then none
      else (exponent? digits).map fun n =>
        (if negative then -n else n, body.dropWhile isDigit)
    else none
  | [] => none

def readNumber (cs : List Char) : Step (Json × List Char) :=
  let (negative, body) := match cs with
    | '-' :: rest => (true, rest)
    | _ => (false, cs)
  let whole := match body with
    | '0' :: _ => ['0']
    | _ => body.takeWhile isDigit
  if whole.isEmpty then .error (.invalid .noValue cs.length)
  else
    let (fraction, rest) := readFraction (body.drop whole.length)
    let value (cs : List Char) : Nat := Text.digitsValue (cs.map fun c => c.toNat - 48)
    match readExponent rest with
    | some (e, rest) =>
      .ok (.float (Binary64.ofDecimal negative (value (whole ++ fraction)) (e - fraction.length)),
        rest)
    | none =>
      if !fraction.isEmpty then
        .ok (.float (Binary64.ofDecimal negative (value (whole ++ fraction)) (-fraction.length)),
          rest)
      else if integerDigitLimit < whole.length then .error (.integerTooLong whole.length)
      else .ok (.int (signed negative (value whole)), rest)

def words : List (List Char × Json) :=
  [("null".toList, .null), ("true".toList, .bool true), ("false".toList, .bool false),
    ("NaN".toList, .float (.nan true)), ("Infinity".toList, .float (.infinite false)),
    ("-Infinity".toList, .float (.infinite true))]

def readWord? (cs : List Char) : Option (Json × List Char) :=
  words.findSome? fun (word, v) =>
    if word.isPrefixOf cs then some (v, cs.drop word.length) else none

mutual

/-- Reads one value, which may nest `levels` deep. Each level uses two units of fuel and at least
one character. -/
def readValue : Nat → Nat → List Char → Step (Json × List Char)
  | 0, _, cs => .error (.invalid .noValue cs.length)
  | fuel + 1, levels, cs =>
    match cs with
    | [] => .error (.invalid .noValue 0)
    | '\x22' :: rest => do
      let (s, rest) ← readString cs fuel [] rest
      return (.str s, rest)
    | '\x7b' :: rest =>
      if levels = 0 then .error .tooDeep
      else match skipSpace rest with
        | '\x7d' :: rest => .ok (.obj [], rest)
        | rest => readMembers fuel (levels - 1) [] rest
    | '[' :: rest =>
      if levels = 0 then .error .tooDeep
      else match skipSpace rest with
        | ']' :: rest => .ok (.list [], rest)
        | rest => readItems fuel (levels - 1) [] rest
    | _ => match readWord? cs with
      | some found => .ok found
      | none => readNumber cs

def readMembers : Nat → Nat → Entries Json → List Char → Step (Json × List Char)
  | 0, _, _, cs => .error (.invalid .noKey cs.length)
  | fuel + 1, levels, read, cs =>
    match cs with
    | '\x22' :: rest => do
      let (key, rest) ← readString cs fuel [] rest
      match skipSpace rest with
      | ':' :: rest =>
        let (v, rest) ← readValue fuel levels (skipSpace rest)
        let read := read.put (.str key) v
        match skipSpace rest with
        | '\x7d' :: rest => .ok (.obj read, rest)
        | ',' :: rest => readMembers fuel levels read (skipSpace rest)
        | rest => .error (.invalid .noComma rest.length)
      | rest => .error (.invalid .noColon rest.length)
    | _ => .error (.invalid .noKey cs.length)

/-- Reads the items of a list from a value on; the items read are kept in reverse. -/
def readItems : Nat → Nat → List Json → List Char → Step (Json × List Char)
  | 0, _, _, cs => .error (.invalid .noValue cs.length)
  | fuel + 1, levels, read, cs => do
    let (v, rest) ← readValue fuel levels cs
    match skipSpace rest with
    | ']' :: rest => .ok (.list (v :: read).reverse, rest)
    | ',' :: rest => readItems fuel levels (v :: read) (skipSpace rest)
    | rest => .error (.invalid .noComma rest.length)

end

end Reader

/-- A place in a text. The offset counts points from zero, line and column count from one. -/
structure TextPlace where
  offset : Nat
  line : Nat
  column : Nat

def TextPlace.behind (cs : List Char) : TextPlace where
  offset := (Text.pointsOf cs).length
  line := cs.count '\n' + 1
  column := (Text.pointsOf (cs.reverse.takeWhile (· != '\n')).reverse).length + 1

/-- Why a text is not read. -/
inductive ReadFault where
  | invalid (problem : Reader.Problem) (place : TextPlace)
  | integerTooLong (digits : Nat)
  /-- The value nests deeper than it may. -/
  | tooDeep

def ReadFault.message? : ReadFault → Option String
  | .invalid problem place => some
    s!"{problem.message}: line {place.line} column {place.column} (char {place.offset})"
  | .integerTooLong digits => some (Number.tooLongMessage digits)
  | .tooDeep => none

/-- Reads a text that holds one value, nested `levels` deep at most, and space around it. A byte
order mark is not space. -/
def readWithin (levels : Nat) (s : String) : Except ReadFault Json :=
  let cs := s.toList
  let size := cs.length
  let result : Reader.Step Json := do
    if cs.head? = some (Char.ofNat 0xfeff) then throw (.invalid .byteOrderMark size)
    let (v, rest) ← Reader.readValue (2 * size + 2) levels (Reader.skipSpace cs)
    match Reader.skipSpace rest with
    | [] => pure v
    | rest => throw (.invalid .extra rest.length)
  match result with
  | .ok v => .ok v
  | .error (.invalid problem left) =>
    .error (.invalid problem (.behind (cs.take (size - left))))
  | .error (.integerTooLong digits) => .error (.integerTooLong digits)
  | .error .tooDeep => .error .tooDeep

end NodeWorkflow.Json
