import AgentUplink.Http.Record
import AgentUplink.Lib.JsonText
import AgentUplink.Lib.Utf8

/-!
# The JSON of a head

A strict parser for the payload of a head record and the writer of JSON strings. The parser
keeps its position as the characters that are left: every byte it compares with is an ASCII
byte, so it stands between two characters whenever it looks at the input.
-/

open JsonText

namespace AgentUplink.Http

def maxDepth : Nat := 3

namespace Parser

def skipWhitespace (input : List Char) : List Char := input.dropWhile isWs

def expectLiteral (literal : List Char) (v : Value) (input : List Char) :
    Except CodecError (Value × List Char) :=
  if input.take literal.length = literal then .ok (v, input.drop literal.length)
  else .error .jsonSyntax

/-! ## Numbers -/

def digits (input : List Char) : List Char := input.dropWhile Char.isDigit

def someDigits (input : List Char) : Except CodecError (List Char) :=
  if (input.head?.map Char.isDigit).getD false then .ok (digits input) else .error .jsonSyntax

def skipMinus : List Char → List Char
  | '-' :: rest => rest
  | input => input

def intPart : List Char → Except CodecError (List Char)
  | '0' :: rest => .ok rest
  | input => someDigits input

def fracPart : List Char → Except CodecError (List Char)
  | '.' :: rest => someDigits rest
  | input => .ok input

def skipSign : List Char → List Char
  | '+' :: rest => rest
  | '-' :: rest => rest
  | input => input

def expPart : List Char → Except CodecError (List Char)
  | 'e' :: rest => someDigits (skipSign rest)
  | 'E' :: rest => someDigits (skipSign rest)
  | input => .ok input

/-- A number keeps the characters it was written with. -/
def number (input : List Char) : Except CodecError (Value × List Char) := do
  let rest ← intPart (skipMinus input)
  let rest ← fracPart rest
  let rest ← expPart rest
  .ok (.number (String.ofList (input.take (input.length - rest.length))), rest)

/-! ## Strings -/

def isPlain (c : Char) : Bool := c != '"' && c != '\\' && !decide (c.toNat < 0x20)

def charFromU32 (n : Nat) : Option Char := if n.isValidChar then some (Char.ofNat n) else none

def hex4 : List Char → Except CodecError (Nat × List Char)
  | a :: b :: c :: d :: rest =>
    match hexNumber 0 [a, b, c, d] with
    | some n => .ok (n, rest)
    | none => .error .invalidEscape
  | _ => .error .invalidEscape

/-- The rest of an escape `\u` whose first unit is `first`. -/
def unicodeEscape (first : Nat) (input : List Char) : Except CodecError (Char × List Char) :=
  if 0xD800 ≤ first ∧ first ≤ 0xDBFF then
    match input with
    | '\\' :: 'u' :: rest => do
      let (second, rest) ← hex4 rest
      if ¬ (0xDC00 ≤ second ∧ second ≤ 0xDFFF) then .error .loneSurrogate
      else match charFromU32 (0x10000 + ((first - 0xD800) <<< 10) + (second - 0xDC00)) with
        | some c => .ok (c, rest)
        | none => .error .loneSurrogate
    | _ => .error .loneSurrogate
  else if 0xDC00 ≤ first ∧ first ≤ 0xDFFF then .error .loneSurrogate
  else match charFromU32 first with
    | some c => .ok (c, input)
    | none => .error .invalidEscape

def escape : List Char → Except CodecError (Char × List Char)
  | '"' :: rest => .ok ('"', rest)
  | '\\' :: rest => .ok ('\\', rest)
  | '/' :: rest => .ok ('/', rest)
  | 'b' :: rest => .ok (Char.ofNat 0x08, rest)
  | 'f' :: rest => .ok (Char.ofNat 0x0C, rest)
  | 'n' :: rest => .ok ('\n', rest)
  | 'r' :: rest => .ok ('\r', rest)
  | 't' :: rest => .ok ('\t', rest)
  | 'u' :: rest => do
    let (first, rest) ← hex4 rest
    unicodeEscape first rest
  | _ => .error .invalidEscape

/-- The rounds of `string`: plain characters, then the closing quote or an escape. -/
def stringFor : Nat → List Char → List Char → Except CodecError (List Char × List Char)
  -- not reached: every round but the last takes an escape
  | 0, _, _ => .error .jsonSyntax
  | fuel + 1, out, input =>
    match input.dropWhile isPlain with
    | '"' :: rest => .ok (out ++ input.takeWhile isPlain, rest)
    | '\\' :: rest => do
      let (c, rest) ← escape rest
      stringFor fuel (out ++ input.takeWhile isPlain ++ [c]) rest
    -- a control character, or no end
    | _ => .error .jsonSyntax

/-- A string, after its opening quote. -/
def string (input : List Char) : Except CodecError (String × List Char) := do
  let (s, rest) ← stringFor (input.length + 1) [] input
  .ok (String.ofList s, rest)

/-! ## Values -/

/-- The loop of an array or an object: items with commas between them, up to `close`. An item
is read with the ones before it at hand. -/
def separated {α : Type} (item : List α → List Char → Except CodecError (α × List Char))
    (close : Char) : Nat → List α → List Char → Except CodecError (List α × List Char)
  -- not reached: every round but the last takes a comma
  | 0, _, _ => .error .jsonSyntax
  | fuel + 1, items, input => do
    let (a, rest) ← item items input
    match skipWhitespace rest with
    | c :: rest =>
      if c = ',' then separated item close fuel (items ++ [a]) rest
      else if c = close then .ok (items ++ [a], rest)
      else .error .jsonSyntax
    | [] => .error .jsonSyntax

section

variable (value : List Char → Except CodecError (Value × List Char))

def element (_ : List Value) (input : List Char) : Except CodecError (Value × List Char) :=
  value (skipWhitespace input)

def member (entries : List (String × Value)) (input : List Char) :
    Except CodecError ((String × Value) × List Char) :=
  match skipWhitespace input with
  | '"' :: rest => do
    let (key, rest) ← string rest
    if key ∈ entries.map Prod.fst then .error .duplicateKey
    else match skipWhitespace rest with
      | ':' :: rest => do
        let (v, rest) ← value (skipWhitespace rest)
        .ok ((key, v), rest)
      | _ => .error .jsonSyntax
  | _ => .error .jsonSyntax

/-- An array, after its opening bracket. -/
def array (input : List Char) : Except CodecError (Value × List Char) :=
  match skipWhitespace input with
  | ']' :: rest => .ok (.array [], rest)
  | items => do
    let (vs, rest) ← separated (element value) ']' (input.length + 1) [] items
    .ok (.array vs, rest)

/-- An object, after its opening brace. -/
def object (input : List Char) : Except CodecError (Value × List Char) :=
  match skipWhitespace input with
  | '}' :: rest => .ok (.object [], rest)
  | entries => do
    let (ms, rest) ← separated (member value) '}' (input.length + 1) [] entries
    .ok (.object ms, rest)

end

def scalar (input : List Char) : Except CodecError (Value × List Char) :=
  match input with
  | '"' :: rest => do
    let (s, rest) ← string rest
    .ok (.string s, rest)
  | 't' :: _ => expectLiteral ['t', 'r', 'u', 'e'] (.bool true) input
  | 'f' :: _ => expectLiteral ['f', 'a', 'l', 's', 'e'] (.bool false) input
  | 'n' :: _ => expectLiteral ['n', 'u', 'l', 'l'] .null input
  | c :: _ => if c = '-' ∨ c.isDigit then number input else .error .jsonSyntax
  | [] => .error .jsonSyntax

/-- A value at a place where arrays and objects may nest `levels` deep. -/
def value : Nat → List Char → Except CodecError (Value × List Char)
  | _, [] => .error .jsonSyntax
  | 0, c :: rest =>
    if c = '{' ∨ c = '[' then .error .nestingTooDeep else scalar (c :: rest)
  | levels + 1, c :: rest =>
    if c = '{' then object (value levels) rest
    else if c = '[' then array (value levels) rest
    else scalar (c :: rest)

end Parser

def parse (bytes : List UInt8) : Except CodecError Value :=
  match Utf8.ofBytes? bytes with
  | none => .error .invalidUtf8
  | some text => do
    let (v, rest) ← Parser.value maxDepth (Parser.skipWhitespace text.toList)
    if Parser.skipWhitespace rest ≠ [] then .error .trailingData else .ok v

/-! ## The writer -/

def escaped (c : Char) : List Char :=
  if c = '"' then ['\\', '"']
  else if c = '\\' then ['\\', '\\']
  else if c = '\n' then ['\\', 'n']
  else if c = '\r' then ['\\', 'r']
  else if c = '\t' then ['\\', 't']
  else if c.toNat < 0x20 ∨ c = Char.ofNat 0x7f then
    '\\' :: 'u' :: List.leftpad 4 '0' (Nat.toDigits 16 c.toNat)
  else [c]

def writeString (s : String) (out : List Char) : List Char :=
  out ++ '"' :: (s.toList.flatMap escaped ++ ['"'])

end AgentUplink.Http
