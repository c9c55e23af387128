import AgentUplink.Lib.JsonText
import AgentUplink.Lib.Utf8

/-!
# The JSON scanner of the MCP export

One JSON-RPC message is scanned once and copied without its insignificant white space. The
scanner keeps its position as the characters that are left: every byte it compares with is an
ASCII byte, and a longer character inside a string is copied whole.
-/

open JsonText

namespace AgentUplink.Mcp

def maxDepth : Nat := 64

inductive JsonError
  | syntaxError
  | invalidUtf8
  | duplicateKey
  | tooDeep
  | notAnObject
  | trailingData
  deriving DecidableEq

structure Scanner where
  input : List Char
  out : List Char

namespace Scanner

def skipWhitespace (s : Scanner) : Scanner := { s with input := s.input.dropWhile isWs }

def expect (byte : Char) (s : Scanner) : Except JsonError Scanner :=
  match s.input with
  | c :: rest => if c = byte then .ok ⟨rest, s.out ++ [byte]⟩ else .error .syntaxError
  | [] => .error .syntaxError

def literal (text : List Char) (s : Scanner) : Except JsonError Scanner :=
  if s.input.take text.length = text then .ok ⟨s.input.drop text.length, s.out ++ text⟩
  else .error .syntaxError

/-- Go on at `rest`, with all that was passed copied. -/
def copyTo (s : Scanner) (rest : List Char) : Scanner :=
  ⟨rest, s.out ++ s.input.take (s.input.length - rest.length)⟩

/-! ## Numbers -/

def someDigits (input : List Char) : Except JsonError (List Char) :=
  if (input.head?.map Char.isDigit).getD false then .ok (input.dropWhile Char.isDigit)
  else .error .syntaxError

def skipMinus : List Char → List Char
  | '-' :: rest => rest
  | input => input

def intPart : List Char → Except JsonError (List Char)
  | '0' :: rest => .ok rest
  | input => someDigits input

def fracPart : List Char → Except JsonError (List Char)
  | '.' :: rest => someDigits rest
  | input => .ok input

def skipSign : List Char → List Char
  | '+' :: rest => rest
  | '-' :: rest => rest
  | input => input

def expPart : List Char → Except JsonError (List Char)
  | 'e' :: rest => someDigits (skipSign rest)
  | 'E' :: rest => someDigits (skipSign rest)
  | input => .ok input

def number (s : Scanner) : Except JsonError Scanner := do
  let rest ← intPart (skipMinus s.input)
  let rest ← fracPart rest
  let rest ← expPart rest
  .ok (s.copyTo rest)

/-! ## Strings -/

/-- The digits of an escape, one at a time. -/
def hexFor : Nat → Nat → List Char → Except JsonError (Nat × List Char)
  | 0, value, input => .ok (value, input)
  | _ + 1, _, [] => .error .syntaxError
  | n + 1, value, c :: rest =>
    match hexValue c with
    | some digit => hexFor n (value * 16 + digit) rest
    | none => .error .syntaxError

def hex4 (input : List Char) : Except JsonError (Nat × List Char) := hexFor 4 0 input

def pushScalar (scalar : Nat) (rest : List Char) : Except JsonError (Char × List Char) :=
  if scalar.isValidChar then .ok (Char.ofNat scalar, rest) else .error .invalidUtf8

/-- The rest of an escape `\u` whose first unit is `first`. -/
def unicodeEscape (first : Nat) (input : List Char) : Except JsonError (Char × List Char) :=
  if 0xd800 ≤ first ∧ first < 0xdc00 then
    match input with
    | [] => .error .syntaxError
    | c :: rest =>
      if c ≠ '\\' then .error .invalidUtf8
      else match rest with
        | [] => .error .syntaxError
        | c :: rest =>
          if c ≠ 'u' then .error .invalidUtf8
          else do
            let (second, rest) ← hex4 rest
            if ¬ (0xdc00 ≤ second ∧ second < 0xe000) then .error .invalidUtf8
            else pushScalar (0x10000 + ((first - 0xd800) <<< 10) + (second - 0xdc00)) rest
  else if 0xdc00 ≤ first ∧ first < 0xe000 then .error .invalidUtf8
  else pushScalar first input

def escape : List Char → Except JsonError (Char × List Char)
  | '"' :: rest => .ok ('"', rest)
  | '\\' :: rest => .ok ('\\', rest)
  | '/' :: rest => .ok ('/', rest)
  | 'b' :: rest => .ok (Char.ofNat 0x08, rest)
  | 'f' :: rest => .ok (Char.ofNat 0x0C, rest)
  | 'n' :: rest => .ok ('\n', rest)
  | 'r' :: rest => .ok ('\r', rest)
  | 't' :: rest => .ok ('\t', rest)
  | 'u' :: rest => do
    let (first, rest) ← hex4 rest
    unicodeEscape first rest
  | _ => .error .syntaxError

/-- The characters of a string up to its closing quote. -/
def stringFor : Nat → List Char → List Char → Except JsonError (List Char × List Char)
  -- not reached: every round takes a character
  | 0, _, _ => .error .syntaxError
  | _ + 1, _, [] => .error .syntaxError
  | fuel + 1, decoded, c :: rest =>
    if c = '"' then .ok (decoded, rest)
    else if c = '\\' then do
      let (c, rest) ← escape rest
      stringFor fuel (decoded ++ [c]) rest
    else if c.toNat < 0x20 then .error .syntaxError
    else stringFor fuel (decoded ++ [c]) rest

def string (s : Scanner) : Except JsonError (String × Scanner) :=
  match s.input with
  | '"' :: rest => do
    let (decoded, rest) ← stringFor (rest.length + 1) [] rest
    .ok (String.ofList decoded, s.copyTo rest)
  | _ => .error .syntaxError

/-! ## Values -/

/-- The loop of an array or an object: items with commas between them, up to `close`. -/
def separated {α : Type} (item : List α → Scanner → Except JsonError (α × Scanner))
    (close : Char) : Nat → List α → Scanner → Except JsonError Scanner
  -- not reached: every round but the last takes a comma
  | 0, _, _ => .error .syntaxError
  | fuel + 1, items, s => do
    let (a, s) ← item items s
    let s := s.skipWhitespace
    if s.input.head? = some ',' then do
      let s ← s.expect ','
      separated item close fuel (items ++ [a]) s
    else if s.input.head? = some close then s.expect close
    else .error .syntaxError

section

variable (value : Scanner → Except JsonError Scanner)

def element (_ : List Unit) (s : Scanner) : Except JsonError (Unit × Scanner) := do
  let s ← value s
  .ok ((), s)

def member (keys : List String) (s : Scanner) : Except JsonError (String × Scanner) := do
  let (key, s) ← s.skipWhitespace.string
  if key ∈ keys then .error .duplicateKey
  else do
    let s ← s.skipWhitespace.expect ':'
    let s ← value s
    .ok (key, s)

def array (s : Scanner) : Except JsonError Scanner := do
  let s ← s.expect '['
  let s := s.skipWhitespace
  if s.input.head? = some ']' then s.expect ']'
  else separated (element value) ']' (s.input.length + 1) [] s

def object (s : Scanner) : Except JsonError Scanner := do
  let s ← s.expect '{'
  let s := s.skipWhitespace
  if s.input.head? = some '}' then s.expect '}'
  else separated (member value) '}' (s.input.length + 1) [] s

end

def scalar (s : Scanner) : Except JsonError Scanner :=
  match s.input with
  | '"' :: _ => do
    let (_, s) ← s.string
    .ok s
  | 't' :: _ => s.literal ['t', 'r', 'u', 'e']
  | 'f' :: _ => s.literal ['f', 'a', 'l', 's', 'e']
  | 'n' :: _ => s.literal ['n', 'u', 'l', 'l']
  | c :: _ => if c = '-' ∨ c.isDigit then s.number else .error .syntaxError
  | [] => .error .syntaxError

/-- A value, after white space, where arrays and objects may nest `levels` deep. -/
def value : Nat → Scanner → Except JsonError Scanner
  | 0, s =>
    let s := s.skipWhitespace
    if s.input.head? = some '{' ∨ s.input.head? = some '[' then .error .tooDeep else s.scalar
  | levels + 1, s =>
    let s := s.skipWhitespace
    if s.input.head? = some '{' then object (value levels) s
    else if s.input.head? = some '[' then array (value levels) s
    else s.scalar

end Scanner

/-- One JSON object, without its insignificant white space. -/
def compactObject (input : List UInt8) : Except JsonError (List UInt8) :=
  match Utf8.ofBytes? input with
  | none => .error .invalidUtf8
  | some text =>
    let s := Scanner.skipWhitespace ⟨text.toList, []⟩
    if s.input.head? ≠ some '{' then
      .error (if s.input = [] then .syntaxError else .notAnObject)
    else do
      let s ← Scanner.value maxDepth s
      let s := s.skipWhitespace
      if s.input ≠ [] then .error .trailingData else .ok (Utf8.bytes (String.ofList s.out))

end AgentUplink.Mcp
