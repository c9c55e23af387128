import AgentUplink.Http.Json
import AgentUplink.Http.Validate
import AgentUplink.Lib.Decimal

/-!
# Request and response heads

A head is the JSON payload of the first record of its direction. Parsing takes an object with
exactly the expected keys and then applies the policy. Encoding writes the JSON and parses it
again with the same policy.
-/

open JsonText Machine

namespace AgentUplink.Http

namespace Method

def all : List Method := [get, head, post, put, patch, delete, options]

def asStr : Method → String
  | get => "GET"
  | head => "HEAD"
  | post => "POST"
  | put => "PUT"
  | patch => "PATCH"
  | delete => "DELETE"
  | options => "OPTIONS"

def parse (value : String) : Except CodecError Method :=
  match all.find? fun method => method.asStr == value with
  | some method => .ok method
  | none => .error .invalidMethod

end Method

namespace HttpVersion

def asStr : HttpVersion → String
  | http11 => "1.1"
  | http2 => "2"

def parse (value : String) : Except CodecError HttpVersion :=
  if value = "1.1" then .ok http11
  else if value = "2" then .ok http2
  else .error .invalidHttpVersion

end HttpVersion

structure RequestHead where
  method : Method
  path : String
  query : String
  httpVersion : HttpVersion
  headers : List HeaderField
  bodyLength : Option UInt64
  deriving DecidableEq

structure ResponseHead where
  status : UInt16
  headers : List HeaderField
  bodyLength : Option UInt64
  deriving DecidableEq

/-! ## Parsing -/

def requestKeys : List String :=
  ["method", "path", "query", "http_version", "headers", "body_length"]

def responseKeys : List String := ["status", "headers", "body_length"]

def placeEntry (keys : List String) (found : List (Option Value)) (member : String × Value) :
    Except CodecError (List (Option Value)) :=
  match keys.idxOf? member.1 with
  | none => .error .unknownKey
  | some index => .ok (found.set index (some member.2))

def requireEntry : Option Value → Except CodecError Value
  | some entry => .ok entry
  | none => .error .missingKey

/-- The members of an object in the order of `keys`, with no other member. -/
def exactFields (value : Value) (keys : List String) : Except CodecError (List Value) :=
  match value with
  | .object entries => do
    let found ← entries.foldlM (placeEntry keys) (keys.map fun _ => none)
    found.mapM requireEntry
  | _ => .error .notAnObject

def asStr : Value → Except CodecError String
  | .string text => .ok text
  | _ => .error .wrongType

def parseField : Value → Except CodecError HeaderField
  | .array [.string name, .string value] => .ok { name, value }
  | _ => .error .wrongType

def parseHeaders : Value → Except CodecError (List HeaderField)
  | .array items => items.mapM parseField
  | _ => .error .wrongType

def addDigit (total : Nat) (digit : Char) : Option Nat :=
  if total * 10 < wordBound then checkedAdd (total * 10) (digit.toNat - '0'.toNat) else none

def parseCanonicalU64 (text : String) : Except CodecError UInt64 :=
  let digits := text.toList
  if digits = [] ∨ ¬ digits.all Char.isDigit then .error .invalidBodyLength
  else if digits.length > 1 ∧ digits.head? = some '0' then .error .invalidBodyLength
  else match digits.foldlM addDigit 0 with
    | some total => .ok (UInt64.ofNat total)
    | none => .error .invalidBodyLength

def parseBodyLength : Value → Except CodecError (Option UInt64)
  | .null => .ok none
  | .string text => (parseCanonicalU64 text).map some
  | _ => .error .wrongType

def parseRequestHead (payload : List UInt8) (policy : RequestPolicy) :
    Except CodecError RequestHead := do
  let value ← parse payload
  match ← exactFields value requestKeys with
  | [method, path, query, httpVersion, headers, bodyLength] => do
    let method ← Method.parse (← asStr method)
    let path ← asStr path
    let query ← asStr query
    let httpVersion ← HttpVersion.parse (← asStr httpVersion)
    let headers ← parseHeaders headers
    let bodyLength ← parseBodyLength bodyLength
    (validatePath path).mapError .invalidPath
    if ¬ policy.routeAllowed method path then .error .routeNotAllowed
    else if ¬ policy.versionAllowed httpVersion then .error .httpVersionNotAllowed
    else do
      let _ ← (validateQuery query policy.query).mapError .invalidQuery
      (validateHeaders headers policy.headers).mapError .invalidHeader
      .ok { method, path, query, httpVersion, headers, bodyLength }
  -- there are as many fields as keys
  | _ => .error .missingKey

/-- Three digits, from 200 to 599. -/
def parseStatus (lexeme : String) : Except CodecError UInt16 :=
  if lexeme.utf8ByteSize ≠ 3 ∨ ¬ lexeme.toList.all Char.isDigit then .error .invalidStatus
  else
    let status := Decimal.value lexeme.toList
    if 200 ≤ status ∧ status ≤ 599 then .ok (UInt16.ofNat status) else .error .invalidStatus

def requiresZeroBody (requestMethod : Method) (status : UInt16) : Bool :=
  requestMethod == .head || status == 204 || status == 205 || status == 304

def parseResponseHead (payload : List UInt8) (policy : ResponsePolicy) (requestMethod : Method) :
    Except CodecError ResponseHead := do
  let value ← parse payload
  match ← exactFields value responseKeys with
  | [status, headers, bodyLength] => do
    let status ← match status with
      | .number lexeme => parseStatus lexeme
      | _ => .error .wrongType
    let headers ← parseHeaders headers
    let bodyLength ← parseBodyLength bodyLength
    (validateHeaders headers policy.headers).mapError .invalidHeader
    if requiresZeroBody requestMethod status ∧ bodyLength ≠ some 0 then .error .zeroBodyRequired
    else .ok { status, headers, bodyLength }
  | _ => .error .missingKey

/-! ## Writing -/

def writeField (field : HeaderField) (out : List Char) : List Char :=
  let out := writeString field.name (out ++ ['['])
  writeString field.value (out ++ [',']) ++ [']']

def writeFields : Nat → List HeaderField → List Char → List Char
  | _, [], out => out
  | index, field :: fields, out =>
    writeFields (index + 1) fields (writeField field (if index > 0 then out ++ [','] else out))

def writeHeaders (headers : List HeaderField) (out : List Char) : List Char :=
  writeFields 0 headers (out ++ ['[']) ++ [']']

def writeBodyLength (bodyLength : Option UInt64) (out : List Char) : List Char :=
  match bodyLength with
  | none => out ++ "null".toList
  | some length => out ++ ['"'] ++ Decimal.text length.toNat ++ ['"']

def requestHeadJson (head : RequestHead) : String :=
  let out := "\x7b\"method\":".toList
  let out := writeString head.method.asStr out
  let out := writeString head.path (out ++ ",\"path\":".toList)
  let out := writeString head.query (out ++ ",\"query\":".toList)
  let out := writeString head.httpVersion.asStr (out ++ ",\"http_version\":".toList)
  let out := writeHeaders head.headers (out ++ ",\"headers\":".toList)
  let out := writeBodyLength head.bodyLength (out ++ ",\"body_length\":".toList)
  String.ofList (out ++ ['}'])

def responseHeadJson (head : ResponseHead) : String :=
  let out := "\x7b\"status\":".toList ++ Decimal.text head.status.toNat ++ ",\"headers\":".toList
  let out := writeHeaders head.headers out
  let out := writeBodyLength head.bodyLength (out ++ ",\"body_length\":".toList)
  String.ofList (out ++ ['}'])

/-- The record of a head, once the text `json` has been parsed as `head` again. -/
def encodeHead {H : Type} [DecidableEq H] (kind : RecordKind) (json : H → String)
    (parse : List UInt8 → Except CodecError H) (head : H) (out : List UInt8) :
    Except CodecError (List UInt8) :=
  let text := json head
  if text.utf8ByteSize > maxHeadPayloadLen then .error .headTooLarge
  else do
    let reparsed ← parse (Utf8.bytes text)
    if reparsed ≠ head then .error .encoderRoundTrip
    else encodeRecord kind (Utf8.bytes text) out

def encodeRequestHead (head : RequestHead) (policy : RequestPolicy) (out : List UInt8) :
    Except CodecError (List UInt8) :=
  encodeHead .requestHead requestHeadJson (fun payload => parseRequestHead payload policy) head out

def encodeResponseHead (head : ResponseHead) (policy : ResponsePolicy) (requestMethod : Method)
    (out : List UInt8) : Except CodecError (List UInt8) :=
  encodeHead .responseHead responseHeadJson
    (fun payload => parseResponseHead payload policy requestMethod) head out

end AgentUplink.Http
