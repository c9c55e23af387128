import AgentUplink.Http.Record
import AgentUplink.Lib.Machine
import AgentUplink.Lib.Utf8

/-!
# Paths, queries and headers

The policies of a selected service profile and the checks of a head against them. A check
answers with the first rule that was broken.
-/

open Machine

namespace AgentUplink.Http

open Utf8

inductive Method
  | get
  | head
  | post
  | put
  | patch
  | delete
  | options
  deriving DecidableEq

inductive HttpVersion
  | http11
  | http2
  deriving DecidableEq

structure HeaderField where
  name : String
  value : String
  deriving DecidableEq

def maxPathLen : Nat := 1024

def maxQueryLen : Nat := 2 * 1024

def maxQueryPairs : Nat := 32

def maxHeaderNameLen : Nat := 128

def maxHeaderValueLen : Nat := 4 * 1024

def maxHeaderFields : Nat := 32

def maxHeaderTotalBytes : Nat := 8 * 1024

def maxBodyLimit : Nat := 1 <<< 40

def forbiddenHeaders : List String :=
  ["host", "connection", "keep-alive", "proxy-connection", "content-length", "authorization",
    "proxy-authorization", "proxy-authenticate", "cookie", "set-cookie", "forwarded", "via",
    "x-real-ip", "x-client-ip", "true-client-ip", "cf-connecting-ip"]

def forbiddenHeaderPrefixes : List String := ["x-forwarded-", "x-agent-tunnel-"]

def unsupportedHeaders : List String := ["transfer-encoding", "te", "trailer", "upgrade", "expect"]

def credentialQueryParameters : List String :=
  ["access_token", "id_token", "refresh_token", "token", "api_key", "apikey", "api-key", "key",
    "password", "passwd", "secret", "client_secret", "auth", "authorization", "session_token",
    "x-amz-security-token", "x-amz-signature", "sig", "signature"]

inductive Occurrence
  | singleton
  | repeatable
  deriving DecidableEq

structure Route where
  method : Method
  path : String

structure NameRule where
  name : String
  occurrence : Occurrence

structure HeaderPolicy where
  rules : List NameRule
  prefixes : List NameRule

structure QueryPolicy where
  rules : List NameRule

structure RequestPolicy where
  routes : List Route
  httpVersions : List HttpVersion
  query : QueryPolicy
  headers : HeaderPolicy
  bodyLimit : Nat
  -- no policy is built above the ceiling
  bounded : bodyLimit ≤ maxBodyLimit

structure ResponsePolicy where
  headers : HeaderPolicy
  bodyLimit : Nat
  bounded : bodyLimit ≤ maxBodyLimit

def startsWith (name start : String) : Bool :=
  name.toList.take start.toList.length == start.toList

def HeaderPolicy.occurrence (policy : HeaderPolicy) (name : String) : Option Occurrence :=
  let exact := policy.rules.find? fun rule => rule.name == name
  let rule := exact.or (policy.prefixes.find? fun rule =>
    decide (rule.name.utf8ByteSize < name.utf8ByteSize) && startsWith name rule.name)
  rule.map NameRule.occurrence

def QueryPolicy.occurrence (policy : QueryPolicy) (key : String) : Option Occurrence :=
  (policy.rules.find? fun rule => rule.name == key).map NameRule.occurrence

def RequestPolicy.routeAllowed (policy : RequestPolicy) (method : Method) (path : String) : Bool :=
  policy.routes.any fun route => route.method == method && route.path == path

def RequestPolicy.versionAllowed (policy : RequestPolicy) (version : HttpVersion) : Bool :=
  policy.httpVersions.contains version

/-! ## Paths -/

variable (byte : UInt8)

def isAsciiLower : Bool := 0x61 ≤ byte && byte ≤ 0x7A

def isAsciiUpper : Bool := 0x41 ≤ byte && byte ≤ 0x5A

def isAsciiDigit : Bool := 0x30 ≤ byte && byte ≤ 0x39

def isAsciiAlphanumeric : Bool :=
  isAsciiLower byte || isAsciiUpper byte || isAsciiDigit byte

def isOneOf (text : String) (byte : UInt8) : Bool := (bytes text).contains byte

def pathByte : Except PathRule Unit :=
  if isOneOf "/-._~" byte then .ok ()
  else if isAsciiAlphanumeric byte then .ok ()
  else if byte = 0 then .error .nul
  else if isOneOf "%" byte then .error .percentEscape
  else if isOneOf "\\" byte then .error .backslash
  else if isOneOf "?#" byte then .error .queryOrFragmentDelimiter
  else .error .disallowedCharacter

def pathSegment (segment : List Char) : Except PathRule Unit :=
  if segment = [] then .error .emptySegment
  else if segment = ['.'] ∨ segment = ['.', '.'] then .error .dotSegment
  else .ok ()

def validatePath (path : String) : Except PathRule Unit :=
  let bytes := bytes path
  if bytes = [] then .error .empty
  else if bytes.length > maxPathLen then .error .tooLong
  else do
    bytes.forM pathByte
    if path.toList.head? ≠ some '/' then .error .missingLeadingSlash
    else if path = "/" then .ok ()
    else ((path.toList.drop 1).splitOn '/').forM pathSegment

/-! ## Queries -/

def isRawQueryByte : Bool :=
  isAsciiAlphanumeric byte || isOneOf "-._~%!$&'()*,=:@/?" byte

def isCredentialParameter (key : String) : Bool :=
  credentialQueryParameters.any fun name =>
    name.toList.map Char.toLower == key.toList.map Char.toLower

def hexByte : Option UInt8 :=
  if isAsciiDigit byte then some (byte - 0x30)
  else if 0x61 ≤ byte ∧ byte ≤ 0x66 then some (byte - 0x61 + 10)
  else if 0x41 ≤ byte ∧ byte ≤ 0x46 then some (byte - 0x41 + 10)
  else none

/-- The bytes with every escape replaced, once. -/
def percentDecode : List UInt8 → Except QueryRule (List UInt8)
  | [] => .ok []
  | byte :: rest =>
    if byte = 0x25 then
      match rest with
      | high :: low :: rest =>
        match hexByte high, hexByte low with
        | some high, some low => do
          let decoded ← percentDecode rest
          .ok ((high <<< 4 ||| low) :: decoded)
        | _, _ => .error .invalidPercentEscape
      | _ => .error .invalidPercentEscape
    else do
      let decoded ← percentDecode rest
      .ok (byte :: decoded)

def isControl (c : Char) : Bool :=
  decide (c.toNat ≤ 0x1F) || (decide (0x7F ≤ c.toNat) && decide (c.toNat ≤ 0x9F))

def percentDecodeOnce (raw : String) : Except QueryRule String := do
  let decoded ← percentDecode (bytes raw)
  match ofBytes? decoded with
  | none => .error .invalidUtf8
  | some text => if text.toList.any isControl then .error .decodedControl else .ok text

def splitPair (pair : List Char) : String × String :=
  (String.ofList (pair.takeWhile (· ≠ '=')), String.ofList ((pair.dropWhile (· ≠ '=')).drop 1))

def queryPair (policy : QueryPolicy) (pairs : List (String × String)) (pair : List Char) :
    Except QueryRule (String × String) := do
  let (rawKey, rawValue) := splitPair pair
  if rawKey = "" then .error .emptyKey
  else
    let key ← percentDecodeOnce rawKey
    if key ≠ rawKey then
      if isCredentialParameter key then .error .credentialParameter else .error .encodedKey
    else
      let value ← percentDecodeOnce rawValue
      if isCredentialParameter key then .error .credentialParameter
      else match policy.occurrence key with
        | none => .error .unrecognizedKey
        | some occurrence =>
          if occurrence = .singleton ∧ key ∈ pairs.map Prod.fst then .error .duplicateKey
          else .ok (key, value)

def queryPairs (policy : QueryPolicy) :
    List (String × String) → List (List Char) → Except QueryRule (List (String × String))
  | pairs, [] => .ok pairs
  | pairs, pair :: rest =>
    -- there is one accepted pair for every index before this one
    if pairs.length ≥ maxQueryPairs then .error .tooManyPairs
    else if pair = [] then .error .emptyPair
    else do
      let accepted ← queryPair policy pairs pair
      queryPairs policy (pairs ++ [accepted]) rest

def validateQuery (query : String) (policy : QueryPolicy) :
    Except QueryRule (List (String × String)) :=
  if query = "" then .ok []
  else if policy.rules = [] then .error .notPermitted
  else if query.utf8ByteSize > maxQueryLen then .error .tooLong
  else if ¬ (bytes query).all isRawQueryByte then .error .disallowedCharacter
  else queryPairs policy [] (query.toList.splitOn '&')

/-! ## Headers -/

def isTcharLower (byte : UInt8) : Bool :=
  isAsciiLower byte || isAsciiDigit byte || isOneOf "!#$%&'*+-.^_\x60|~" byte

def validateHeaderName (name : String) : Except HeaderRule Unit :=
  if name = "" ∨ name.utf8ByteSize > maxHeaderNameLen then .error .nameLength
  else if ¬ (bytes name).all isTcharLower then .error .nameCharacter
  else .ok ()

def headerForbidden (name : String) : Option HeaderRule :=
  if name ∈ unsupportedHeaders then some .unsupported
  else if name ∈ forbiddenHeaders ∨ forbiddenHeaderPrefixes.any (startsWith name) then
    some .forbidden
  else none

def isBoundary (c : Option Char) : Bool := c == some ' ' || c == some '\t'

def validateHeaderValue (value : String) : Except HeaderRule Unit :=
  if value.utf8ByteSize > maxHeaderValueLen then .error .valueTooLong
  else if ¬ (bytes value).all (fun byte => byte == 0x09 || (0x20 ≤ byte && byte ≤ 0x7e)) then
    .error .valueCharacter
  else if isBoundary value.toList.head? ∨ isBoundary value.toList.getLast? then
    .error .valueBoundaryWhitespace
  else .ok ()

/-- The fields from one index on, after the fields `seen`. -/
def checkFields (policy : HeaderPolicy) :
    List HeaderField → Nat → List HeaderField → Except HeaderRule Unit
  | _, _, [] => .ok ()
  | seen, total, field :: rest => do
    validateHeaderName field.name
    validateHeaderValue field.value
    let sum := (checkedAdd total field.name.utf8ByteSize).bind fun sum =>
      checkedAdd sum field.value.utf8ByteSize
    match sum with
    | none => .error .totalBytes
    | some total =>
      if total > maxHeaderTotalBytes then .error .totalBytes
      else match headerForbidden field.name with
        | some rule => .error rule
        | none =>
          match policy.occurrence field.name with
          | none => .error .notAllowed
          | some occurrence =>
            if occurrence = .singleton ∧ field.name ∈ seen.map HeaderField.name then
              .error .repeatedSingleton
            else checkFields policy (seen ++ [field]) total rest

def validateHeaders (headers : List HeaderField) (policy : HeaderPolicy) :
    Except HeaderRule Unit :=
  if headers.length > maxHeaderFields then .error .tooManyFields
  else checkFields policy [] 0 headers

end AgentUplink.Http
