import AgentUplink.Lib.Bytes
import AgentUplink.Lib.Fallible

/-!
# The records of a forwarded HTTP exchange

A record is an eight-byte header, `kind flags reserved[2] length[4]` in network byte order,
and a payload. The header is checked as a whole before a byte of the payload is read.
-/

open Bytes Fallible

namespace AgentUplink.Http

inductive PathRule
  | empty
  | tooLong
  | missingLeadingSlash
  | disallowedCharacter
  | percentEscape
  | backslash
  | queryOrFragmentDelimiter
  | nul
  | emptySegment
  | dotSegment
  deriving DecidableEq

inductive QueryRule
  | notPermitted
  | tooLong
  | tooManyPairs
  | emptyPair
  | emptyKey
  | disallowedCharacter
  | invalidPercentEscape
  | encodedKey
  | invalidUtf8
  | decodedControl
  | credentialParameter
  | unrecognizedKey
  | duplicateKey
  deriving DecidableEq

inductive HeaderRule
  | nameLength
  | nameCharacter
  | valueTooLong
  | valueCharacter
  | valueBoundaryWhitespace
  | tooManyFields
  | totalBytes
  | forbidden
  | unsupported
  | notAllowed
  | repeatedSingleton
  deriving DecidableEq

inductive CodecError
  | unknownKind (code : UInt8)
  | nonzeroFlags
  | nonzeroReserved
  | emptyHead
  | headTooLarge
  | emptyBody
  | recordTooLarge
  | endWithPayload
  | secondHead
  | wrongDirectionHead
  | bodyBeforeHead
  | endBeforeHead
  | bodyAfterEnd
  | repeatedEnd
  | dataAfterEnd
  | finBeforeEnd
  | eofInsideRecord
  | afterTerminal
  | invalidUtf8
  | jsonSyntax
  | invalidEscape
  | loneSurrogate
  | nestingTooDeep
  | trailingData
  | notAnObject
  | duplicateKey
  | unknownKey
  | missingKey
  | wrongType
  | invalidMethod
  | invalidHttpVersion
  | httpVersionNotAllowed
  | invalidStatus
  | invalidBodyLength
  | routeNotAllowed
  | zeroBodyRequired
  | invalidPath (rule : PathRule)
  | invalidQuery (rule : QueryRule)
  | invalidHeader (rule : HeaderRule)
  | declaredLengthExceedsLimit
  | bodyLimitExceeded
  | bodyShorterThanDeclared
  | bodyLongerThanDeclared
  | bodyForbidden
  | encoderRoundTrip
  deriving DecidableEq

def recordHeaderLen : Nat := 8

def maxRecordLen : Nat := 65536

def maxBodyPayloadLen : Nat := maxRecordLen - recordHeaderLen

def maxHeadPayloadLen : Nat := 16 * 1024

inductive RecordKind
  | requestHead
  | responseHead
  | body
  | finished
  deriving DecidableEq

namespace RecordKind

def code : RecordKind → UInt8
  | requestHead => 0x01
  | responseHead => 0x02
  | body => 0x03
  | finished => 0x04

def fromCode (code : UInt8) : Except CodecError RecordKind :=
  if code = 0x01 then .ok requestHead
  else if code = 0x02 then .ok responseHead
  else if code = 0x03 then .ok body
  else if code = 0x04 then .ok finished
  else .error (.unknownKind code)

theorem fromCode_eq_ok {code : UInt8} {kind : RecordKind} :
    fromCode code = .ok kind ↔ code = kind.code := by
  unfold fromCode
  cases kind <;> split_ifs <;> simp_all [RecordKind.code]

end RecordKind

def checkLength (kind : RecordKind) (len : Nat) : Except CodecError Unit :=
  match kind with
  | .requestHead | .responseHead =>
    if len = 0 then .error .emptyHead
    else if len > maxHeadPayloadLen then .error .headTooLarge
    else .ok ()
  | .body =>
    if len = 0 then .error .emptyBody
    else if len > maxBodyPayloadLen then .error .recordTooLarge
    else .ok ()
  | .finished => if len = 0 then .ok () else .error .endWithPayload

/-- A header whose length has been checked. -/
structure RecordHeader where
  kind : RecordKind
  payloadLen : Nat
  checked : checkLength kind payloadLen = .ok ()

namespace RecordHeader

def new (kind : RecordKind) (payloadLen : Nat) : Except CodecError RecordHeader :=
  match h : checkLength kind payloadLen with
  | .ok () => .ok { kind, payloadLen, checked := h }
  | .error error => .error error

def decode (bytes : List UInt8) : Except CodecError RecordHeader :=
  match bytes with
  | [code, flags, reserved, reserved', l0, l1, l2, l3] => do
    let kind ← RecordKind.fromCode code
    if flags ≠ 0 then .error .nonzeroFlags
    else if reserved ≠ 0 ∨ reserved' ≠ 0 then .error .nonzeroReserved
    else new kind (ofBytes [l0, l1, l2, l3])
  -- a header has eight bytes
  | _ => .error .eofInsideRecord

def encode (header : RecordHeader) : List UInt8 :=
  [header.kind.code, 0, 0, 0] ++ toBytes 4 header.payloadLen

end RecordHeader

def endRecord : List UInt8 := [RecordKind.finished.code, 0, 0, 0, 0, 0, 0, 0]

def encodeRecord (kind : RecordKind) (payload : List UInt8) (out : List UInt8) :
    Except CodecError (List UInt8) :=
  if 2 ^ 32 ≤ payload.length then
    .error (match kind with
      | .requestHead | .responseHead => .headTooLarge
      | .body => .recordTooLarge
      | .finished => .endWithPayload)
  else do
    let header ← RecordHeader.new kind payload.length
    return out ++ header.encode ++ payload

def recordBytes (kind : RecordKind) (payload : List UInt8) : List UInt8 :=
  [kind.code, 0, 0, 0] ++ toBytes 4 payload.length ++ payload

/-! ## Headers -/

namespace RecordHeader

@[ext] theorem ext {a b : RecordHeader} (hkind : a.kind = b.kind)
    (hlen : a.payloadLen = b.payloadLen) : a = b := by
  cases a
  cases b
  cases hkind
  cases hlen
  rfl

theorem new_eq_ok {kind : RecordKind} {payloadLen : Nat} {header : RecordHeader} :
    new kind payloadLen = .ok header ↔ header.kind = kind ∧ header.payloadLen = payloadLen := by
  unfold new
  constructor
  · intro h
    split at h
    · cases h
      exact ⟨rfl, rfl⟩
    · cases h
  · rintro ⟨rfl, rfl⟩
    split
    · rfl
    · next h =>
      rw [header.checked] at h
      cases h

section

variable (header : RecordHeader)

theorem payloadLen_le : header.payloadLen ≤ maxRecordLen := by
  have h := header.checked
  unfold checkLength at h
  split at h <;> split_ifs at h <;>
    simp_all [maxHeadPayloadLen, maxBodyPayloadLen, maxRecordLen, recordHeaderLen] <;> omega

theorem payloadLen_pos (h : header.kind ≠ .finished) : 0 < header.payloadLen := by
  have hcheck := header.checked
  refine Nat.pos_of_ne_zero fun hzero => ?_
  rw [hzero] at hcheck
  cases hkind : header.kind with
  | requestHead | responseHead | body =>
    rw [hkind] at hcheck
    cases hcheck
  | finished => exact h hkind

theorem payloadLen_of_finished (h : header.kind = .finished) : header.payloadLen = 0 := by
  have hcheck := header.checked
  rw [h, checkLength] at hcheck
  by_contra hne
  rw [if_neg hne] at hcheck
  cases hcheck

@[simp] theorem length_encode : header.encode.length = recordHeaderLen := by
  simp [encode, recordHeaderLen]

end

/-- A header is accepted exactly when it is what the header is written as. -/
theorem decode_eq_ok {bytes : List UInt8} {header : RecordHeader} :
    decode bytes = .ok header ↔ bytes = header.encode := by
  have hlt : header.payloadLen < 256 ^ 4 := by
    have := header.payloadLen_le
    simp only [maxRecordLen] at this
    omega
  constructor
  · intro h
    unfold decode at h
    split at h
    · next code flags reserved reserved' l0 l1 l2 l3 =>
      rw [except_bind_eq_ok] at h
      obtain ⟨kind, hkind, h⟩ := h
      rw [ite_error_eq_ok, ite_error_eq_ok] at h
      obtain ⟨hflags, hreserved, h⟩ := h
      obtain ⟨hkind', hlen⟩ := new_eq_ok.1 h
      rw [RecordKind.fromCode_eq_ok] at hkind
      have hzero : reserved = 0 ∧ reserved' = 0 := by simpa using hreserved
      have hbytes : toBytes 4 (ofBytes [l0, l1, l2, l3]) = [l0, l1, l2, l3] := toBytes_ofBytes rfl
      rw [encode, hkind', hlen, hbytes, ← hkind, hzero.1, hzero.2, not_not.1 hflags]
      rfl
    · cases h
  · intro h
    obtain ⟨l0, l1, l2, l3, hbytes⟩ : ∃ l0 l1 l2 l3,
        toBytes 4 header.payloadLen = [l0, l1, l2, l3] := by
      have hlen := length_toBytes 4 header.payloadLen
      generalize toBytes 4 header.payloadLen = l at hlen ⊢
      match l, hlen with
      | [l0, l1, l2, l3], _ => exact ⟨l0, l1, l2, l3, rfl⟩
    have hvalue := ofBytes_toBytes hlt
    rw [hbytes] at hvalue
    rw [h, encode, hbytes]
    show (RecordKind.fromCode header.kind.code >>= _) = _
    rw [RecordKind.fromCode_eq_ok.2 rfl, except_ok_bind]
    rw [if_neg (by simp), if_neg (by simp), hvalue]
    exact new_eq_ok.2 ⟨rfl, rfl⟩

theorem recordBytes_eq (header : RecordHeader) {payload : List UInt8}
    (h : payload.length = header.payloadLen) :
    recordBytes header.kind payload = header.encode ++ payload := by
  rw [recordBytes, encode, h]

end RecordHeader

theorem encodeRecord_eq_ok {kind : RecordKind} {payload : List UInt8}
    (h : checkLength kind payload.length = .ok ()) (out : List UInt8) :
    encodeRecord kind payload out = .ok (out ++ recordBytes kind payload) := by
  have hlen := RecordHeader.payloadLen_le ⟨kind, payload.length, h⟩
  have hnew : RecordHeader.new kind payload.length = .ok ⟨kind, payload.length, h⟩ :=
    RecordHeader.new_eq_ok.2 ⟨rfl, rfl⟩
  simp only [maxRecordLen] at hlen
  unfold encodeRecord
  rw [if_neg (by omega), hnew, except_ok_bind, RecordHeader.recordBytes_eq ⟨kind, _, h⟩ rfl,
    List.append_assoc]
  rfl

end AgentUplink.Http
