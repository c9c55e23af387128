import AgentUplink.Protocol.ResumeState

/-!
# The messages of an OPEN exchange

OPEN asks for a stream, OPENED or REJECTED answers it, and the initial
AUTHORIZATION_CHALLENGE follows an OPENED. Their checks and their encoding. The
refusals a connector sends are a fixed table.
-/

namespace AgentUplink

open Std

def maxAuthorizationMessageBytes : Nat := 2 * 1024

def maxMetadataEntries : Nat := 64

def maxMetadataKeyBytes : Nat := 128

def maxMetadataValueBytes : Nat := 4096

def maxReasonBytes : Nat := 1024

structure Open where
  messageId : String
  sessionId : String
  epoch : Nat
  streamId : UInt64
  operationId : String
  serviceId : String
  operation : String
  initialSendWindow : Nat
  initialReceiveWindow : Nat
  metadata : ExtTreeMap String String

structure OpenControl.Opened where
  messageId : String
  replyTo : String
  sessionId : String
  epoch : Nat
  streamId : UInt64
  operationId : String
  sendWindow : Nat
  receiveWindow : Nat

structure Rejected where
  messageId : String
  replyTo : String
  sessionId : String
  epoch : Nat
  streamId : UInt64
  operationId : String
  code : String
  reason : String

structure AuthorizationChallenge where
  messageId : String
  sessionId : String
  epoch : Nat
  streamId : UInt64
  challengeId : String
  nonce : String
  serviceId : String
  permissionDigest : String
  grantRevision : Nat

inductive OpenControl where
  | request (message : Open)
  | opened (message : OpenControl.Opened)
  | rejected (message : Rejected)
  | authorizationChallenge (message : AuthorizationChallenge)

/-! ## Refusals -/

/-- One refusal a connector sends, with the code and the reason on the wire. -/
structure OpenRefusal where
  code : String
  reason : String

namespace OpenRefusal

def connectorDraining : OpenRefusal := ⟨"GOAWAY", "connector is draining"⟩

def streamLimit : OpenRefusal := ⟨"RESOURCE_EXHAUSTED", "stream limit reached"⟩

def openAdmissionFull : OpenRefusal := ⟨"RESOURCE_EXHAUSTED", "bounded OPEN admission is full"⟩

def openRetentionFull : OpenRefusal :=
  ⟨"RESOURCE_EXHAUSTED", "parsed OPEN retention is full; start a fresh session"⟩

def openIdempotencyFull : OpenRefusal :=
  ⟨"RESOURCE_EXHAUSTED", "OPEN idempotency retention is full; start a fresh session"⟩

def exportNotAllowlisted : OpenRefusal := ⟨"EXPORT_DENIED", "service is not locally allowlisted"⟩

def operationNotEnabled : OpenRefusal :=
  ⟨"OPERATION_DENIED", "only the local echo operations are enabled"⟩

def streamActiveOrForgotten : OpenRefusal :=
  ⟨"STREAM_EXISTS", "stream ID is already active or was already forgotten"⟩

def streamForgotten : OpenRefusal :=
  ⟨"STREAM_EXISTS", "stream ID was already forgotten; start a fresh session"⟩

def openForgotten : OpenRefusal :=
  ⟨"STALE_REQUEST", "OPEN was already forgotten; start a fresh session"⟩

def authorizationWindowExpired : OpenRefusal :=
  ⟨"AUTHORIZATION_EXPIRED", "OPEN authorization window expired before admission"⟩

end OpenRefusal

/-! ## Checks -/

def validateReason (field value : String) : Except ControlError Unit :=
  if value.utf8ByteSize > maxReasonBytes then
    .error (.valueTooLong field value.utf8ByteSize maxReasonBytes)
  else .ok ()

def validateMetadataEntry (entry : String × String) : Except ControlError Unit :=
  if entry.1.isEmpty || entry.1.utf8ByteSize > maxMetadataKeyBytes ||
      entry.1.toList.any isControl then
    .error (.valueTooLong "metadata_key" entry.1.utf8ByteSize maxMetadataKeyBytes)
  else if entry.2.utf8ByteSize > maxMetadataValueBytes then
    .error (.valueTooLong "metadata_value" entry.2.utf8ByteSize maxMetadataValueBytes)
  else .ok ()

def validateMetadata (metadata : ExtTreeMap String String) : Except ControlError Unit :=
  if metadata.size > maxMetadataEntries then
    .error (.tooManyEntries "metadata" maxMetadataEntries)
  else metadata.toList.forM validateMetadataEntry

namespace OpenControl

def messageId : OpenControl → String
  | request m => m.messageId
  | opened m => m.messageId
  | rejected m => m.messageId
  | authorizationChallenge m => m.messageId

def validate (message : OpenControl) : Except ControlError Unit := do
  validateId "message_id" message.messageId
  match message with
  | request m =>
    validateId "session_id" m.sessionId
    validateNonzero "stream_id" m.streamId.toNat
    validateId "operation_id" m.operationId
    validateId "service_id" m.serviceId
    validateId "operation" m.operation
    validateMetadata m.metadata
  | opened m =>
    validateId "reply_to" m.replyTo
    validateId "session_id" m.sessionId
    validateNonzero "stream_id" m.streamId.toNat
    validateId "operation_id" m.operationId
  | rejected m =>
    validateId "reply_to" m.replyTo
    validateId "session_id" m.sessionId
    validateNonzero "stream_id" m.streamId.toNat
    validateId "operation_id" m.operationId
    validateId "code" m.code
    validateReason "reason" m.reason
  | authorizationChallenge m =>
    validateId "session_id" m.sessionId
    validateNonzero "stream_id" m.streamId.toNat
    validateId "challenge_id" m.challengeId
    validateId "nonce" m.nonce
    validateId "service_id" m.serviceId
    validateId "permission_digest" m.permissionDigest

def encodedLimit : OpenControl → Nat
  | authorizationChallenge _ => maxAuthorizationMessageBytes
  | request _ | opened _ | rejected _ => maxControlMessageBytes

/-! ## The JSON text -/

def toJson : OpenControl → Json
  | request m =>
    .object
      ([("type", .string "OPEN"), ("message_id", .string m.messageId),
        ("session_id", .string m.sessionId), ("epoch", .counter m.epoch),
        ("stream_id", .counter m.streamId.toNat), ("operation_id", .string m.operationId),
        ("service_id", .string m.serviceId), ("operation", .string m.operation),
        ("initial_send_window", .counter m.initialSendWindow),
        ("initial_receive_window", .counter m.initialReceiveWindow)] ++
      if m.metadata.isEmpty then []
      else [("metadata", .object (m.metadata.toList.map fun entry => (entry.1, .string entry.2)))])
  | opened m =>
    .object
      [("type", .string "OPENED"), ("message_id", .string m.messageId),
        ("reply_to", .string m.replyTo), ("session_id", .string m.sessionId),
        ("epoch", .counter m.epoch), ("stream_id", .counter m.streamId.toNat),
        ("operation_id", .string m.operationId), ("send_window", .counter m.sendWindow),
        ("receive_window", .counter m.receiveWindow)]
  | rejected m =>
    .object
      [("type", .string "REJECTED"), ("message_id", .string m.messageId),
        ("reply_to", .string m.replyTo), ("session_id", .string m.sessionId),
        ("epoch", .counter m.epoch), ("stream_id", .counter m.streamId.toNat),
        ("operation_id", .string m.operationId), ("code", .string m.code),
        ("reason", .string m.reason)]
  | authorizationChallenge m =>
    .object
      [("type", .string "AUTHORIZATION_CHALLENGE"), ("message_id", .string m.messageId),
        ("session_id", .string m.sessionId), ("epoch", .counter m.epoch),
        ("stream_id", .counter m.streamId.toNat), ("challenge_id", .string m.challengeId),
        ("nonce", .string m.nonce), ("service_id", .string m.serviceId),
        ("permission_digest", .string m.permissionDigest),
        ("grant_revision", .counter m.grantRevision)]

def encode (message : OpenControl) : Except ControlError String := do
  message.validate
  let encoded := message.toJson.render
  if encoded.utf8ByteSize > message.encodedLimit then
    .error (.messageTooLarge encoded.utf8ByteSize message.encodedLimit)
  else .ok encoded

end OpenControl

end AgentUplink
