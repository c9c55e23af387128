/-
The connector's owner fence.

A connector serves one owner at a time. A fence with a newer epoch drops the
previous owner at once; the new one is admitted only after the connector has
committed the exact acknowledgement of that fence, within the time the fence
carries. Every operation takes the caller's clock, and a call that fails may
still have recorded that time or have found the handshake expired.
-/
import AgentUplink.Lib.Weakest
import AgentUplink.Protocol.RotationControl

namespace AgentUplink

open Machine Fallible

def maxOwnerFenceRemainingMs : Nat := 20000

def ownerDigestHexBytes : Nat := 64

def validateEpoch (epoch : Nat) : Except ControlError Unit :=
  if epoch = 0 then .error (.zeroCounter "epoch") else .ok ()

def isLowerHex (byte : UInt8) : Bool :=
  (48 ≤ byte && byte ≤ 57) || (97 ≤ byte && byte ≤ 102)

def validateOwnerDigest (value : String) : Except ControlError Unit :=
  if value.utf8ByteSize ≠ ownerDigestHexBytes ||
      value.toByteArray.data.toList.any (fun byte => !isLowerHex byte) then
    .error (.invalidDigest "owner_id")
  else .ok ()

def validateRemainingMs (value : Nat) : Except ControlError Unit :=
  if 1 ≤ value ∧ value ≤ maxOwnerFenceRemainingMs then .ok ()
  else .error (.invalidOwnerFenceLifetime value)

/-! ## Messages -/

structure OwnerFence where
  messageId : String
  sessionId : String
  epoch : Nat
  ownerId : String
  nonce : String
  remainingMs : Nat
  deriving DecidableEq

def OwnerFence.validate (f : OwnerFence) : Except ControlError Unit := do
  validateId "message_id" f.messageId
  validateId "session_id" f.sessionId
  validateEpoch f.epoch
  validateOwnerDigest f.ownerId
  validateId "nonce" f.nonce
  validateRemainingMs f.remainingMs

structure OwnerFenced where
  messageId : String
  replyTo : String
  sessionId : String
  epoch : Nat
  ownerId : String
  nonce : String
  remainingMs : Nat
  deriving DecidableEq

namespace OwnerFenced

def fromFence (messageId : String) (fence : OwnerFence) : OwnerFenced where
  messageId := messageId
  replyTo := fence.messageId
  sessionId := fence.sessionId
  epoch := fence.epoch
  ownerId := fence.ownerId
  nonce := fence.nonce
  remainingMs := fence.remainingMs

def validate (a : OwnerFenced) : Except ControlError Unit := do
  validateId "message_id" a.messageId
  validateId "reply_to" a.replyTo
  validateId "session_id" a.sessionId
  validateEpoch a.epoch
  validateOwnerDigest a.ownerId
  validateId "nonce" a.nonce
  validateRemainingMs a.remainingMs

def echoes {α : Type} [DecidableEq α] (field : String) (actual expected : α) :
    Except ControlError Unit :=
  if actual ≠ expected then .error (.contextMismatch field) else .ok ()

/-- The acknowledgement is for exactly this fence. -/
def validateContext (a : OwnerFenced) (fence : OwnerFence) : Except ControlError Unit := do
  a.validate
  fence.validate
  echoes "reply_to" a.replyTo fence.messageId
  echoes "session_id" a.sessionId fence.sessionId
  echoes "owner_id" a.ownerId fence.ownerId
  echoes "nonce" a.nonce fence.nonce
  echoes "epoch" a.epoch fence.epoch
  echoes "remaining_ms" a.remainingMs fence.remainingMs

end OwnerFenced

/-! ## The state machine -/

inductive OwnerFencePhase
  | unfenced
  | awaitingAcknowledgement
  | fenced
  | expired
  | invalidated
  deriving DecidableEq

inductive OwnerFenceError
  | control (error : ControlError)
  | sessionMismatch
  | epochRollback (current proposed : Nat)
  | epochConflict (epoch : Nat)
  | fenceConflict (epoch : Nat)
  | staleAcknowledgement
  | acknowledgementRequired
  | notFenced
  | staleOwner
  | ownerInvalidated
  | deadlineExpired (now deadline : Nat)
  | deadlineOverflow
  | clockWentBackwards (previous now : Nat)
  deriving DecidableEq

structure OwnerFenceState where
  sessionId : String
  phase : OwnerFencePhase
  currentFence : Option OwnerFence
  acknowledgement : Option OwnerFenced
  deadlineMs : Option Nat
  lastNowMs : Option Nat
  deriving DecidableEq

/-- A method that may change the state and then fail. -/
abbrev Fencing := EStateM OwnerFenceError OwnerFenceState

namespace OwnerFenceState

def new (sessionId : String) : Except OwnerFenceError OwnerFenceState := do
  (validateId "session_id" sessionId).mapError .control
  return { sessionId, phase := .unfenced, currentFence := none, acknowledgement := none,
           deadlineMs := none, lastNowMs := none }

def validated (r : Except ControlError Unit) : Fencing Unit := check (r.mapError .control)

def setPhase (phase : OwnerFencePhase) : Fencing Unit := modify ({ · with phase })

def observeTime (now : Nat) : Fencing Unit := do
  match (← get).lastNowMs with
  | some previous => failIf (now < previous) (.clockWentBackwards previous now)
  | none => pure ()
  modify ({ · with lastNowMs := some now })

/-- A pending handshake past its deadline expires, whichever call finds it so. -/
def pendingHandshake (missing : OwnerFenceError) (now : Nat) : Fencing Unit := do
  let deadlineMs ← orFail (← get).deadlineMs missing
  if now ≥ deadlineMs then
    setPhase .expired
    throw (.deadlineExpired now deadlineMs)

def retryFence (current fence : OwnerFence) (now : Nat) : Fencing OwnerFenced := do
  let s ← get
  failIf (fence.ownerId ≠ current.ownerId) (.epochConflict fence.epoch)
  failIf (fence.nonce ≠ current.nonce ∨ fence.messageId ≠ current.messageId ∨
    fence.remainingMs ≠ current.remainingMs) (.fenceConflict fence.epoch)
  failIf (s.phase = .invalidated) .ownerInvalidated
  failIf (s.phase = .expired) (.deadlineExpired now (s.deadlineMs.getD now))
  if s.phase = .awaitingAcknowledgement then
    pendingHandshake .acknowledgementRequired now
  orFail s.acknowledgement .acknowledgementRequired

/-- A fence with no predecessor, or newer than the current one. -/
def bindFence (fence : OwnerFence) (acknowledgementId : String) (now : Nat) :
    Fencing OwnerFenced := do
  let deadlineMs ← orFail (checkedAdd now fence.remainingMs) .deadlineOverflow
  let acknowledgement := OwnerFenced.fromFence acknowledgementId fence
  validated (acknowledgement.validateContext fence)
  modify ({ · with
    currentFence := some fence
    acknowledgement := some acknowledgement
    deadlineMs := some deadlineMs
    phase := .awaitingAcknowledgement })
  return acknowledgement

def acceptFence (fence : OwnerFence) (acknowledgementId : String) (now : Nat) :
    Fencing OwnerFenced := do
  validated fence.validate
  observeTime now
  let s ← get
  failIf (fence.sessionId ≠ s.sessionId) .sessionMismatch
  match s.currentFence with
  | none => bindFence fence acknowledgementId now
  | some current =>
    failIf (fence.epoch < current.epoch) (.epochRollback current.epoch fence.epoch)
    if fence.epoch = current.epoch then retryFence current fence now
    else bindFence fence acknowledgementId now

def acknowledgementSent (acknowledgement : OwnerFenced) (now : Nat) : Fencing Unit := do
  validated acknowledgement.validate
  observeTime now
  let s ← get
  let expected ← orFail s.acknowledgement .staleAcknowledgement
  failIf (acknowledgement ≠ expected) .staleAcknowledgement
  match s.phase with
  | .fenced => pure ()
  | .awaitingAcknowledgement =>
    pendingHandshake .staleAcknowledgement now
    setPhase .fenced
  | .unfenced | .expired | .invalidated => throw .staleAcknowledgement

def invalidateOwner : Fencing Unit :=
  modify ({ · with phase := .invalidated, acknowledgement := none })

def authorize (ownerId : String) (epoch now : Nat) : Fencing Unit := do
  validated (validateOwnerDigest ownerId)
  validated (validateEpoch epoch)
  observeTime now
  let s ← get
  let current ← orFail s.currentFence .notFenced
  failIf (ownerId ≠ current.ownerId ∨ epoch ≠ current.epoch) .staleOwner
  match s.phase with
  | .fenced => pure ()
  | .awaitingAcknowledgement =>
    pendingHandshake .acknowledgementRequired now
    throw .acknowledgementRequired
  | .unfenced => throw .notFenced
  | .expired => throw (.deadlineExpired now (s.deadlineMs.getD now))
  | .invalidated => throw .ownerInvalidated

end OwnerFenceState

end AgentUplink
