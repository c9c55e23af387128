/-
The state of the data-carrier rotation machine.

The machine owns no sockets. A runtime supplies monotonic times and translates
phases into control messages; the machine decides which carrier is active, which
candidate is being prepared, and what evidence a handover has.

Connection identifiers are kept in finite sets, the times and generations are
natural numbers whose checked additions are explicit, and the arrays indexed by
direction are `PerDirection`.
-/
import AgentUplink.Protocol.RotationControl

namespace AgentUplink

open Machine

/-! ## Policy -/

def maxRosterEntries : Nat := 128
def maxDataSockets : Nat := 2
def controlSockets : Nat := 1
def maxTotalSockets : Nat := controlSockets + maxDataSockets
def maxConnectionIdHistory : Nat := 256
def maxRecoveryAttempts : Nat := 3
def maxRecoveryTimeoutMs : Nat := 30000

structure RotationConfig where
  rotationIntervalMs : Nat := 300000
  handshakeTimeoutMs : Nat := 10000
  overlapTimeoutMs : Nat := 30000
  recoveryTimeoutMs : Nat := 30000
  maxRosterEntries : Nat := AgentUplink.maxRosterEntries

inductive RotationPhase
  | active
  | preparing
  | quiescing
  | draining
  | committing
  | retiring
  | aborting
  | recovering
  | closed
  deriving DecidableEq

inductive RotationSide
  | owner
  | connector
  deriving DecidableEq

inductive RecoveryReason
  | deadline
  | oldTransportLost
  | candidateTransportLost
  | controlLost
  | commitUncertain
  | reconciliationConflict
  | missingRetainedBytes
  deriving DecidableEq

inductive RotationTerminalReason
  | connectionHistoryExhausted
  deriving DecidableEq

inductive RotationError
  | invalidConfig (what : String)
  | invalidIdentifier (field : String) (length : Nat)
  | invalidEpoch
  | invalidGeneration (generation : Nat)
  | deadlineOverflow
  | invalidPhase (expected actual : RotationPhase)
  | attemptMismatch
  | staleCarrier
  | connectionReuse
  | connectionHistoryExhausted (maximum : Nat)
  | generationNotMonotonic (previous proposed : Nat)
  | candidateNotReady
  | handshakeDeadlineExpired (now deadline : Nat)
  | deadlineExpired (now deadline : Nat)
  | recoveryDeadlineExpired (now deadline : Nat)
  | recoveryDeadlineTooFar (now deadline maximum : Nat)
  | recoveryDeadlineMismatch (expected proposed : Nat)
  | missingRoster
  | snapshotMismatch
  | rosterMismatch
  | mixedFenceDirections
  | rosterTooLarge (count maximum : Nat)
  | invalidStreamId
  | duplicateFenceStream (streamId : UInt64)
  | duplicateRosterStream (streamId : UInt64)
  | rosterNotSorted
  | fenceRosterNotSorted
  | fenceDigestUnavailable
  | conflictingFrozenFence (direction : Direction)
  | missingFrozenFence (direction : Direction)
  | fenceDigestMismatch
  | missingAck (streamId : UInt64)
  | duplicateAckStream (streamId : UInt64)
  | ackBelowFence (streamId : UInt64) (fence acknowledged : Nat)
  | ackAboveFence (streamId : UInt64) (fence acknowledged : Nat)
  | ackRosterMismatch
  | conflictingDrainProof (direction : Direction)
  | drainIncomplete
  | commitNotSent
  | commitCannotRollback
  | commitNotAccepted
  | retireNotSent
  | connectorRetirementPresent
  | retirementGraceNotElapsed (now deadline : Nat)
  | incompleteClosureEvidence
  | connectionMismatch
  | socketBoundExceeded
  | recoveryResourcesNotReleased
  | recoveryBeginRequired
  | recoverySocketNotReserved
  | recoverySocketAlreadyReserved
  | connectionNotAllocated
  | recoveryRosterMismatch
  | invalidRecoveryVerdict
  | recoveryReplayPending
  | recoveryAttemptLimitExceeded (maximum : Nat)
  | clockWentBackwards (previous now : Nat)
  | missingAttempt
  | closed
  deriving DecidableEq

namespace RotationConfig

def validate (c : RotationConfig) : Except RotationError Unit :=
  if c.handshakeTimeoutMs = 0 ∨ c.overlapTimeoutMs = 0 ∨ c.recoveryTimeoutMs = 0 ∨
      c.rotationIntervalMs = 0 then
    .error (.invalidConfig "rotation, handshake, overlap, and recovery durations must be nonzero")
  else if c.handshakeTimeoutMs ≥ c.overlapTimeoutMs then
    .error (.invalidConfig "handshake timeout must be shorter than overlap timeout")
  else if c.overlapTimeoutMs ≥ c.rotationIntervalMs then
    .error (.invalidConfig "overlap timeout must be shorter than rotation interval")
  else if c.recoveryTimeoutMs > maxRecoveryTimeoutMs then
    .error (.invalidConfig "recovery timeout exceeds the 30-second protocol bound")
  else if c.maxRosterEntries = 0 ∨ c.maxRosterEntries > AgentUplink.maxRosterEntries then
    .error (.invalidConfig "roster size exceeds the protocol hard bound")
  else .ok ()

end RotationConfig

/-! ## Checks of single values -/

def validateIdentifier (field value : String) : Except RotationError Unit :=
  if value.isEmpty ∨ value.utf8ByteSize > 256 then
    .error (.invalidIdentifier field value.utf8ByteSize)
  else .ok ()

/-- Identifiers are nonzero and increasing. The source also keeps a set of those
seen, which catches a repetition before the order does. -/
def validateIncreasing (duplicate : UInt64 → RotationError) (notSorted : RotationError)
    (seen : List UInt64) (previous : UInt64) : List UInt64 → Except RotationError Unit
  | [] => .ok ()
  | streamId :: streamIds =>
    if streamId = 0 then .error .invalidStreamId
    else if streamId ∈ seen then .error (duplicate streamId)
    else if streamId ≤ previous then .error notSorted
    else validateIncreasing duplicate notSorted (streamId :: seen) streamId streamIds

def validateRoster (roster : StreamRoster) (maximum : Nat) : Except RotationError Unit :=
  if roster.streamIds.length > maximum then
    .error (.rosterTooLarge roster.streamIds.length maximum)
  else validateIncreasing .duplicateRosterStream .rosterNotSorted [] 0 roster.streamIds

def validateFenceEntries (direction : Direction) (seen : List UInt64) (previous : UInt64) :
    List StreamFence → Except RotationError Unit
  | [] => .ok ()
  | entry :: entries =>
    if entry.streamId = 0 then .error .invalidStreamId
    else if entry.direction ≠ direction then .error .mixedFenceDirections
    else if entry.streamId ∈ seen then .error (.duplicateFenceStream entry.streamId)
    else if entry.streamId ≤ previous then .error .fenceRosterNotSorted
    else validateFenceEntries direction (entry.streamId :: seen) entry.streamId entries

variable (f : FenceSnapshot)

def digestForSnapshot [Sha256] : Except RotationError String :=
  f.digest.mapError fun _ => .fenceDigestUnavailable

def validateFenceSnapshot [Sha256] (direction : Direction) (maximum : Nat) :
    Except RotationError Unit := do
  if f.entries.length > maximum then .error (.rosterTooLarge f.entries.length maximum)
  else
    validateFenceEntries direction [] 0 f.entries
    let _ ← digestForSnapshot f

def fenceRosterMatches (roster : StreamRoster) : Bool :=
  f.entries.map StreamFence.streamId = roster.streamIds

def sameFenceRoster (left right : FenceSnapshot) : Bool :=
  (left.entries.map StreamFence.streamId).toFinset =
  (right.entries.map StreamFence.streamId).toFinset

/-- The acknowledgements by stream, refusing a zero stream and a second entry. -/
def collectAcks (acks : List (UInt64 × Nat)) :
    List StreamAck → Except RotationError (List (UInt64 × Nat))
  | [] => .ok acks
  | ack :: rest =>
    if ack.streamId = 0 then .error .invalidStreamId
    else if (acks.lookup ack.streamId).isSome then .error (.duplicateAckStream ack.streamId)
    else collectAcks ((ack.streamId, ack.acknowledged) :: acks) rest

def validateAcks (acks : List (UInt64 × Nat)) : List StreamFence → Except RotationError Unit
  | [] => .ok ()
  | fence :: fences =>
    match acks.lookup fence.streamId with
    | none => .error (.missingAck fence.streamId)
    | some ack =>
      if ack < fence.lastEmitted then
        .error (.ackBelowFence fence.streamId fence.lastEmitted ack)
      else if ack > fence.lastEmitted then
        .error (.ackAboveFence fence.streamId fence.lastEmitted ack)
      else validateAcks acks fences

def validateAckCursors (proof : DrainProof) : Except RotationError Unit := do
  let acks ← collectAcks [] proof.ackCursors
  validateAcks acks f.entries
  if acks.length ≠ f.entries.length then .error .ackRosterMismatch else .ok ()

/-! ## Attempts -/

structure Closures where
  owner : Bool := false
  connector : Bool := false

namespace Closures

def mark (c : Closures) : RotationSide → Closures
  | .owner => { c with owner := true }
  | .connector => { c with connector := true }

def complete (c : Closures) : Bool := c.owner && c.connector

def any (c : Closures) : Bool := c.owner || c.connector

end Closures

structure AttemptState where
  identity : RotationAttemptIdentity
  startedAtMs : Nat
  handshakeDeadlineMs : Nat
  overlapDeadlineMs : Nat
  /-- Allocated by a recovery, not by a scheduled rotation. -/
  isRecoveryAttempt : Bool := false
  recoverySocketReserved : Bool := false
  recoverySocketEverReserved : Bool := false
  candidateReady : Bool := false
  roster : Option StreamRoster := none
  frozen : PerDirection (Option FenceSnapshot) := ⟨none, none⟩
  drained : PerDirection (Option DrainProof) := ⟨none, none⟩
  commitSent : Bool := false
  commitAccepted : Bool := false
  retireSent : Bool := false
  oldSocketClosed : Closures := {}
  candidateSocketClosed : Closures := {}
  recoveryReason : Option RecoveryReason := none

/-- A new attempt; a cap shortens both deadlines. -/
def AttemptState.newWithDeadline (identity : RotationAttemptIdentity) (startedAtMs : Nat)
    (config : RotationConfig) (deadlineCapMs : Option Nat) : Except RotationError AttemptState :=
  match checkedAdd startedAtMs config.handshakeTimeoutMs,
    checkedAdd startedAtMs config.overlapTimeoutMs with
  | some handshake, some overlap =>
    let handshakeDeadlineMs := deadlineCapMs.elim handshake (min handshake)
    let overlapDeadlineMs := deadlineCapMs.elim overlap (min overlap)
    if overlapDeadlineMs ≤ startedAtMs then
      .error (.deadlineExpired startedAtMs overlapDeadlineMs)
    else .ok { identity, startedAtMs, handshakeDeadlineMs, overlapDeadlineMs }
  | _, _ => .error .deadlineOverflow

/-! ## The machine -/

structure RotationState where
  config : RotationConfig
  phase : RotationPhase
  sessionId : String
  ownerId : String
  epoch : Nat
  activeGeneration : Nat
  activeConnectionId : String
  /-- Highest generation ever allocated, kept across aborts and recoveries. -/
  generationHighWatermark : Nat
  attempt : Option AttemptState
  allocatedConnections : Finset String
  usedConnectionIds : Finset String
  /-- One deadline for all candidates of a recovery episode. -/
  recoveryEpisodeDeadline : Option Nat
  recoveryAttempts : Nat
  deadlineForcedRetirement : Bool
  connectorRetirementMissing : Bool
  lastTimeMs : Option Nat
  terminalReason : Option RotationTerminalReason

namespace RotationState

def new (sessionId ownerId : String) (epoch activeGeneration : Nat) (activeConnectionId : String)
    (config : RotationConfig) : Except RotationError RotationState := do
  config.validate
  validateIdentifier "session_id" sessionId
  validateIdentifier "owner_id" ownerId
  validateIdentifier "connection_id" activeConnectionId
  if epoch = 0 then .error .invalidEpoch
  else if activeGeneration = 0 then .error (.invalidGeneration activeGeneration)
  else .ok {
      config, sessionId, ownerId, epoch, activeGeneration, activeConnectionId
      phase := .active
      generationHighWatermark := activeGeneration
      attempt := none
      allocatedConnections := {activeConnectionId}
      usedConnectionIds := {activeConnectionId}
      recoveryEpisodeDeadline := none
      recoveryAttempts := 0
      deadlineForcedRetirement := false
      connectorRetirementMissing := false
      lastTimeMs := none
      terminalReason := none }

/-- Live or reserved sockets, the control socket included. -/
def socketCount (s : RotationState) : Nat :=
  match s.phase with
  | .closed => 0
  | .active => controlSockets + 1
  | .preparing | .quiescing | .draining | .committing | .retiring | .aborting => controlSockets + 2
  | .recovering => controlSockets + s.allocatedConnections.card % 2 ^ 8

end RotationState

end AgentUplink
