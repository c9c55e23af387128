/-
The operations of the rotation machine.

An operation runs in `Rotation`, so the state it leaves behind when it refuses
is part of the model: several operations enter recovery or close the machine and
then answer an error.

A refusal is an error the source returns. A panic is an `expect` or a debug
assertion the source does not intend to reach; it is a failure of its own, so
that whether one can be reached is a question about the model.
-/
import AgentUplink.Rotation.State

namespace AgentUplink

open Machine Fallible

inductive Panic
  /-- `expect("phase checked above")` -/
  | phaseChecked
  /-- The debug assertion on the data sockets. -/
  | dataSocketBound
  /-- The debug assertion on all sockets. -/
  | socketBound
  deriving DecidableEq

inductive Fault
  | refused (error : RotationError)
  | panicked (panic : Panic)

abbrev Rotation (α : Type) := EStateM Fault RotationState α

section Helpers

variable {α : Type}

def refuse (error : RotationError) : Rotation α := throw (.refused error)

def refuseIf (c : Prop) [Decidable c] (error : RotationError) : Rotation Unit :=
  failIf c (.refused error)

def orRefuse (o : Option α) (error : RotationError) : Rotation α := orFail o (.refused error)

def validated (r : Except RotationError α) : Rotation α := check (r.mapError .refused)

def debugAssert (c : Prop) [Decidable c] (panic : Panic) : Rotation Unit :=
  failIf (¬ c) (.panicked panic)

end Helpers

/-! ## Values passed in and out -/

structure ClosureEvidence where
  connectionId : String
  localClosed : Bool
  peerClosed : Bool

/-- This endpoint released its transport; the peer's handshake may never come. -/
def ClosureEvidence.isComplete (e : ClosureEvidence) : Bool := e.localClosed

structure ReplayRange where
  streamId : UInt64
  direction : Direction
  firstSequence : Nat
  lastSequence : Nat

structure RecoveryFailure where
  streamId : UInt64
  direction : Direction
  outcomeUnknown : Bool
  reason : RecoveryReason

structure RecoveryReport where
  replay : List ReplayRange
  failures : List RecoveryFailure

structure ValidatedRecovery where
  streamId : UInt64
  replay : List ReplayRange
  failures : List RecoveryFailure
  ready : Bool

inductive PrepareResult
  | started
  | coalesced
  deriving DecidableEq

/-! ## Pure parts -/

namespace RotationState

variable (s : RotationState)

def checkClock (now : Nat) : Except RotationError Unit :=
  match s.lastTimeMs with
  | some last => if now < last then .error (.clockWentBackwards last now) else .ok ()
  | none => .ok ()

def observed (now : Nat) : RotationState := { s with lastTimeMs := some now }

section

variable (identity : RotationAttemptIdentity)

def ensureAttempt
    (expected : RotationPhase) : Except RotationError Unit :=
  if s.phase ≠ expected then .error (.invalidPhase expected s.phase)
  else
    match s.attempt with
    | none => .error .missingAttempt
    | some attempt => if attempt.identity ≠ identity then .error .attemptMismatch else .ok ()

/-- The overlap deadline, if `identity` is the attempt under way. -/
def matchingDeadline : Option Nat :=
  match s.attempt with
  | none => none
  | some attempt => if attempt.identity = identity then some attempt.overlapDeadlineMs else none

def validateAttemptIdentity
    (oldGeneration : Nat) (oldConnectionId : String) : Except RotationError Unit := do
  validateIdentifier "session_id" identity.sessionId
  validateIdentifier "owner_id" identity.ownerId
  validateIdentifier "rotation_id" identity.rotationId
  validateIdentifier "old_connection_id" identity.oldConnectionId
  validateIdentifier "new_connection_id" identity.newConnectionId
  if identity.sessionId ≠ s.sessionId ∨ identity.ownerId ≠ s.ownerId ∨ identity.epoch ≠ s.epoch then
    .error .attemptMismatch
  else if identity.oldGeneration ≠ oldGeneration ∨ identity.oldConnectionId ≠ oldConnectionId then
    .error .staleCarrier
  else if identity.newGeneration ≤ identity.oldGeneration then
    .error (.generationNotMonotonic identity.oldGeneration identity.newGeneration)
  else if identity.newGeneration ≤ s.generationHighWatermark then
    .error (.generationNotMonotonic s.generationHighWatermark identity.newGeneration)
  else if identity.newConnectionId = identity.oldConnectionId then .error .connectionReuse
  else .ok ()

end

/-- The carrier a recovery replaces: the candidate once its activation was
acknowledged, the old carrier before. -/
def recoveryAnchor : Nat × String :=
  match s.attempt with
  | some attempt =>
    if attempt.commitAccepted then
      (attempt.identity.newGeneration, attempt.identity.newConnectionId)
    else (attempt.identity.oldGeneration, attempt.identity.oldConnectionId)
  | none => (s.activeGeneration, s.activeConnectionId)

/-- A recovery retry has to keep the roster of its episode. -/
def rosterChanged (roster : StreamRoster) : Bool :=
  match s.attempt with
  | some attempt => attempt.isRecoveryAttempt && attempt.roster.any (· ≠ roster)
  | none => false

def validateRecoveryDeadline (now proposed : Nat) : Except RotationError Nat :=
  match s.recoveryEpisodeDeadline with
  | some existing =>
    if proposed ≠ existing then .error (.recoveryDeadlineMismatch existing proposed)
    else if now ≥ existing then .error (.recoveryDeadlineExpired now existing)
    else .ok existing
  | none =>
    if now ≥ proposed then .error (.recoveryDeadlineExpired now proposed)
    else
      match checkedAdd now s.config.recoveryTimeoutMs with
      | none => .error .deadlineOverflow
      | some maximum =>
        if proposed > maximum then .error (.recoveryDeadlineTooFar now proposed maximum)
        else .ok proposed

def knownToAttempt (connectionId : String) : Bool :=
  match s.attempt with
  | some attempt =>
    connectionId = attempt.identity.oldConnectionId ∨
      connectionId = attempt.identity.newConnectionId
  | none => connectionId = s.activeConnectionId

/-! ## Updates -/

/-- The attempt under way is left where it is and recovery begins. -/
def recovering (s : RotationState) (reason : RecoveryReason) : RotationState :=
  { s with
    attempt := s.attempt.map fun attempt => { attempt with recoveryReason := some reason }
    phase := .recovering }

/-- Nothing remains allocated. -/
def shut : RotationState :=
  { s with
    attempt := none, phase := .closed, allocatedConnections := ∅
    recoveryEpisodeDeadline := none, recoveryAttempts := 0 }

def activated (generation : Nat) (connectionId : String) : RotationState :=
  { s with
    activeGeneration := generation, activeConnectionId := connectionId
    attempt := none, phase := .active
    recoveryEpisodeDeadline := none, recoveryAttempts := 0 }

variable (attempt : AttemptState)

def withAttempt : RotationState :=
  { s with attempt := some attempt }

def released (connectionId : String) : RotationState :=
  { s with allocatedConnections := s.allocatedConnections.erase connectionId }

def claimed (connectionId : String) : RotationState :=
  { s with usedConnectionIds := insert connectionId s.usedConnectionIds }

def exhausted : RotationState :=
  { s.shut with terminalReason := some .connectionHistoryExhausted }

def started : RotationState :=
  { s with
    allocatedConnections := insert attempt.identity.newConnectionId s.allocatedConnections
    generationHighWatermark := attempt.identity.newGeneration
    deadlineForcedRetirement := false, connectorRetirementMissing := false
    attempt := some attempt, phase := .preparing }

/-- A recovery attempt, its candidate named but not allocated. -/
def recoveryBegun (deadline : Nat) : RotationState :=
  { s with
    generationHighWatermark := attempt.identity.newGeneration
    recoveryEpisodeDeadline := some deadline
    recoveryAttempts := s.recoveryAttempts + 1
    attempt := some attempt, phase := .recovering }

end RotationState

/-! ## Steps shared by the operations -/

def observeTime (now : Nat) : Rotation Unit := do
  let s ← get
  validated (s.checkClock now)
  modify fun s => s.observed now

def ensureAttempt (identity : RotationAttemptIdentity) (expected : RotationPhase) :
    Rotation Unit := do
  let s ← get
  validated (s.ensureAttempt identity expected)

def expectAttempt : Rotation AttemptState := do
  let s ← get
  orFail s.attempt (.panicked .phaseChecked)

def setAttempt (attempt : AttemptState) : Rotation Unit := modify fun s => s.withAttempt attempt

def setPhase (phase : RotationPhase) : Rotation Unit := modify fun s => { s with phase := phase }

def enterRecoveryInPlace (reason : RecoveryReason) : Rotation Unit := do
  modify fun s => s.recovering reason
  let s ← get
  debugAssert (s.allocatedConnections.card ≤ maxDataSockets) .dataSocketBound

def assertSocketBound : Rotation Unit := do
  let s ← get
  debugAssert (s.socketCount ≤ maxTotalSockets) .socketBound

/-- At the overlap deadline recovery is entered and the call refused. -/
def expire {α : Type} (now deadline : Nat) : Rotation α := do
  enterRecoveryInPlace .deadline
  refuse (.deadlineExpired now deadline)

def checkDeadline (now : Nat) : Rotation Unit := do
  let s ← get
  let attempt ← orRefuse s.attempt .missingAttempt
  if now ≥ attempt.overlapDeadlineMs then expire now attempt.overlapDeadlineMs else return ()

/-- Identifiers are never evicted, so a full history closes the machine. -/
def claimConnectionId (connectionId : String) : Rotation Unit := do
  let s ← get
  refuseIf (connectionId ∈ s.usedConnectionIds) .connectionReuse
  if s.usedConnectionIds.card ≥ maxConnectionIdHistory then do
    modify fun s => s.exhausted
    refuse (.connectionHistoryExhausted maxConnectionIdHistory)
  else modify fun s => s.claimed connectionId

/-! ## Preparing a candidate -/

variable (identity : RotationAttemptIdentity)

variable (now : Nat)

/-- A request while another attempt is under way: the same attempt coalesces. -/
def prepareAgain : Rotation PrepareResult := do
  let s ← get
  match s.matchingDeadline identity with
  | none => refuse (.invalidPhase .active s.phase)
  | some deadline =>
    if now ≥ deadline then expire now deadline
    else if s.phase ≠ .recovering then return .coalesced
    else refuse (.invalidPhase .active s.phase)

def startAttempt (deadlineCapMs : Option Nat) :
    Rotation PrepareResult := do
  let s ← get
  validated (s.validateAttemptIdentity identity s.activeGeneration s.activeConnectionId)
  refuseIf (identity.newGeneration ≤ s.generationHighWatermark)
    (.generationNotMonotonic s.generationHighWatermark identity.newGeneration)
  refuseIf (s.allocatedConnections.card ≠ 1) .socketBoundExceeded
  let attempt ← validated (AttemptState.newWithDeadline identity now s.config deadlineCapMs)
  claimConnectionId identity.newConnectionId
  refuseIf (identity.newConnectionId ∈ s.allocatedConnections) .connectionReuse
  modify fun s => s.started attempt
  assertSocketBound
  return .started

def prepareAfterObserved
    (deadlineCapMs : Option Nat) : Rotation PrepareResult := do
  let s ← get
  refuseIf (s.phase = .closed) .closed
  if s.phase ≠ .active then prepareAgain identity now
  else startAttempt identity now deadlineCapMs

def prepare : Rotation PrepareResult := do
  observeTime now
  prepareAfterObserved identity now none

/-- The cap comes from the peer and can only shorten the local policy. -/
def prepareWithDeadlineCap (deadlineCapMs : Nat) :
    Rotation PrepareResult := do
  observeTime now
  refuseIf (deadlineCapMs ≤ now) (.deadlineExpired now deadlineCapMs)
  prepareAfterObserved identity now (some deadlineCapMs)

def beginPrepare : Rotation PrepareResult :=
  prepare identity now

def candidateReady (identity : RotationAttemptIdentity) (now : Nat) : Rotation Unit := do
  observeTime now
  ensureAttempt identity .preparing
  let attempt ← expectAttempt
  if now ≥ attempt.overlapDeadlineMs then expire now attempt.overlapDeadlineMs
  else if now ≥ attempt.handshakeDeadlineMs then do
    setPhase .aborting
    refuse (.handshakeDeadlineExpired now attempt.handshakeDeadlineMs)
  else setAttempt { attempt with candidateReady := true }

/-! ## Freezing and draining -/

def quiesce (roster : StreamRoster) (now : Nat) :
    Rotation Unit := do
  observeTime now
  ensureAttempt identity .preparing
  let attempt ← expectAttempt
  if now ≥ attempt.overlapDeadlineMs then expire now attempt.overlapDeadlineMs
  else do
    let s ← get
    refuseIf (attempt.candidateReady = false) .candidateNotReady
    validated (validateRoster roster s.config.maxRosterEntries)
    validated (validateIdentifier "snapshot_id" roster.snapshotId)
    setAttempt { attempt with roster := some roster }
    setPhase .quiescing

def PerDirection.full {α : Type} (p : PerDirection (Option α)) : Bool :=
  p.relayToConnector.isSome && p.connectorToRelay.isSome

def recordFence (attempt : AttemptState) (fences : FenceSnapshot) (direction : Direction) :
    Rotation Unit :=
  match attempt.frozen.get direction with
  | some old => if old = fences then return () else refuse (.conflictingFrozenFence direction)
  | none => do
    refuseIf ((attempt.frozen.get direction.opposite).any fun other =>
      !sameFenceRoster other fences) .rosterMismatch
    let frozen := attempt.frozen.set direction (some fences)
    setAttempt { attempt with frozen := frozen }
    if frozen.full then setPhase .draining else return ()

def frozen [Sha256] (fences : FenceSnapshot)
    (direction : Direction) (now : Nat) : Rotation Unit := do
  observeTime now
  ensureAttempt identity .quiescing
  checkDeadline now
  let s ← get
  validated (validateFenceSnapshot fences direction s.config.maxRosterEntries)
  let attempt ← expectAttempt
  let roster ← orRefuse attempt.roster .missingRoster
  refuseIf (fences.snapshotId ≠ roster.snapshotId) .snapshotMismatch
  refuseIf (fences.entries.any fun entry => entry.direction ≠ direction) .mixedFenceDirections
  refuseIf (fenceRosterMatches fences roster = false) .rosterMismatch
  recordFence attempt fences direction

def recordProof (attempt : AttemptState) (proof : DrainProof) : Rotation Unit :=
  match attempt.drained.get proof.direction with
  | some old =>
    if old = proof then return () else refuse (.conflictingDrainProof proof.direction)
  | none => do
    let drained := attempt.drained.set proof.direction (some proof)
    setAttempt { attempt with drained := drained }
    if drained.full then setPhase .committing else return ()

def drained [Sha256] (proof : DrainProof) (now : Nat) :
    Rotation Unit := do
  observeTime now
  ensureAttempt identity .draining
  checkDeadline now
  let s ← get
  let attempt ← expectAttempt
  let roster ← orRefuse attempt.roster .missingRoster
  refuseIf (proof.snapshotId ≠ roster.snapshotId) .snapshotMismatch
  validated (validateIdentifier "snapshot_id" proof.snapshotId)
  validated (validateIdentifier "fence_digest" proof.fenceDigest)
  let fences ← orRefuse (attempt.frozen.get proof.direction) (.missingFrozenFence proof.direction)
  let digest ← validated (digestForSnapshot fences)
  refuseIf (proof.fenceDigest ≠ digest) .fenceDigestMismatch
  refuseIf (proof.ackCursors.length > s.config.maxRosterEntries)
    (.rosterTooLarge proof.ackCursors.length s.config.maxRosterEntries)
  validated (validateAckCursors fences proof)
  recordProof attempt proof

def drainSet : Rotation DrainSet := do
  ensureAttempt identity .committing
  let attempt ← expectAttempt
  let relayToConnector ← orRefuse attempt.drained.relayToConnector
    (.missingFrozenFence .relayToConnector)
  let connectorToRelay ← orRefuse attempt.drained.connectorToRelay
    (.missingFrozenFence .connectorToRelay)
  return { relayToConnector, connectorToRelay }

/-! ## Committing and retiring -/

def commit : Rotation Unit := do
  observeTime now
  ensureAttempt identity .committing
  checkDeadline now
  let attempt ← expectAttempt
  refuseIf (attempt.drained.full = false) .drainIncomplete
  if attempt.commitSent then return () else setAttempt { attempt with commitSent := true }

def committed : Rotation Unit := do
  observeTime now
  ensureAttempt identity .committing
  checkDeadline now
  let attempt ← expectAttempt
  refuseIf (attempt.commitSent = false) .commitNotSent
  setAttempt { attempt with commitAccepted := true }
  setPhase .retiring

def retire : Rotation Unit := do
  observeTime now
  ensureAttempt identity .retiring
  checkDeadline now
  let attempt ← expectAttempt
  refuseIf (attempt.commitAccepted = false) .commitNotAccepted
  setAttempt { attempt with retireSent := true }

def oldSocketClosed (identity : RotationAttemptIdentity) (side : RotationSide)
    (evidence : ClosureEvidence) (now : Nat) : Rotation Unit := do
  observeTime now
  ensureAttempt identity .retiring
  let attempt ← expectAttempt
  refuseIf (attempt.retireSent = false) .retireNotSent
  validated (validateIdentifier "connection_id" evidence.connectionId)
  refuseIf (evidence.connectionId ≠ attempt.identity.oldConnectionId) .connectionMismatch
  refuseIf (evidence.isComplete = false) .incompleteClosureEvidence
  let closed := attempt.oldSocketClosed.mark side
  setAttempt { attempt with oldSocketClosed := closed }
  modify fun s => { s with
    deadlineForcedRetirement := s.deadlineForcedRetirement || attempt.overlapDeadlineMs ≤ now }
  if closed.complete then
    modify fun s => (s.released attempt.identity.oldConnectionId).activated
      attempt.identity.newGeneration attempt.identity.newConnectionId
  else return ()

def retired (side : RotationSide)
    (evidence : ClosureEvidence) (now : Nat) : Rotation Unit :=
  oldSocketClosed identity side evidence now

def missingRetirementDeadlineMs : Rotation (Option Nat) := do
  let s ← get
  if s.phase ≠ .retiring then return none
  else return s.attempt.bind fun attempt =>
    checkedAdd attempt.overlapDeadlineMs s.config.handshakeTimeoutMs

def forceRetireWithoutConnectorEvidence :
    Rotation Unit := do
  observeTime now
  ensureAttempt identity .retiring
  let s ← get
  let attempt ← expectAttempt
  refuseIf (attempt.retireSent = false) .retireNotSent
  refuseIf (attempt.oldSocketClosed.connector = true) .connectorRetirementPresent
  let graceDeadlineMs ← orRefuse
    (checkedAdd attempt.overlapDeadlineMs s.config.handshakeTimeoutMs) .deadlineOverflow
  refuseIf (now < graceDeadlineMs) (.retirementGraceNotElapsed now graceDeadlineMs)
  modify fun s => { (s.released attempt.identity.oldConnectionId).activated
      attempt.identity.newGeneration attempt.identity.newConnectionId with
    deadlineForcedRetirement := true, connectorRetirementMissing := true }
  assertSocketBound

/-! ## Aborting -/

def abort (reason : RecoveryReason) :
    Rotation Unit := do
  observeTime now
  let s ← get
  refuseIf (s.phase ≠ .preparing ∧ s.phase ≠ .quiescing ∧ s.phase ≠ .draining)
    (.invalidPhase .draining s.phase)
  ensureAttempt identity s.phase
  checkDeadline now
  let attempt ← expectAttempt
  refuseIf (attempt.commitSent || attempt.commitAccepted) .commitCannotRollback
  setAttempt { attempt with recoveryReason := some reason }
  setPhase .aborting

def candidateGone (attempt : AttemptState) (now : Nat) : Rotation Unit := do
  let s ← get
  modify fun s => s.released attempt.identity.newConnectionId
  if s.phase = .recovering then
    if attempt.isRecoveryAttempt then do
      refuseIf (attempt.identity.newConnectionId ∉ s.allocatedConnections) .connectionNotAllocated
      setAttempt { attempt with recoverySocketReserved := false }
    else return ()
  else if now ≥ attempt.overlapDeadlineMs then enterRecoveryInPlace .deadline
  else modify fun s => s.activated s.activeGeneration s.activeConnectionId

def candidateClosed (side : RotationSide)
    (evidence : ClosureEvidence) (now : Nat) : Rotation Unit := do
  observeTime now
  let s ← get
  refuseIf (s.phase ≠ .aborting ∧ s.phase ≠ .recovering) (.invalidPhase .aborting s.phase)
  ensureAttempt identity s.phase
  let attempt ← expectAttempt
  validated (validateIdentifier "connection_id" evidence.connectionId)
  refuseIf (evidence.connectionId ≠ attempt.identity.newConnectionId) .connectionMismatch
  refuseIf (evidence.isComplete = false) .incompleteClosureEvidence
  refuseIf (s.phase = .recovering ∧ attempt.isRecoveryAttempt = true ∧
    attempt.recoverySocketReserved = false) .recoverySocketNotReserved
  let closed := attempt.candidateSocketClosed.mark side
  setAttempt { attempt with candidateSocketClosed := closed }
  if closed.complete then candidateGone { attempt with candidateSocketClosed := closed } now
  else if now ≥ attempt.overlapDeadlineMs then enterRecoveryInPlace .deadline
  else return ()

def aborted (side : RotationSide)
    (evidence : ClosureEvidence) (now : Nat) : Rotation Unit :=
  candidateClosed identity side evidence now

/-! ## Recovery -/

/-- Whether a loss concerns the attempt under way, or the active carrier. -/
def RotationState.checkLost (s : RotationState) (identity : RotationAttemptIdentity) :
    Except RotationError Unit :=
  if s.phase = .closed then .error .closed
  else if s.phase = .active then
    s.validateAttemptIdentity identity s.activeGeneration s.activeConnectionId
  else
    match s.attempt with
    | some attempt => if attempt.identity ≠ identity then .error .attemptMismatch else .ok ()
    | none =>
      if s.phase ≠ .recovering then .error .missingAttempt
      else s.validateAttemptIdentity identity s.activeGeneration s.activeConnectionId

def transportLost (reason : RecoveryReason) :
    Rotation Unit := do
  observeTime now
  let s ← get
  validated (s.checkLost identity)
  enterRecoveryInPlace reason

def beginRecovery (roster : StreamRoster) (now : Nat)
    (reason : RecoveryReason) (episodeDeadlineMs : Nat) : Rotation Unit := do
  observeTime now
  let s ← get
  refuseIf (s.phase = .closed) .closed
  refuseIf (s.phase ≠ .active ∧ s.phase ≠ .recovering) (.invalidPhase .recovering s.phase)
  validated (s.validateAttemptIdentity identity s.recoveryAnchor.1 s.recoveryAnchor.2)
  validated (validateRoster roster s.config.maxRosterEntries)
  validated (validateIdentifier "snapshot_id" roster.snapshotId)
  refuseIf (s.rosterChanged roster) .recoveryRosterMismatch
  let recoveryDeadline ← validated (s.validateRecoveryDeadline now episodeDeadlineMs)
  refuseIf (s.allocatedConnections ≠ ∅) .recoveryResourcesNotReleased
  refuseIf (s.recoveryAttempts ≥ maxRecoveryAttempts)
    (.recoveryAttemptLimitExceeded maxRecoveryAttempts)
  refuseIf (identity.newGeneration ≤ s.generationHighWatermark)
    (.generationNotMonotonic s.generationHighWatermark identity.newGeneration)
  let attempt ← validated
    (AttemptState.newWithDeadline identity now s.config (some recoveryDeadline))
  -- the count is a byte
  refuseIf (2 ^ 8 ≤ s.recoveryAttempts + 1) (.recoveryAttemptLimitExceeded maxRecoveryAttempts)
  claimConnectionId identity.newConnectionId
  modify fun s => s.recoveryBegun
    { attempt with isRecoveryAttempt := true, roster := some roster, recoveryReason := some reason }
    recoveryDeadline
  assertSocketBound

def recover (roster : StreamRoster) (now : Nat)
    (reason : RecoveryReason) (episodeDeadlineMs : Nat) : Rotation Unit :=
  beginRecovery identity roster now reason episodeDeadlineMs

def reserveRecoverySocket : Rotation Unit := do
  observeTime now
  let s ← get
  refuseIf (s.phase ≠ .recovering) (.invalidPhase .recovering s.phase)
  checkDeadline now
  refuseIf (s.allocatedConnections ≠ ∅) .recoveryResourcesNotReleased
  refuseIf (s.allocatedConnections.card ≥ maxDataSockets) .socketBoundExceeded
  let attempt ← orRefuse s.attempt .missingAttempt
  refuseIf (attempt.isRecoveryAttempt = false) .recoveryBeginRequired
  refuseIf (s.recoveryEpisodeDeadline = none) .recoveryBeginRequired
  refuseIf (attempt.recoverySocketEverReserved = true) .recoverySocketAlreadyReserved
  refuseIf (attempt.identity.newConnectionId ∈ s.allocatedConnections) .connectionReuse
  modify fun s =>
    { s with
      allocatedConnections := insert attempt.identity.newConnectionId s.allocatedConnections
      attempt := some { attempt with
        recoverySocketReserved := true, recoverySocketEverReserved := true } }

def closeForRecovery (connectionId : String) (evidence : ClosureEvidence) (now : Nat) :
    Rotation Unit := do
  observeTime now
  let s ← get
  refuseIf (s.phase ≠ .recovering) (.invalidPhase .recovering s.phase)
  validated (validateIdentifier "connection_id" connectionId)
  validated (validateIdentifier "connection_id" evidence.connectionId)
  refuseIf (evidence.connectionId ≠ connectionId ∨ evidence.isComplete = false)
    .incompleteClosureEvidence
  refuseIf (s.knownToAttempt connectionId = false) .connectionMismatch
  refuseIf (connectionId ∉ s.allocatedConnections) .connectionNotAllocated
  modify fun s =>
    { s.released connectionId with
      attempt := s.attempt.map fun attempt =>
        if attempt.isRecoveryAttempt ∧ connectionId = attempt.identity.newConnectionId then
          { attempt with recoverySocketReserved := false }
        else attempt }

def releaseRecoverySocket (connectionId : String) (evidence : ClosureEvidence) (now : Nat) :
    Rotation Unit :=
  closeForRecovery connectionId evidence now

/-! ### Verdicts -/

def checkRanges (streamId : UInt64) (directions : List Direction) :
    List ReplayRange → Except RotationError Unit
  | [] => .ok ()
  | range :: ranges =>
    if range.streamId ≠ streamId ∨ range.firstSequence = 0 ∨
        range.firstSequence > range.lastSequence ∨ range.direction ∈ directions then
      .error .invalidRecoveryVerdict
    else checkRanges streamId (range.direction :: directions) ranges

def checkFailures (streamId : UInt64) (directions : List Direction) :
    List RecoveryFailure → Except RotationError Unit
  | [] => .ok ()
  | failure :: failures =>
    if failure.streamId ≠ streamId ∨ failure.direction ∈ directions then
      .error .invalidRecoveryVerdict
    else checkFailures streamId (failure.direction :: directions) failures

def insertStream (streamId : UInt64) : List UInt64 → List UInt64
  | [] => [streamId]
  | other :: rest =>
    if streamId < other then streamId :: other :: rest else other :: insertStream streamId rest

def checkVerdicts (seen : List UInt64) : List ValidatedRecovery → Except RotationError (List UInt64)
  | [] => .ok seen
  | verdict :: verdicts => do
    if verdict.streamId = 0 ∨ verdict.streamId ∈ seen then .error .invalidRecoveryVerdict
    else if verdict.ready = false then .error .recoveryReplayPending
    else if verdict.failures ≠ [] ∧ verdict.replay ≠ [] then .error .invalidRecoveryVerdict
    else
      checkRanges verdict.streamId [] verdict.replay
      checkFailures verdict.streamId [] verdict.failures
      checkVerdicts (insertStream verdict.streamId seen) verdicts

def directionIndex : Direction → Nat
  | .relayToConnector => 0
  | .connectorToRelay => 1

/-- Reports list streams in order, and the two directions of a stream in order. -/
def reportOrder (a : UInt64 × Direction) (b : UInt64 × Direction) : Bool :=
  a.1 < b.1 || (a.1 = b.1 && directionIndex a.2 ≤ directionIndex b.2)

def recoveryReport (verdicts : List ValidatedRecovery) : RecoveryReport where
  replay := (verdicts.flatMap ValidatedRecovery.replay).mergeSort fun a b =>
    reportOrder (a.streamId, a.direction) (b.streamId, b.direction)
  failures := (verdicts.flatMap ValidatedRecovery.failures).mergeSort fun a b =>
    reportOrder (a.streamId, a.direction) (b.streamId, b.direction)

def reconcileValidated (verdicts : List ValidatedRecovery)
    (now : Nat) : Rotation RecoveryReport := do
  observeTime now
  ensureAttempt identity .recovering
  checkDeadline now
  let s ← get
  let maximum := s.config.maxRosterEntries
  let taken := verdicts.take (saturatingAdd maximum 1)
  refuseIf (taken.length > maximum ∨ taken.length < verdicts.length)
    (.rosterTooLarge taken.length maximum)
  let attempt ← orRefuse s.attempt .missingAttempt
  refuseIf (attempt.isRecoveryAttempt = false) .recoveryBeginRequired
  refuseIf (s.recoveryEpisodeDeadline = none) .recoveryBeginRequired
  refuseIf (attempt.recoverySocketReserved = false) .recoverySocketNotReserved
  refuseIf (s.allocatedConnections.card ≠ 1 ∨
    attempt.identity.newConnectionId ∉ s.allocatedConnections) .recoveryResourcesNotReleased
  -- a candidate one side has closed can never become the active carrier
  refuseIf (attempt.candidateSocketClosed.any = true) .recoveryResourcesNotReleased
  let roster ← orRefuse attempt.roster .missingRoster
  let seen ← validated (checkVerdicts [] taken)
  refuseIf (seen ≠ roster.streamIds) .recoveryRosterMismatch
  modify fun s => s.activated identity.newGeneration identity.newConnectionId
  return recoveryReport taken

/-! ## Closing and time -/

def close : Rotation Unit := modify RotationState.shut

def advance (attempt : AttemptState) (now : Nat) : Rotation Unit := do
  let s ← get
  if now < attempt.overlapDeadlineMs then
    if s.phase = .preparing ∧ now ≥ attempt.handshakeDeadlineMs then setPhase .aborting
    else return ()
  else if s.phase = .retiring then modify fun s => { s with deadlineForcedRetirement := true }
  else enterRecoveryInPlace .deadline

/-- A time that goes backwards is ignored. -/
def tick : Rotation RotationPhase := do
  let s ← get
  match s.checkClock now, s.attempt with
  | .error _, _ => return s.phase
  | .ok _, none => modify fun s => s.observed now; return s.phase
  | .ok _, some attempt =>
    modify fun s => s.observed now
    advance attempt now
    return (← get).phase

end AgentUplink
