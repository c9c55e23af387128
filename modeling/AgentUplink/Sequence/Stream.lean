import AgentUplink.Sequence.Direction

/-!
# A stream endpoint

The two directions of one stream as one endpoint keeps them. A frame sent in a
direction carries acknowledgement and credit for the opposite one, so every
operation here may touch both.

The second half is retained-state recovery: the snapshot an endpoint sends, and
`reconcile`, which compares a peer's snapshot with the local state and lists what
has to be sent again.
-/

namespace AgentUplink

open Machine Fallible Std

structure PerDirection (α : Type) where
  relayToConnector : α
  connectorToRelay : α
deriving DecidableEq

namespace PerDirection

variable {α β : Type}

def get (p : PerDirection α) : Direction → α
  | .relayToConnector => p.relayToConnector
  | .connectorToRelay => p.connectorToRelay

def set (p : PerDirection α) (d : Direction) (a : α) : PerDirection α :=
  match d with
  | .relayToConnector => { p with relayToConnector := a }
  | .connectorToRelay => { p with connectorToRelay := a }

def map (f : α → β) (p : PerDirection α) : PerDirection β :=
  { relayToConnector := f p.relayToConnector, connectorToRelay := f p.connectorToRelay }

@[simp] theorem get_set_self (p : PerDirection α) (d : Direction) (a : α) :
    (p.set d a).get d = a := by
  cases d <;> rfl

theorem get_set_ne (p : PerDirection α) {d d' : Direction} (h : d' ≠ d) (a : α) :
    (p.set d a).get d' = p.get d' := by
  cases d <;> cases d' <;> first
    | rfl
    | exact absurd rfl h

@[simp] theorem get_map (f : α → β) (p : PerDirection α) (d : Direction) :
    (p.map f).get d = f (p.get d) := by
  cases d <;> rfl

end PerDirection

structure SequenceRange where
  first : Nat
  through : Nat

structure DirectionSnapshot where
  lastEmitted : Nat
  peerAcked : Nat
  recvContiguous : Nat
  deliveredContiguous : Nat
  sendCredit : Nat
  sentBytes : Nat
  receiveCredit : Nat
  receivedBytes : Nat
  sendTerminal : Option Terminal
  sendTerminalSequence : Option Nat
  receiveTerminal : Option Terminal
  receiveTerminalSequence : Option Nat
  replayFloor : Option Nat
  replayBytes : Nat
  reorderFrames : Nat
  reorderBytes : Nat
deriving DecidableEq

def DirectionState.snapshot (s : DirectionState) : DirectionSnapshot :=
  { lastEmitted := s.lastEmitted
    peerAcked := s.peerAcked
    recvContiguous := s.recvContiguous
    deliveredContiguous := s.deliveredContiguous
    sendCredit := s.sendCredit
    sentBytes := s.sentBytes
    receiveCredit := s.receiveCredit
    receivedBytes := s.receivedBytes
    sendTerminal := s.sendTerminal
    sendTerminalSequence := s.sendTerminalSequence
    receiveTerminal := s.receiveTerminal
    receiveTerminalSequence := s.receiveTerminalSequence
    replayFloor := s.replayFloor
    replayBytes := s.replayBytes
    reorderFrames := s.reorder.size
    reorderBytes := s.reorderBytes }

structure StreamSnapshot where
  streamId : UInt64
  directions : PerDirection DirectionSnapshot
deriving DecidableEq

def StreamSnapshot.direction (s : StreamSnapshot) (d : Direction) : DirectionSnapshot :=
  s.directions.get d

/-- `replay` lists what this endpoint has to send again, `peerMissing` what the
peer has to. -/
structure RecoveryPlan where
  streamId : UInt64
  replay : PerDirection (List Frame)
  peerMissing : PerDirection (Option SequenceRange)

def RecoveryPlan.isEmpty (plan : RecoveryPlan) : Bool :=
  plan.replay.relayToConnector.isEmpty && plan.replay.connectorToRelay.isEmpty &&
    plan.peerMissing.relayToConnector.isNone && plan.peerMissing.connectorToRelay.isNone

structure StreamState where
  streamId : UInt64
  directions : PerDirection DirectionState

namespace StreamState

def withCreditsAndLimits (streamId : UInt64) (sendCredit receiveCredit : Nat)
    (limits : SequenceLimits) : Except SequenceError StreamState :=
  if streamId = 0 then .error .zeroStreamId
  else do
    limits.validate
    return { streamId
             directions := { relayToConnector := .new sendCredit receiveCredit limits
                             connectorToRelay := .new sendCredit receiveCredit limits } }

def direction (s : StreamState) (d : Direction) : DirectionState := s.directions.get d

def setDirection (s : StreamState) (d : Direction) (t : DirectionState) : StreamState :=
  { s with directions := s.directions.set d t }

def onDirection {α : Type} (d : Direction) (x : EStateM SequenceError DirectionState α) :
    EStateM SequenceError StreamState α :=
  zoom (fun s => s.direction d) (fun s t => s.setDirection d t) x

def checkStream (s : StreamState) (f : Frame) : Except SequenceError Unit :=
  if f.streamId ≠ s.streamId then .error (.wrongStream s.streamId f.streamId) else .ok ()

def sendFrame (d : Direction) (f : Frame) : EStateM SequenceError StreamState Unit := do
  check (liftFrameError f.validate)
  let s ← get
  check (s.checkStream f)
  failIf (f.ack.toNat > (s.direction d.opposite).recvContiguous)
    (.acknowledgementBeyondReceived f.ack.toNat (s.direction d.opposite).recvContiguous)
  if f.kind = .windowUpdate then
    onDirection d.opposite (DirectionState.advertiseReceiveCredit f.window.toNat)
  else
    onDirection d (DirectionState.emit f)

def receiveFrame [Sha256] (d : Direction) (f : Frame) :
    EStateM SequenceError StreamState ReceiveDisposition := do
  check (liftFrameError f.validate)
  let s ← get
  check (s.checkStream f)
  failIf (f.ack.toNat > (s.direction d.opposite).lastEmitted)
    (.acknowledgementBeyondSent f.ack.toNat (s.direction d.opposite).lastEmitted)
  let disposition ← onDirection d (DirectionState.receive f)
  onDirection d.opposite (DirectionState.applyAck f.ack.toNat)
  (if f.kind = .windowUpdate then
    onDirection d.opposite (DirectionState.applySendCredit f.window.toNat)
  else pure ())
  return disposition

/-- A cumulative acknowledgement received outside a frame of the stream. -/
def applyAck (d : Direction) (ack : Nat) : EStateM SequenceError StreamState Unit :=
  onDirection d (DirectionState.applyAck ack)

/-- An absolute credit update received outside a frame of the stream. -/
def applyWindowUpdate (d : Direction) (limit : Nat) : EStateM SequenceError StreamState Unit :=
  onDirection d (DirectionState.applySendCredit limit)

def markDelivered (d : Direction) (through : Nat) : EStateM SequenceError StreamState Unit :=
  onDirection d (DirectionState.markDelivered through)

section

variable (s : StreamState)

def readyFrames (d : Direction) : List Frame := (s.direction d).readyFrames

def retainedReplay (d : Direction) (first through : Nat) :
    Except SequenceError (List Frame) :=
  (s.direction d).retainedReplay first through

def replayFrames (d : Direction) (first through : Nat)
    (epoch generation : UInt64) : Except SequenceError (List Frame) :=
  (s.direction d).retainedReplayForCarrier first through epoch generation

def replayMissing (d : Direction) (peerReceiveCursor : Nat)
    (epoch generation : UInt64) : Except SequenceError (List Frame) :=
  let state := s.direction d
  if peerReceiveCursor > state.lastEmitted then
    .error (.recoveryPeerAhead d peerReceiveCursor state.lastEmitted)
  else if peerReceiveCursor = state.lastEmitted then .ok []
  else
    match checkedAdd peerReceiveCursor 1 with
    | none => .error (.counterExhausted "recovery_cursor")
    | some first => state.retainedReplayForCarrier first state.lastEmitted epoch generation

def snapshot : StreamSnapshot :=
  { streamId := s.streamId, directions := s.directions.map DirectionState.snapshot }

end

end StreamState

/-! ## Comparing a peer's snapshot -/

def terminalConflict (here : Option Terminal) (localSequence : Option Nat) (localCursor : Nat)
    (peer : Option Terminal) (peerSequence : Option Nat) (peerCursor : Nat) (senderSide : Bool) :
    Option (Option Terminal × Option Terminal) :=
  match here, peer with
  | none, none | some .fin, some .fin => none
  | some (.reset a), some (.reset b) => if a = b then none else some (here, peer)
  | some .fin, some (.reset _) | some (.reset _), some .fin => none
  | none, some _ =>
    if senderSide then some (here, peer)
    else if peerSequence.all fun sequence => localCursor ≥ sequence then some (here, peer)
    else none
  | some _, none =>
    if ¬ senderSide then some (here, peer)
    else if localSequence.all fun sequence => peerCursor ≥ sequence then some (here, peer)
    else none

def terminalSequenceConflict (here : Option Terminal) (localSequence : Option Nat)
    (peer : Option Terminal) (peerSequence : Option Nat) (senderSide : Bool) :
    Option (Nat × Nat) :=
  match here, localSequence, peer, peerSequence with
  | some here, some localSequence, some peer, some peerSequence =>
    match here, peer with
    | .fin, .fin | .reset _, .reset _ =>
      if localSequence ≠ peerSequence then some (localSequence, peerSequence) else none
    | .fin, .reset _ =>
      if senderSide ∨ peerSequence ≤ localSequence then some (localSequence, peerSequence)
      else none
    | .reset _, .fin =>
      if ¬ senderSide ∨ localSequence ≤ peerSequence then some (localSequence, peerSequence)
      else none
  | _, _, _, _ => none

def validateTerminalEvidence (d : Direction) (terminal : Option Terminal) (sequence : Option Nat)
    (cursor : Nat) (field : String) : Except SequenceError Unit :=
  match terminal, sequence with
  | none, none => .ok ()
  | some _, some sequence =>
    if sequence ≠ 0 ∧ sequence = cursor then .ok () else .error (.invalidRecoverySnapshot d field)
  | _, _ => .error (.invalidRecoverySnapshot d field)

def expectedReplayFloor (snapshot : DirectionSnapshot) : Except SequenceError (Option Nat) :=
  if snapshot.lastEmitted > snapshot.peerAcked then
    match checkedAdd snapshot.peerAcked 1 with
    | none => .error (.counterExhausted "replay_floor")
    | some floor => .ok (some floor)
  else .ok none

def validateSnapshotInvariants (d : Direction) (snapshot : DirectionSnapshot) :
    Except SequenceError Unit :=
  if snapshot.peerAcked > snapshot.lastEmitted then
    .error (.invalidRecoverySnapshot d "peer_acked")
  else if snapshot.deliveredContiguous > snapshot.recvContiguous then
    .error (.invalidRecoverySnapshot d "delivered_contiguous")
  else if snapshot.sentBytes > snapshot.sendCredit then
    .error (.invalidRecoverySnapshot d "sent_bytes")
  else if snapshot.receivedBytes > snapshot.receiveCredit then
    .error (.invalidRecoverySnapshot d "received_bytes")
  else do
    let floor ← expectedReplayFloor snapshot
    if snapshot.replayFloor ≠ floor then .error (.invalidRecoverySnapshot d "replay_floor")
    else do
      validateTerminalEvidence d snapshot.sendTerminal snapshot.sendTerminalSequence
        snapshot.lastEmitted "send_terminal"
      validateTerminalEvidence d snapshot.receiveTerminal snapshot.receiveTerminalSequence
        snapshot.recvContiguous "receive_terminal"

/-- The two comparisons `validateRecoveryPair` makes of a sender's terminal with
what its receiver has seen, each with the sequence check that follows it. -/
def terminalChecks (d : Direction) (here : Option Terminal) (localSequence : Option Nat)
    (localCursor : Nat) (peer : Option Terminal) (peerSequence : Option Nat) (peerCursor : Nat)
    (senderSide : Bool) : Except SequenceError Unit :=
  match terminalConflict here localSequence localCursor peer peerSequence peerCursor senderSide with
  | some (here, peer) => .error (.terminalConflict d here peer)
  | none =>
    match terminalSequenceConflict here localSequence peer peerSequence senderSide with
    | some (here, peer) => .error (.terminalSequenceConflict d here peer)
    | none => .ok ()

namespace StreamState

def validateRecoveryPair (d : Direction) (here : DirectionState) (remote : DirectionSnapshot) :
    Except SequenceError Unit := do
  validateSnapshotInvariants d remote
  if remote.recvContiguous > here.lastEmitted then
    .error (.recoveryPeerAhead d remote.recvContiguous here.lastEmitted)
  else if here.recvContiguous > remote.lastEmitted then
    .error (.recoveryPeerBehind d here.recvContiguous remote.lastEmitted)
  else if remote.recvContiguous < here.peerAcked then
    .error (.recoveryAckRegression d here.peerAcked remote.recvContiguous)
  else if here.recvContiguous < remote.peerAcked then
    .error (.recoveryAckRegression d remote.peerAcked here.recvContiguous)
  else if here.receiveCredit < remote.sendCredit then
    .error (.recoveryCreditConflict d here.receiveCredit remote.sendCredit)
  else do
    terminalChecks d here.receiveTerminal here.receiveTerminalSequence here.recvContiguous
      remote.sendTerminal remote.sendTerminalSequence remote.recvContiguous false
    terminalChecks d here.sendTerminal here.sendTerminalSequence here.lastEmitted
      remote.receiveTerminal remote.receiveTerminalSequence remote.recvContiguous true

/-- What the peer has not received yet. -/
def replayFor (here : DirectionState) (remote : DirectionSnapshot) :
    Except SequenceError (List Frame) :=
  if remote.recvContiguous < here.lastEmitted then
    match checkedAdd remote.recvContiguous 1 with
    | none => .error (.counterExhausted "recovery_cursor")
    | some first => here.retainedReplay first here.lastEmitted
  else .ok []

/-- What the peer has emitted and this endpoint has not received yet. -/
def missingFor (here : DirectionState) (remote : DirectionSnapshot) :
    Except SequenceError (Option SequenceRange) :=
  if here.recvContiguous < remote.lastEmitted then
    match checkedAdd here.recvContiguous 1 with
    | none => .error (.counterExhausted "recovery_cursor")
    | some first => .ok (some { first, through := remote.lastEmitted })
  else .ok none

/-- One round of `reconcile`'s loop over the directions. -/
def reconcileDirection (d : Direction) (here : DirectionState) (remote : DirectionSnapshot) :
    Except SequenceError (List Frame × Option SequenceRange) := do
  validateRecoveryPair d here remote
  let replay ← replayFor here remote
  let peerMissing ← missingFor here remote
  return (replay, peerMissing)

def reconcile (s : StreamState) (peer : StreamSnapshot) : Except SequenceError RecoveryPlan :=
  if peer.streamId ≠ s.streamId then .error (.wrongStream s.streamId peer.streamId)
  else do
    let (relayReplay, relayMissing) ← reconcileDirection .relayToConnector
      (s.direction .relayToConnector) (peer.direction .relayToConnector)
    let (connectorReplay, connectorMissing) ← reconcileDirection .connectorToRelay
      (s.direction .connectorToRelay) (peer.direction .connectorToRelay)
    return { streamId := s.streamId
             replay := { relayToConnector := relayReplay, connectorToRelay := connectorReplay }
             peerMissing :=
               { relayToConnector := relayMissing, connectorToRelay := connectorMissing } }

def reconcileForCarrier (s : StreamState) (peer : StreamSnapshot) (epoch generation : UInt64) :
    Except SequenceError RecoveryPlan :=
  (s.reconcile peer).map fun plan =>
    { plan with
      replay := plan.replay.map fun frames => frames.map (Frame.onCarrier epoch generation) }

def reconcileAndApply (peer : StreamSnapshot) :
    EStateM SequenceError StreamState RecoveryPlan := do
  let s ← get
  let plan ← check (s.reconcile peer)
  onDirection .relayToConnector
    (DirectionState.applyAck (peer.direction .relayToConnector).recvContiguous)
  onDirection .connectorToRelay
    (DirectionState.applyAck (peer.direction .connectorToRelay).recvContiguous)
  return plan

end StreamState

end AgentUplink
