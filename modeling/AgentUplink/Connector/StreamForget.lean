/-
Reclamation of streams.

The owner sends STREAM_FORGET once a stream is over. The connector checks the final
cursors against its own, drains every carrier with a barrier, and then lets go of the
stream and of what its journal holds for it. A proof that only waits for evidence on
its way is kept for a while and checked again.
-/
import AgentUplink.Connector.Admission

namespace AgentUplink

open Machine Fallible Std

def streamForgetRevalidationTimeout : Nat := M2Actor.criticalControlTimeout

def streamForgetProofExpired : ClientError :=
  .transport "stream forget proof"
    "STREAM_FORGET terminal proof did not converge before its deadline"

/-- The final state of a stream that was never opened. -/
def noStreamForgetState (streamId : UInt64) : ResumeDirectionState where
  streamId
  lastEmitted := 0
  peerAcked := 0
  recvContiguous := 0
  deliveredContiguous := 0
  sentBytes := 0
  receivedBytes := 0
  sendCredit := 0
  receiveCredit := 0
  sendTerminal := none
  receiveTerminal := none
  replayFloor := none

/-! ## The proof -/

/-- The owner's side of the proof: a finished and fully acknowledged sender. -/
def ResumeDirectionState.provesSender (f : ResumeDirectionState) : Bool :=
  f.sendTerminal.isSome && f.peerAcked = f.lastEmitted && f.replayFloor.isNone &&
    f.recvContiguous = 0 && f.deliveredContiguous = 0 && f.receivedBytes = 0 &&
    f.receiveTerminal.isNone

variable (sequence : StreamState)

/-- The connector received exactly what the owner sent, and delivered it. -/
def receiveEvidence (owner : DirectionSnapshot) : Bool :=
  let receiver := sequence.snapshot.direction .relayToConnector
  owner.lastEmitted = receiver.recvContiguous && owner.sentBytes = receiver.receivedBytes &&
    owner.sendTerminal = receiver.receiveTerminal &&
    owner.sendTerminalSequence = receiver.receiveTerminalSequence &&
    receiver.deliveredContiguous = receiver.recvContiguous && receiver.reorderFrames = 0 &&
    receiver.reorderBytes = 0 && (sequence.readyFrames .relayToConnector).isEmpty

/-- The snapshot a peer with the connector's own sender state acknowledged would have. -/
def peerOpposite (sender : DirectionSnapshot) : DirectionSnapshot where
  lastEmitted := 0
  peerAcked := 0
  recvContiguous := sender.lastEmitted
  deliveredContiguous := sender.lastEmitted
  sendCredit := sender.receiveCredit
  sentBytes := 0
  receiveCredit := sender.sendCredit
  receivedBytes := sender.sentBytes
  sendTerminal := none
  sendTerminalSequence := none
  receiveTerminal := sender.sendTerminal
  receiveTerminalSequence := sender.sendTerminalSequence
  replayFloor := none
  replayBytes := 0
  reorderFrames := 0
  reorderBytes := 0

def validateOwnerStreamForgetStateWith (direction : Direction)
    (finalState : ResumeDirectionState) (awaitingOwnerAck : Bool) : Except ClientError Unit :=
  if direction ≠ .relayToConnector then
    .error (.protocol "STREAM_FORGET owner direction mismatch")
  else if finalState.streamId ≠ sequence.streamId ∨ ¬ finalState.provesSender then
    .error (.protocol "STREAM_FORGET owner sender evidence is incomplete")
  else
    let snapshot := sequence.snapshot
    let owner := Connector.directionSnapshotFromResume finalState
    if ¬ receiveEvidence sequence owner then
      .error (.protocol "STREAM_FORGET owner and connector receive evidence mismatch")
    else
      let sender := snapshot.direction .connectorToRelay
      let acknowledged := sender.peerAcked = sender.lastEmitted && sender.replayFloor.isNone
      if sender.sendTerminal.isNone ∨ (!acknowledged && !awaitingOwnerAck) ∨
          sender.reorderFrames ≠ 0 ∨ sender.reorderBytes ≠ 0 ∨
          ¬ (sequence.readyFrames .connectorToRelay).isEmpty then
        .error (.protocol "STREAM_FORGET connector sender evidence is incomplete")
      else
        let peer : StreamSnapshot :=
          { snapshot with
            directions := { relayToConnector := owner, connectorToRelay := peerOpposite sender } }
        match sequence.reconcile peer with
        | .ok _ => .ok ()
        | .error e => .error (.forgetSequence e)

/-- The connector sent its end of the stream, and holds nothing back. -/
def senderFinished : Bool :=
  let sender := sequence.snapshot.direction .connectorToRelay
  sender.sendTerminal.isSome && sender.sendTerminalSequence = some sender.lastEmitted &&
    sender.reorderFrames = 0 && sender.reorderBytes = 0 &&
    (sequence.readyFrames .connectorToRelay).isEmpty

def senderAckPending : Bool :=
  let sender := sequence.snapshot.direction .connectorToRelay
  sender.peerAcked < sender.lastEmitted || sender.replayFloor.isSome || sender.replayBytes ≠ 0

def M2Stream.owesInput (stream : M2Stream) : Bool :=
  !stream.pending.isEmpty || stream.pendingBytes ≠ 0 || !stream.recordBuffer.isEmpty ||
    stream.recordExpected.isSome

def Surroundings.carriers (around : Surroundings) : List CarrierKey :=
  (([around.active] ++ around.candidate.toList ++ around.retiring.toList).map
    Carrier.key).mergeSort CarrierKey.le |>.eraseReps

/-- Put a barrier behind what a carrier's writer has queued. -/
def Surroundings.pushBarrier (around : Surroundings) (key : CarrierKey) : Surroundings :=
  let push (carrier : Carrier) : Carrier := { carrier with queued := carrier.queued + 1 }
  if around.active.key = key then { around with active := push around.active }
  else if around.candidate.any fun carrier => carrier.key = key then
    { around with candidate := around.candidate.map push }
  else { around with retiring := around.retiring.map push }

/-- Every carrier has drained, and the phase lets the stream go. -/
def PendingStreamForget.ready (pending : PendingStreamForget) (key : Option CarrierKey)
    (phase : RotationPhase) : Bool :=
  (key.all fun key => pending.carriers.contains key && pending.barriersQueued.contains key &&
      pending.barriersCompleted.contains key) &&
    (pending.carriers.all fun carrier => pending.barriersCompleted.contains carrier) &&
    (phase = .active || phase = .preparing) &&
    (!pending.deferReclamation || phase = .active)

namespace M2Actor

variable (s : M2Actor)

variable (streamId : UInt64)

def hasPendingOutputForStream : Bool :=
  s.around.pendingOutputs.contains streamId

def owesControls : Bool :=
  s.around.active.pendingControls.contains streamId ||
    s.around.candidate.any (fun carrier => carrier.pendingControls.contains streamId) ||
    s.around.retiring.any fun carrier => carrier.pendingControls.contains streamId

variable (forget : StreamForget)

/-- Everything but the owner's last acknowledgement, the controls a carrier owes and, if
allowed, the connector's deferred output is there. -/
def streamForgetProofMayConvergeWith
    (allowSenderLag : Bool) : Bool :=
  match s.streams[forget.streamId]? with
  | none => false
  | some stream =>
    let owner := Connector.directionSnapshotFromResume forget.finalState
    let receiver := stream.sequence.snapshot.direction .relayToConnector
    let senderLag := s.hasPendingOutputForStream forget.streamId
    forget.sessionId = s.session.sessionId && forget.epoch = s.session.epoch &&
      stream.operationId = forget.operationId && forget.finalState.streamId = forget.streamId &&
      forget.direction = .relayToConnector && forget.finalState.provesSender &&
      s.config.exports.contains stream.serviceId && !stream.owesInput &&
      (!senderLag || allowSenderLag) && receiveEvidence stream.sequence owner &&
      owner.receiveCredit ≥ receiver.sendCredit && owner.sendCredit ≤ receiver.receiveCredit &&
      senderFinished stream.sequence &&
      (senderAckPending stream.sequence || s.owesControls forget.streamId || senderLag)

def streamForgetProofMayConverge : Bool :=
  s.streamForgetProofMayConvergeWith forget false

def validateStreamForgetMode
    (awaitingOwnerAck connectorSenderPending : Bool) : Except ClientError Unit :=
  let awaitingOwnerAck := awaitingOwnerAck || connectorSenderPending
  if forget.sessionId ≠ s.session.sessionId ∨ forget.epoch ≠ s.session.epoch then
    .error (.protocol "STREAM_FORGET context mismatch")
  else
    match s.streams[forget.streamId]? with
    | none =>
      match s.openJournal.retainedOperationMatches forget.streamId forget.operationId with
      | some false => .error (.protocol "STREAM_FORGET operation identity mismatch")
      | none => .error (.protocol "STREAM_FORGET unknown stream or OPEN journal entry")
      | some true =>
        if forget.direction ≠ .relayToConnector ∨
            forget.finalState ≠ noStreamForgetState forget.streamId then
          .error (.protocol "STREAM_FORGET no-stream evidence mismatch")
        else .ok ()
    | some stream => do
      if stream.operationId ≠ forget.operationId ∨
          forget.finalState.streamId ≠ forget.streamId ∨
          (forget.finalState.sendTerminal.isNone ∧ forget.finalState.receiveTerminal.isNone) ∨
          ¬ s.config.exports.contains stream.serviceId then
        .error (.protocol "STREAM_FORGET operation or terminal evidence mismatch")
      else
        validateOwnerStreamForgetStateWith stream.sequence forget.direction forget.finalState
          awaitingOwnerAck
        if stream.owesInput then
          .error (.protocol "STREAM_FORGET before local adapter input debt drained")
        else if (s.hasPendingOutputForStream forget.streamId && !connectorSenderPending) ∨
            (s.owesControls forget.streamId && !awaitingOwnerAck) then
          .error (.protocol "STREAM_FORGET before deferred output and control debt drained")
        else .ok ()

def validateStreamForget : Except ClientError Unit :=
  s.validateStreamForgetMode forget false false

def streamForgetConnectorSenderLagging : Bool :=
  s.streamForgetProofMayConvergeWith forget true &&
    !s.streamForgetProofMayConvergeWith forget false &&
    s.validateStreamForgetMode forget true true matches .ok _

def streamForgetProofMayStillComplete : Bool :=
  s.streamForgetProofMayConverge forget || s.streamForgetConnectorSenderLagging forget

def expiredStreamForgetProofError (e : ClientError) :
    ClientError :=
  if (s.streamForgetProofMayConverge forget &&
        s.validateStreamForgetMode forget true false matches .ok _) ||
      s.streamForgetConnectorSenderLagging forget then
    streamForgetProofExpired
  else e

/-! ## Barriers -/

def changeForget (g : PendingStreamForget → PendingStreamForget) :
    Connecting Unit :=
  modify fun s =>
    { s with pendingForgets := s.pendingForgets.map fun id pending =>
        if id = streamId then g pending else pending }

def carrierForKey (s : M2Actor) (key : CarrierKey) : Option Carrier :=
  if s.around.active.key = key then some s.around.active
  else if s.around.candidate.any fun carrier => carrier.key = key then s.around.candidate
  else s.around.retiring.filter fun carrier => carrier.key = key

/-- Queue one barrier. A carrier without room is left for later. -/
def queueForgetBarrier (key : CarrierKey) : Connecting Unit := do
  let s ← get
  if s.pendingForgets[streamId]?.any fun pending => pending.barriersQueued.contains key then
    return ()
  else if key = s.around.active.key ∧ s.around.barrierQueued then return ()
  else
    match s.carrierForKey key with
    | none =>
      throw (.transport "stream forget barrier" "carrier disappeared before barrier completion")
    | some carrier =>
      if carrier.closed then
        throw (.transport "stream forget barrier"
          "data writer stopped before barrier completion")
      else if carrier.queued ≥ carrier.capacity then return ()
      else do
        changeAround fun around => around.pushBarrier key
        changeForget streamId fun pending =>
          { pending with barriersQueued := pending.barriersQueued.insert key }

def queuePendingForgetBarriers (streamIds : List UInt64) : Connecting Unit :=
  streamIds.forM fun streamId => do
    let s ← get
    ((s.pendingForgets[streamId]?.map PendingStreamForget.carriers).getD []).forM
      (queueForgetBarrier streamId)

/-- Check the pending proofs again, and tell which are complete now. -/
def refreshProofs (now : Nat) : List UInt64 → Connecting (List UInt64)
  | [] => return []
  | streamId :: streamIds => do
    let s ← get
    match s.pendingForgets[streamId]? with
    | none => refreshProofs now streamIds
    | some pending =>
      match s.validateStreamForget pending.forget with
      | .ok _ => do
        changeForget streamId fun pending =>
          { pending with proofPending := false, proofDeadline := none }
        let converged ← refreshProofs now streamIds
        return streamId :: converged
      | .error e =>
        if pending.proofDeadline.all fun deadline => now ≥ deadline then
          throw (s.expiredStreamForgetProofError pending.forget e)
        else if s.streamForgetProofMayStillComplete pending.forget then
          refreshProofs now streamIds
        else throw e

def refreshPendingForgetProofs (now : Nat) : Connecting Unit := do
  let s ← get
  let converged ← refreshProofs now
    ((s.pendingForgets.toList.filter fun entry => entry.2.proofPending).map Prod.fst)
  queuePendingForgetBarriers converged

def retryPendingForgetBarriers (now : Nat) : Connecting Unit := do
  refreshPendingForgetProofs now
  let s ← get
  queuePendingForgetBarriers s.pendingForgets.keys

/-! ## Reclamation -/

def removePendingOpenForForget (s : M2Actor) (streamId : UInt64) (operationId : String) :
    M2Actor :=
  { s with
    pendingOpen := s.pendingOpen.filter fun pending => ¬ pending.IsFor streamId operationId
    pendingOpenQueue := s.pendingOpenQueue.filter fun pending =>
      ¬ pending.IsFor streamId operationId }

/-- Let go of a stream and of what the journal holds for its operation. -/
def reclaim (s : M2Actor) (streamId : UInt64) (operationId : String) : M2Actor :=
  let s := s.removePendingOpenForForget streamId operationId
  { s with
    openJournal := s.openJournal.releaseMatching streamId operationId
    streams := s.streams.erase streamId
    pendingForgets := s.pendingForgets.erase streamId
    forgottenStreamThrough := max s.forgottenStreamThrough streamId
    retiredStreams := s.retiredStreams.insert streamId }

def completeForgets (now : Nat) : List UInt64 → Connecting Unit
  | [] => return ()
  | streamId :: ready => do
    let s ← get
    match s.pendingForgets[streamId]? with
    | none => completeForgets now ready
    | some pending =>
      match s.validateStreamForget pending.forget with
      | .ok _ => do
        modify fun s => s.reclaim streamId pending.forget.operationId
        completeForgets now ready
      | .error e =>
        if !pending.proofPending || !s.streamForgetProofMayStillComplete pending.forget then throw e
        else if pending.proofDeadline.all fun deadline => now ≥ deadline then
          throw (s.expiredStreamForgetProofError pending.forget e)
        else do
          changeForget streamId fun pending =>
            { pending with barriersQueued := [], barriersCompleted := [] }
          completeForgets now ready

def completePendingStreamForgetsMatching (key : Option CarrierKey) (now : Nat) :
    Connecting Unit := do
  refreshPendingForgetProofs now
  let s ← get
  completeForgets now ((s.pendingForgets.toList.filter fun entry =>
    entry.2.ready key s.around.phase).map Prod.fst)

def completeReadyStreamForgets (now : Nat) : Connecting Unit :=
  completePendingStreamForgetsMatching none now

def markPendingForgetBarrierComplete (s : M2Actor) (key : CarrierKey) : M2Actor :=
  { s with pendingForgets := s.pendingForgets.map fun _ pending =>
      if pending.barriersQueued.contains key then
        { pending with barriersCompleted := pending.barriersCompleted.insert key }
      else pending }

def isForgetBarrier (s : M2Actor) (key : CarrierKey) : Bool :=
  s.pendingForgets.toList.any fun entry =>
    entry.2.barriersQueued.contains key && !entry.2.barriersCompleted.contains key

def hasPreQuiesceForgets (s : M2Actor) : Bool :=
  s.pendingForgets.toList.any fun entry => !entry.2.deferReclamation

/-- A carrier's writer passed a barrier. What follows for a pending QUIESCE is not part
of the model. -/
def handleBarrierComplete (key : CarrierKey) (now : Nat) : Connecting Unit := do
  let forgetBarrier := (← get).isForgetBarrier key
  modify fun s => s.markPendingForgetBarrierComplete key
  let s ← get
  if s.around.active.key ≠ key then completePendingStreamForgetsMatching (some key) now
  else if !s.around.barrierQueued then
    if forgetBarrier then completePendingStreamForgetsMatching (some key) now else return ()
  else do
    changeAround fun around => { around with barrierQueued := false }
    if s.hasPreQuiesceForgets then retryPendingForgetBarriers now else return ()

/-! ## The message -/

def handleStreamForget (forget : StreamForget) (now : Nat) : Connecting Unit := do
  let s ← get
  failIf (forget.sessionId ≠ s.session.sessionId ∨ forget.epoch ≠ s.session.epoch)
    (.protocol "STREAM_FORGET context mismatch")
  if (s.retiredStreams.contains forget.streamId ∨ forget.streamId ≤ s.forgottenStreamThrough) ∧
      ¬ s.streams.contains forget.streamId ∧
      (s.openJournal.retainedOperationMatches forget.streamId forget.operationId).isNone then
    return ()
  else
    match s.pendingForgets[forget.streamId]? with
    | some pending =>
      failIf (pending.forget ≠ forget)
        (.protocol "STREAM_FORGET changed while carrier barriers were pending")
    | none => do
      let (proofPending, proofDeadline) ← check (match s.validateStreamForget forget with
        | .ok _ => .ok (false, none)
        | .error e =>
          if s.streamForgetProofMayStillComplete forget then
            .ok (true, some (now + streamForgetRevalidationTimeout))
          else .error e)
      modify fun s =>
        { s with
          pendingForgets := s.pendingForgets.insert forget.streamId
            { forget, carriers := s.around.carriers, barriersQueued := [],
              barriersCompleted := [], proofPending, proofDeadline,
              deferReclamation := !(s.around.phase = .active || s.around.phase = .preparing) } }
      refreshPendingForgetProofs now
      queuePendingForgetBarriers [forget.streamId]

/-! ## Cancellation -/

def compactRemoved (messageIds : List String) : Connecting Unit :=
  messageIds.forM fun messageId => do
    match ← onJournal (OpenJournal.compact messageId) with
    | .ok _ => return ()
    | .error .tombstoneCapacity | .error .capacity => throw .queueLimit
    | .error .conflictingMessage | .error .missingMessage | .error .conflictingResponse =>
      throw (.protocol "OPEN cancellation journal cleanup failed")

/-- Drop the deferred requests a CANCEL names. What it does to an open stream is not part
of the model. -/
def handleCancel (cancel : Cancel) : Connecting Unit := do
  let s ← get
  failIf (cancel.sessionId ≠ s.session.sessionId ∨ cancel.epoch ≠ s.session.epoch)
    (.protocol "CANCEL context mismatch")
  modify fun s => s.removePendingOpenForForget cancel.streamId cancel.operationId
  compactRemoved ((s.deferred.filter fun pending =>
    pending.IsFor cancel.streamId cancel.operationId).map fun pending => pending.request.messageId)

end M2Actor

end AgentUplink
