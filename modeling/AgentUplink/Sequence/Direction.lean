import AgentUplink.Lib.Machine
import AgentUplink.Lib.Fallible
import AgentUplink.Lib.KeyedMap
import AgentUplink.Protocol.Frame

/-!
# One direction of a stream

Sequence numbers, retained frames and byte credit of one logical direction. An
endpoint keeps a `DirectionState` for both directions of a stream. The sending
half retains what the peer has not acknowledged; the receiving half buffers
frames above a gap and promotes them, in order, to the adapter's ready queue.

A method that takes its receiver by mutable reference runs in `EStateM`, so the
state left behind by a failure is part of the model.
-/

namespace AgentUplink

open Machine Fallible Std

inductive Direction where
  | relayToConnector
  | connectorToRelay
deriving DecidableEq

def Direction.opposite : Direction → Direction
  | .relayToConnector => .connectorToRelay
  | .connectorToRelay => .relayToConnector

inductive Terminal where
  | fin
  | reset (reason : UInt16)
deriving DecidableEq

structure SequenceLimits where
  maxReplayFrames : Nat
  maxReplayBytes : Nat
  maxReorderFrames : Nat
  maxReorderBytes : Nat

inductive SequenceError where
  | frame (error : FrameError)
  | zeroStreamId
  | wrongStream (expected actual : UInt64)
  | sequenceNotNext (expected actual : Nat)
  | sequenceGap (expected actual : Nat)
  | duplicateConflict (sequence : Nat)
  | afterTerminal (kind : FrameKind) (terminal : Terminal)
  | creditExceeded (limit attempted : Nat)
  | acknowledgementBeyondSent (acknowledged lastEmitted : Nat)
  | acknowledgementBeyondReceived (acknowledged received : Nat)
  | deliveredBeyondReceived (requested received : Nat)
  | counterExhausted (counter : String)
  | limitsExceeded (field : String) (requested maximum : Nat)
  | replayBufferFull (frames bytes : Nat)
  | reorderBufferFull (frames bytes : Nat)
  | missingHistory (first through : Nat)
  | invalidReplayRange (first through : Nat)
  | replayBeyondEmitted (requested lastEmitted : Nat)
  | recoveryPeerAhead (direction : Direction) (peerCursor localLastEmitted : Nat)
  | recoveryPeerBehind (direction : Direction) (localCursor peerLastEmitted : Nat)
  | recoveryAckRegression (direction : Direction) (acknowledged received : Nat)
  | recoveryCreditConflict (direction : Direction) (here peer : Nat)
  | terminalConflict (direction : Direction) (here peer : Option Terminal)
  | terminalSequenceConflict (direction : Direction) (here peer : Nat)
  | invalidRecoverySnapshot (direction : Direction) (field : String)
deriving DecidableEq

def liftFrameError {α : Type} (r : Except FrameError α) : Except SequenceError α :=
  r.mapError .frame

namespace SequenceLimits

/-- The four hard maxima a negotiated limit is held to, under their field names. -/
def checks (limits : SequenceLimits) : List (String × Nat × Nat) :=
  [("max_replay_frames", limits.maxReplayFrames, 128),
    ("max_replay_bytes", limits.maxReplayBytes, 1024 * 1024),
    ("max_reorder_frames", limits.maxReorderFrames, 128),
    ("max_reorder_bytes", limits.maxReorderBytes, 1024 * 1024)]

def validate (limits : SequenceLimits) : Except SequenceError Unit :=
  limits.checks.forM fun (field, requested, maximum) =>
    if requested > maximum then .error (.limitsExceeded field requested maximum) else .ok ()

end SequenceLimits

inductive ReceiveDisposition where
  | accepted
  | buffered
  | duplicate
deriving DecidableEq

/-- The hash of a frame's payload. Only its being a function is used: no result
assumes that different payloads hash differently. -/
class Sha256 where
  digest : List UInt8 → List UInt8

structure FrameFingerprint where
  kind : FrameKind
  flags : UInt16
  ack : UInt64
  window : UInt64
  payloadLen : Nat
  payloadHash : List UInt8
deriving DecidableEq

def FrameFingerprint.of [Sha256] (f : Frame) : FrameFingerprint :=
  { kind := f.kind, flags := f.flags, ack := f.ack, window := f.window,
    payloadLen := f.payload.length, payloadHash := Sha256.digest f.payload }

structure DirectionState where
  limits : SequenceLimits
  lastEmitted : Nat
  peerAcked : Nat
  recvContiguous : Nat
  deliveredContiguous : Nat
  sendCredit : Nat
  sentBytes : Nat
  receiveCredit : Nat
  receivedBytes : Nat
  sendTerminal : Option Terminal
  sendTerminalSequence : Option Nat
  receiveTerminal : Option Terminal
  receiveTerminalSequence : Option Nat
  fingerprints : ExtTreeMap Nat FrameFingerprint
  replay : ExtTreeMap Nat Frame
  replayBytes : Nat
  reorder : ExtTreeMap Nat Frame
  reorderBytes : Nat
  ready : ExtTreeMap Nat Frame
  readyBytes : Nat

def payloadLength (f : Frame) : Nat := f.payload.length

namespace DirectionState

def maxRetainedFingerprints : Nat := 128

def new (sendCredit receiveCredit : Nat) (limits : SequenceLimits) : DirectionState :=
  { limits, lastEmitted := 0, peerAcked := 0, recvContiguous := 0, deliveredContiguous := 0,
    sendCredit, sentBytes := 0, receiveCredit, receivedBytes := 0,
    sendTerminal := none, sendTerminalSequence := none,
    receiveTerminal := none, receiveTerminalSequence := none,
    fingerprints := ∅, replay := ∅, replayBytes := 0, reorder := ∅, reorderBytes := 0,
    ready := ∅, readyBytes := 0 }

def replayFloor (s : DirectionState) : Option Nat := s.replay.keys.head?

def readyFrames (s : DirectionState) : List Frame := s.ready.toList.map Prod.snd

/-! ## Sending -/

def pruneReplay (s : DirectionState) : DirectionState :=
  let (replay, replayBytes) := KeyedMap.dropThrough payloadLength s.peerAcked s.replay s.replayBytes
  { s with replay, replayBytes }

def applyAck (ack : Nat) : EStateM SequenceError DirectionState Unit := do
  let s ← get
  failIf (ack > s.lastEmitted) (.acknowledgementBeyondSent ack s.lastEmitted)
  modify fun s => if ack > s.peerAcked then { s with peerAcked := ack }.pruneReplay else s

def applySendCredit (limit : Nat) : EStateM SequenceError DirectionState Unit :=
  modify fun s => if limit > s.sendCredit then { s with sendCredit := limit } else s

def advertiseReceiveCredit (limit : Nat) : EStateM SequenceError DirectionState Unit :=
  modify fun s => if limit > s.receiveCredit then { s with receiveCredit := limit } else s

def validateTerminal (terminal : Option Terminal) (kind : FrameKind) : Except SequenceError Unit :=
  match terminal, kind with
  | none, _ => .ok ()
  | some .fin, .reset => .ok ()
  | some terminal, kind => .error (.afterTerminal kind terminal)

def validateSendTerminal (s : DirectionState) (kind : FrameKind) : Except SequenceError Unit :=
  validateTerminal s.sendTerminal kind

/-- The slots and the bytes kept free for a FIN and a RESET beyond a DATA bound. -/
def terminalReserve (kind : FrameKind) : Nat := if kind.isTerminal then 2 else 0

def ensureReplayCapacity (s : DirectionState) (f : Frame) : Except SequenceError Unit :=
  let countLimit := saturatingAdd s.limits.maxReplayFrames (terminalReserve f.kind)
  let bytesLimit := saturatingAdd s.limits.maxReplayBytes (terminalReserve f.kind)
  match checkedAdd s.replay.size 1 with
  | none => .error (.counterExhausted "replay_frames")
  | some projectedCount =>
    match checkedAdd s.replayBytes f.payload.length with
    | none => .error (.counterExhausted "replay_bytes")
    | some projectedBytes =>
      if projectedCount > countLimit ∨ projectedBytes > bytesLimit then
        .error (.replayBufferFull s.replay.size s.replayBytes)
      else .ok ()

variable (f : Frame)

def retainReplay (s : DirectionState) : DirectionState :=
  { s with
    replayBytes := s.replayBytes + f.payload.length
    replay := s.replay.insert f.sequence.toNat f }

/-- The terminal a FIN or a RESET leaves behind; `none` for every other kind. -/
def terminalOf : Except SequenceError (Option Terminal) :=
  match f.kind with
  | .fin => .ok (some .fin)
  | .reset => do
    let reason ← liftFrameError f.resetReason
    return some (.reset (reason.getD 0))
  | .data | .ack | .windowUpdate => .ok none

def closeSend (terminal : Option Terminal) (s : DirectionState) : DirectionState :=
  match terminal with
  | some terminal =>
    { s with sendTerminal := some terminal, sendTerminalSequence := some f.sequence.toNat }
  | none => s

def emitSequenced : EStateM SequenceError DirectionState Unit := do
  let s ← get
  check (s.validateSendTerminal f.kind)
  let expected ← orFail (checkedAdd s.lastEmitted 1) (.counterExhausted "last_emitted")
  failIf (f.sequence.toNat ≠ expected) (.sequenceNotNext expected f.sequence.toNat)
  let attempted ← orFail
    (if f.kind = .data then checkedAdd s.sentBytes f.payload.length else some s.sentBytes)
    (.counterExhausted "sent_bytes")
  failIf (f.kind = .data ∧ attempted > s.sendCredit) (.creditExceeded s.sendCredit attempted)
  check (s.ensureReplayCapacity f)
  modify fun s => if f.kind = .data then { s with sentBytes := attempted } else s
  modify fun s => { s with lastEmitted := f.sequence.toNat }
  modify (retainReplay f)
  let terminal ← check (terminalOf f)
  modify (closeSend f terminal)

def emit : EStateM SequenceError DirectionState Unit :=
  if f.kind.sequenced then emitSequenced f else pure ()

/-! ## Receiving -/

def validateReceiveTerminal (s : DirectionState) (kind : FrameKind) : Except SequenceError Unit :=
  validateTerminal s.receiveTerminal kind

def ensureReceiveCapacityValues (limits : SequenceLimits) (currentFrames currentBytes : Nat)
    (f : Frame) : Except SequenceError Unit :=
  let frameLimit := saturatingAdd limits.maxReorderFrames (terminalReserve f.kind)
  let byteLimit := saturatingAdd limits.maxReorderBytes (terminalReserve f.kind)
  match checkedAdd currentFrames 1 with
  | none => .error (.counterExhausted "reorder_frames")
  | some projectedFrames =>
    match checkedAdd currentBytes f.payload.length with
    | none => .error (.counterExhausted "reorder_bytes")
    | some projectedBytes =>
      if projectedFrames > frameLimit ∨ projectedBytes > byteLimit then
        .error (.reorderBufferFull currentFrames currentBytes)
      else .ok ()

def ensureReceiveCapacity (s : DirectionState) (f : Frame) : Except SequenceError Unit :=
  match checkedAdd s.reorderBytes s.readyBytes with
  | none => .error (.counterExhausted "reorder_bytes")
  | some currentBytes =>
    ensureReceiveCapacityValues s.limits (s.reorder.size + s.ready.size) currentBytes f

def checkedReceivedBytes (s : DirectionState) (f : Frame) (receivedBytes : Nat) :
    Except SequenceError Nat :=
  if f.kind ≠ .data then .ok receivedBytes
  else if f.payload.length > maxPayloadLen then
    .error (.frame (.payloadTooLarge f.payload.length maxPayloadLen))
  else
    match checkedAdd receivedBytes f.payload.length with
    | none => .error (.counterExhausted "received_bytes")
    | some attempted =>
      if attempted > s.receiveCredit then .error (.creditExceeded s.receiveCredit attempted)
      else .ok attempted

def chargeReceived : EStateM SequenceError DirectionState Unit := do
  let s ← get
  let receivedBytes ← check (s.checkedReceivedBytes f s.receivedBytes)
  modify fun s => { s with receivedBytes }

/-- Drop the oldest fingerprints until at most `maxRetainedFingerprints` are left. -/
def expireFingerprints :
    Nat → ExtTreeMap Nat FrameFingerprint → ExtTreeMap Nat FrameFingerprint
  | 0, m => m
  | n + 1, m =>
    if m.size > maxRetainedFingerprints then
      match m.keys.head? with
      | some oldest => expireFingerprints n (m.erase oldest)
      | none => m
    else m

def retainFingerprint (sequence : Nat) (fingerprint : FrameFingerprint) (s : DirectionState) :
    DirectionState :=
  let inserted := s.fingerprints.insert sequence fingerprint
  { s with fingerprints := expireFingerprints inserted.size inserted }

/-- The local variables of `preflightReceive`'s loop. -/
structure Promotion where
  cursor : Nat
  terminal : Option Terminal
  receivedBytes : Nat
  frameCount : Nat
  bufferedBytes : Nat

/-- What only the newly received frame, the loop's first candidate, is charged. -/
def preflightCharge (s : DirectionState) (candidate : Frame) (p : Promotion) :
    Except SequenceError Promotion := do
  ensureReceiveCapacityValues s.limits p.frameCount p.bufferedBytes candidate
  let receivedBytes ← s.checkedReceivedBytes candidate p.receivedBytes
  match checkedAdd p.frameCount 1 with
  | none => .error (.counterExhausted "reorder_frames")
  | some frameCount =>
    match checkedAdd p.bufferedBytes candidate.payload.length with
    | none => .error (.counterExhausted "reorder_bytes")
    | some bufferedBytes => .ok { p with receivedBytes, frameCount, bufferedBytes }

def preflightStep (s : DirectionState) (candidate : Frame) (isNew : Bool) (p : Promotion) :
    Except SequenceError Promotion :=
  match checkedAdd p.cursor 1 with
  | none => .error (.counterExhausted "recv_contiguous")
  | some expected =>
    if candidate.sequence.toNat ≠ expected then
      .error (.sequenceGap expected candidate.sequence.toNat)
    else do
      validateTerminal p.terminal candidate.kind
      let p ← if isNew then s.preflightCharge candidate p else .ok p
      let terminal ← terminalOf candidate
      return { p with
        cursor := candidate.sequence.toNat
        terminal := terminal.or p.terminal }

/-- Every round after the first consumes another key of `reorder`, so one round
more than its size is enough. -/
def preflightLoop (s : DirectionState) :
    Nat → Frame → Bool → Promotion → Except SequenceError ReceiveDisposition
  | 0, _, _, _ => .ok .accepted
  | n + 1, candidate, isNew, p => do
    let p ← s.preflightStep candidate isNew p
    match (checkedAdd p.cursor 1).bind fun sequence => s.reorder[sequence]? with
    | some next => s.preflightLoop n next false p
    | none => .ok .accepted

def preflightReceive [Sha256] (s : DirectionState) (f : Frame) :
    Except SequenceError ReceiveDisposition :=
  if ¬ f.kind.sequenced then .ok .accepted
  else if f.sequence.toNat ≤ s.recvContiguous then
    match s.fingerprints[f.sequence.toNat]? with
    | some previous =>
      if previous ≠ .of f then .error (.duplicateConflict f.sequence.toNat) else .ok .duplicate
    | none => .ok .duplicate
  else
    match s.reorder[f.sequence.toNat]? with
    | some previous =>
      if FrameFingerprint.of previous ≠ .of f then
        .error (.duplicateConflict f.sequence.toNat)
      else .ok .duplicate
    | none =>
      match checkedAdd s.recvContiguous 1 with
      | none => .error (.counterExhausted "recv_contiguous")
      | some expected =>
        if f.sequence.toNat ≠ expected then
          if s.receiveTerminal = some .fin ∧ f.kind = .reset then
            .error (.sequenceGap expected f.sequence.toNat)
          else do
            s.validateReceiveTerminal f.kind
            s.ensureReceiveCapacity f
            let _ ← s.checkedReceivedBytes f s.receivedBytes
            return .buffered
        else
          s.preflightLoop (s.reorder.size + 1) f true
            { cursor := s.recvContiguous, terminal := s.receiveTerminal,
              receivedBytes := s.receivedBytes, frameCount := s.reorder.size + s.ready.size,
              bufferedBytes := s.reorderBytes + s.readyBytes }

def closeReceive (terminal : Option Terminal) (s : DirectionState) : DirectionState :=
  match terminal with
  | some terminal =>
    { s with receiveTerminal := some terminal, receiveTerminalSequence := some f.sequence.toNat }
  | none => s

def acceptContiguous [Sha256] (charge : Bool) :
    EStateM SequenceError DirectionState Unit := do
  let s ← get
  check (s.validateReceiveTerminal f.kind)
  let expected ← orFail (checkedAdd s.recvContiguous 1) (.counterExhausted "recv_contiguous")
  failIf (f.sequence.toNat ≠ expected) (.sequenceGap expected f.sequence.toNat)
  check (s.ensureReceiveCapacity f)
  (if charge then chargeReceived f else pure ())
  modify fun s => { s with recvContiguous := f.sequence.toNat }
  modify (retainFingerprint f.sequence.toNat (.of f))
  modify fun s => { s with
    readyBytes := s.readyBytes + f.payload.length
    ready := s.ready.insert f.sequence.toNat f }
  let terminal ← check (terminalOf f)
  modify (closeReceive f terminal)

def drainLoop [Sha256] : Nat → EStateM SequenceError DirectionState Unit
  | 0 => pure ()
  | n + 1 => do
    let s ← get
    match checkedAdd s.recvContiguous 1 with
    | none => pure ()
    | some expected =>
      match s.reorder[expected]? with
      | none => pure ()
      | some f => do
        set { s with
          reorder := s.reorder.erase expected
          reorderBytes := s.reorderBytes - f.payload.length }
        acceptContiguous f false
        drainLoop n

/-- Every round removes one frame from `reorder`, so its size bounds the rounds. -/
def drainReorder [Sha256] : EStateM SequenceError DirectionState Unit := do
  let s ← get
  drainLoop s.reorder.size

def bufferReorder (f : Frame) (s : DirectionState) : DirectionState :=
  { s with
    reorderBytes := s.reorderBytes + f.payload.length
    reorder := s.reorder.insert f.sequence.toNat f }

def receive [Sha256] (f : Frame) : EStateM SequenceError DirectionState ReceiveDisposition := do
  let s ← get
  let disposition ← check (s.preflightReceive f)
  if disposition = .duplicate then
    return disposition
  else if ¬ f.kind.sequenced then
    return .accepted
  else
    let expected ← orFail (checkedAdd s.recvContiguous 1) (.counterExhausted "recv_contiguous")
    if f.sequence.toNat ≠ expected then
      chargeReceived f
      modify (bufferReorder f)
      return disposition
    else
      acceptContiguous f true
      drainReorder
      return disposition

def markDelivered (through : Nat) : EStateM SequenceError DirectionState Unit := do
  let s ← get
  failIf (through > s.recvContiguous) (.deliveredBeyondReceived through s.recvContiguous)
  modify fun s =>
    if through ≤ s.deliveredContiguous then s
    else
      let (ready, readyBytes) := KeyedMap.dropThrough payloadLength through s.ready s.readyBytes
      { s with ready, readyBytes, deliveredContiguous := through }

/-! ## Replay -/

def retainedReplayLoop (through : Nat) :
    Nat → List (Nat × Frame) → List Frame → Except SequenceError (List Frame)
  | expected, [], _ => .error (.missingHistory expected through)
  | expected, (sequence, f) :: rest, replay =>
    if sequence ≠ expected then .error (.missingHistory expected (sequence - 1))
    else if sequence = through then .ok (replay ++ [f])
    else
      match checkedAdd expected 1 with
      | none => .error (.counterExhausted "replay_sequence")
      | some expected => retainedReplayLoop through expected rest (replay ++ [f])

def retainedReplay (s : DirectionState) (first through : Nat) :
    Except SequenceError (List Frame) :=
  if first = 0 ∨ through = 0 ∨ first > through then .error (.invalidReplayRange first through)
  else if through > s.lastEmitted then .error (.replayBeyondEmitted through s.lastEmitted)
  else
    match checkedAdd s.peerAcked 1 with
    | none => .ok []
    | some unacked =>
      let start := max first unacked
      if start > through then .ok []
      else
        retainedReplayLoop through start
          (s.replay.toList.filter fun entry => start ≤ entry.1 ∧ entry.1 ≤ through) []

def retainedReplayForCarrier (s : DirectionState) (first through : Nat)
    (epoch generation : UInt64) : Except SequenceError (List Frame) :=
  (s.retainedReplay first through).map fun frames => frames.map (Frame.onCarrier epoch generation)

end DirectionState

end AgentUplink
