/-
The part of the connector's actor that admits and reclaims streams.

`M2Actor` holds the tables the actor keeps about OPEN requests and streams. What the
rest of the connector changes from one event to the next is in `Surroundings`: the
carriers, the phase of the rotation, the queues to the writers. Sizes that depend on
the platform are a parameter.
-/
import AgentUplink.Connector.RetiredStreams
import AgentUplink.Protocol.OpenMessages
import AgentUplink.Rotation.State

namespace AgentUplink

open Machine Fallible Std

/-! ## Time -/

/-- What depends on the platform: the last points on its clocks, and the size of a
deferred OPEN. -/
class Platform where
  maxInstant : Nat
  maxSystemTime : Nat
  pendingOpenSize : Nat

def millis (n : Nat) : Nat := n * 1000000

def secs (n : Nat) : Nat := millis (n * 1000)

namespace DualDeadline

def new [Platform] (started : Clock) (duration : Nat) : Option DualDeadline :=
  if started.monotonic + duration > Platform.maxInstant ∨
      started.wall + duration > Platform.maxSystemTime then none
  else
    some { startedWall := started.wall, monotonic := started.monotonic + duration,
           wall := started.wall + duration }

/-- A wall clock set back before the start counts as expiry. -/
def expiredAt (d : DualDeadline) (now : Clock) : Bool :=
  now.monotonic ≥ d.monotonic || now.wall < d.startedWall || now.wall ≥ d.wall

def remaining (d : DualDeadline) (now : Clock) : Nat := d.monotonic - now.monotonic

end DualDeadline

/-! ## Errors -/

/-- The three constructors after `protocol` are protocol errors whose text is that of the
error they carry. -/
inductive ClientError
  | protocol (detail : String)
  | control (error : ControlError)
  | sequence (error : SequenceError)
  | forgetSequence (error : SequenceError)
  | transport (scope detail : String)
  | queueLimit
  | openRetentionFull
  deriving DecidableEq

/-! ## Configuration -/

structure ConnectorLimits where
  maxStreams : Nat
  maxQueueBytes : Nat
  maxQueueFrames : Nat
  grantTimeoutMs : Nat
  operationTimeoutMs : Nat

inductive ExportKind
  | echo
  | httpForward
  | fs
  deriving DecidableEq

/-- `fs` says whether the export names a filesystem root. -/
structure ExportConfig where
  kind : ExportKind
  fs : Bool

structure BridgeConfig where
  deadline : Nat
  responseHead : Option Nat

structure RuntimeConfig where
  limits : ConnectorLimits
  exports : ExtTreeMap String ExportConfig
  httpHandlers : ExtTreeMap String BridgeConfig

structure SessionInfo where
  sessionId : String
  epoch : Nat

def retainedStreamFactor : Nat := 2

def saturatingMul (a b : Nat) : Nat := min (a * b) (wordBound - 1)

def retainedStreamLimit (maxStreams : Nat) : Nat :=
  min (saturatingMul maxStreams retainedStreamFactor) openJournalMaxEntries

/-! ## Queues -/

structure OutboundQueue where
  queued : List (String × Option DualDeadline)
  capacity : Nat
  closed : Bool
  bytes : Nat
  maximum : Nat

namespace OutboundQueue

def reserve (used maximum bytes : Nat) : Option Nat :=
  if bytes > maximum then none
  else (checkedAdd used bytes).filter fun next => next ≤ maximum

def trySendWithDeadline (q : OutboundQueue) (message : String) (deadline : Option DualDeadline) :
    Except ClientError OutboundQueue :=
  match reserve q.bytes q.maximum message.utf8ByteSize with
  | none => .error .queueLimit
  | some bytes =>
    if q.closed then .error (.transport "writer" "writer stopped")
    else if q.queued.length ≥ q.capacity then .error .queueLimit
    else .ok { q with bytes, queued := q.queued ++ [(message, deadline)] }

/-- Both messages or neither. -/
def trySendPair (q : OutboundQueue) (first : String) (firstDeadline : Option DualDeadline)
    (second : String) (secondDeadline : Option DualDeadline) : Except ClientError OutboundQueue :=
  match (checkedAdd first.utf8ByteSize second.utf8ByteSize).bind
      (reserve q.bytes q.maximum) with
  | none => .error .queueLimit
  | some bytes =>
    if q.closed then .error (.transport "writer" "writer stopped")
    else if q.queued.length + 2 > q.capacity then .error .queueLimit
    else
      .ok { q with
            bytes
            queued := q.queued ++ [(first, firstDeadline), (second, secondDeadline)] }

end OutboundQueue

structure PendingCriticalControl where
  message : String
  deadline : DualDeadline
  bytes : Nat

structure CarrierKey where
  generation : Nat
  connectionId : String
  deriving DecidableEq

def CarrierKey.le (a b : CarrierKey) : Bool :=
  a.generation < b.generation || (a.generation = b.generation && a.connectionId ≤ b.connectionId)

/-- A data connection: the streams it owes controls for, and the queue to its writer. -/
structure Carrier where
  key : CarrierKey
  pendingControls : List UInt64
  queued : Nat
  capacity : Nat
  closed : Bool

/-! ## Streams and requests -/

inductive BufferedInput
  | data (bytes : List UInt8)
  | fin

structure M2Stream where
  operationId : String
  serviceId : String
  sequence : StreamState
  pending : List BufferedInput
  pendingBytes : Nat
  recordBuffer : List UInt8
  recordExpected : Option Nat
  outputFin : Bool
  outputReset : Bool

def M2Stream.terminal (s : M2Stream) : Bool := s.outputFin || s.outputReset

structure PendingAuthorization where
  openedMessageId : String
  challengeMessageId : String
  challengeId : String
  nonce : String
  permissionDigest : String
  grantRevision : Nat
  authDeadline : DualDeadline

/-- An OPEN whose admission was deferred. It owns its reservation in the pool of
deferred requests: the bytes in use there are those of the requests held. -/
structure PendingOpen where
  request : Open
  operationDeadline : DualDeadline
  authorization : Option PendingAuthorization
  reserved : Nat

def PendingOpen.IsFor (p : PendingOpen) (streamId : UInt64) (operationId : String) : Prop :=
  p.request.streamId = streamId ∧ p.request.operationId = operationId

instance (p : PendingOpen) (streamId : UInt64) (operationId : String) :
    Decidable (p.IsFor streamId operationId) :=
  inferInstanceAs (Decidable (_ ∧ _))

structure StreamForget where
  messageId : String
  replyTo : String
  sessionId : String
  epoch : Nat
  streamId : UInt64
  operationId : String
  direction : Direction
  finalState : ResumeDirectionState
  deriving DecidableEq

structure PendingStreamForget where
  forget : StreamForget
  carriers : List CarrierKey
  barriersQueued : List CarrierKey
  barriersCompleted : List CarrierKey
  proofPending : Bool
  proofDeadline : Option Nat
  deferReclamation : Bool

structure Cancel where
  messageId : String
  sessionId : String
  epoch : Nat
  streamId : UInt64
  operationId : String
  reason : Option String

/-! ## The actor -/

/-- What the rest of the connector changes between the events modelled here. -/
structure Surroundings where
  accepting : Bool
  phase : RotationPhase
  active : Carrier
  candidate : Option Carrier
  retiring : Option Carrier
  barrierQueued : Bool
  controlQueue : OutboundQueue
  pendingCriticalControls : List PendingCriticalControl
  pendingCriticalControlBytes : Nat
  /-- The streams with deferred output. -/
  pendingOutputs : List UInt64

structure M2Actor where
  config : RuntimeConfig
  session : SessionInfo
  around : Surroundings
  streams : ExtTreeMap UInt64 M2Stream
  openJournal : OpenJournal
  pendingOpen : Option PendingOpen
  pendingOpenQueue : List PendingOpen
  pendingForgets : ExtTreeMap UInt64 PendingStreamForget
  forgottenStreamThrough : UInt64
  retiredStreams : RetiredStreamIds
  /-- Not part of the source: every identifier inserted into `streams`, in order. -/
  dispatched : List UInt64

abbrev Connecting := EStateM ClientError M2Actor

namespace M2Actor

def new (config : RuntimeConfig) (session : SessionInfo) (around : Surroundings) : M2Actor where
  config
  session
  around
  streams := ∅
  openJournal := .new (max (retainedStreamLimit config.limits.maxStreams) 1)
    (min config.limits.maxQueueBytes maxJournalBytes)
  pendingOpen := none
  pendingOpenQueue := []
  pendingForgets := ∅
  forgottenStreamThrough := 0
  retiredStreams := .empty
  dispatched := []

def activeStreamCount (s : M2Actor) : Nat :=
  s.streams.toList.countP fun entry => !entry.2.terminal

/-- Run a journal call. Its error is an answer here, since the actor decides what to make
of it. -/
def onJournal {α : Type} (x : OpenJournaling α) : Connecting (Except OpenJournalError α) :=
  fun s =>
    match x.run s.openJournal with
    | .ok a journal => .ok (.ok a) { s with openJournal := journal }
    | .error e journal => .ok (.error e) { s with openJournal := journal }

def changeAround (g : Surroundings → Surroundings) : Connecting Unit :=
  modify fun s => { s with around := g s.around }

/-! ## Sending -/

def criticalControlTimeout : Nat := secs 5

def pendingCriticalControlFrames : Nat := 4

def criticalReadHeadroomBytes : Nat := 2 * maxControlMessageBytes

def pendingOpenRefusalSpillBytes : Nat := 2 * 1024

def pendingCriticalControlFrameLimit (s : M2Actor) : Nat :=
  saturatingAdd pendingCriticalControlFrames (retainedStreamLimit s.config.limits.maxStreams)

def pendingCriticalControlByteLimit (s : M2Actor) : Nat :=
  saturatingAdd (max maxControlMessageBytes criticalReadHeadroomBytes)
    (saturatingMul (retainedStreamLimit s.config.limits.maxStreams) pendingOpenRefusalSpillBytes)

/-- Keep a message for later, in order, while the spill has room. -/
def deferCriticalControl (message : String) (deadline : DualDeadline) : Connecting Unit := do
  let s ← get
  let bytes := message.utf8ByteSize
  failIf (s.around.pendingCriticalControls.length ≥ s.pendingCriticalControlFrameLimit ∨
    ((checkedAdd s.around.pendingCriticalControlBytes bytes).all
      fun total => total > s.pendingCriticalControlByteLimit)) .queueLimit
  changeAround fun around =>
    { around with
      pendingCriticalControlBytes := saturatingAdd around.pendingCriticalControlBytes bytes
      pendingCriticalControls := around.pendingCriticalControls ++ [{ message, deadline, bytes }] }

/-- Defer a message under its own deadline, or under the fallback one. -/
def spill [Platform] (message : String) (deadline : Option DualDeadline) (now : Clock) :
    Connecting Unit := do
  match deadline with
  | some deadline => deferCriticalControl message deadline
  | none =>
    let deadline ← orFail (DualDeadline.new now criticalControlTimeout)
      (.protocol "critical control deadline overflow")
    deferCriticalControl message deadline

/-- Send behind whatever is deferred already. -/
def sendCriticalMessage [Platform] (message : String) (deadline : Option DualDeadline)
    (now : Clock) : Connecting Unit := do
  let s ← get
  if s.pendingOpen.isSome ∨ s.around.pendingCriticalControls ≠ [] then
    spill message deadline now
  else
    match s.around.controlQueue.trySendWithDeadline message deadline with
    | .ok controlQueue => changeAround fun around => { around with controlQueue }
    | .error .queueLimit => spill message deadline now
    | .error e => throw e

def encodeControlMessage (message : OpenControl) : Except ClientError String :=
  message.encode.mapError .control

/-! ## Answers to an OPEN -/

def openResponseBytes (responses : List String) : Option Nat :=
  responses.foldlM (fun total response =>
    (checkedAdd total openJournalResponseOverhead).bind
      fun value => checkedAdd value response.utf8ByteSize) 0

/-- The answer cannot be retained: its entry becomes a tombstone and the session ends. -/
def openRetentionFailure {α : Type} (requestId : String) : Connecting α := do
  match ← onJournal (OpenJournal.compact requestId) with
  | .ok _ => throw .openRetentionFull
  | .error _ => throw (.protocol "OPEN journal retention transition failed")

def completeOpenJournal (requestId : String) (responses : List String)
    (deadlines : List (Option DualDeadline)) : Connecting Unit := do
  match openResponseBytes responses with
  | none => openRetentionFailure requestId
  | some responseBytes =>
    match ← onJournal (OpenJournal.complete requestId responses deadlines responseBytes) with
    | .ok _ => return ()
    | .error .capacity | .error .tombstoneCapacity => openRetentionFailure requestId
    | .error .conflictingMessage | .error .missingMessage | .error .conflictingResponse =>
      throw (.protocol "OPEN journal completion changed after response admission")

def ensureOpenResponse (requestId : String) (responses : List String) (changed : String) :
    Connecting Unit := do
  match openResponseBytes responses with
  | none => openRetentionFailure requestId
  | some responseBytes =>
    match ← onJournal (OpenJournal.ensureResponseCapacity requestId responseBytes) with
    | .ok _ => return ()
    | .error .capacity | .error .tombstoneCapacity => openRetentionFailure requestId
    | .error .conflictingMessage | .error .missingMessage | .error .conflictingResponse =>
      throw (.protocol changed)

def rejected (s : M2Actor) (request : Open) (refusal : OpenRefusal) (messageId : String) :
    OpenControl :=
  .rejected
    { messageId, replyTo := request.messageId, sessionId := s.session.sessionId,
      epoch := s.session.epoch, streamId := request.streamId, operationId := request.operationId,
      code := refusal.code, reason := refusal.reason }

def sendRejected [Platform] (request : Open) (refusal : OpenRefusal) (messageId : String)
    (now : Clock) : Connecting Unit := do
  let s ← get
  let response ← check (encodeControlMessage (s.rejected request refusal messageId))
  sendCriticalMessage response none now

/-- Refuse, and record the refusal as the answer of the request's entry. -/
def sendOpenRejectedJournaled [Platform] (request : Open) (refusal : OpenRefusal)
    (messageId : String) (now : Clock) : Connecting Unit := do
  let s ← get
  let response ← check (encodeControlMessage (s.rejected request refusal messageId))
  ensureOpenResponse request.messageId [response] "OPEN journal rejected its response transition"
  sendCriticalMessage response none now
  completeOpenJournal request.messageId [response] [none]

def replayOpenResponses [Platform] (responses : List String)
    (deadlines : List (Option DualDeadline)) (now : Clock) : Connecting Unit :=
  match responses, deadlines with
  | [response], [deadline] => sendCriticalMessage response deadline now
  | _, _ => throw (.protocol "OPEN journal retained an invalid completed response")

end M2Actor

end AgentUplink
