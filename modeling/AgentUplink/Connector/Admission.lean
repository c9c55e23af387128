/-
Admission of OPEN requests.

`handleOpen` takes a request from the owner: it is refused, answered from the journal,
deferred, or admitted. `flushPendingOpen` tries a deferred request again. The clock
readings and the fresh identifiers of one attempt are its `Readings`.
-/
import AgentUplink.Connector.Actor

namespace AgentUplink

open Machine Fallible Std

/-- What one attempt at a request takes from outside: a clock reading for each look at the
clocks, in the order of the source, and fresh identifiers. -/
structure Readings where
  received : Clock
  checked : Clock
  granted : Clock
  authChecked : Clock
  operationChecked : Clock
  bounded : Clock
  spilled : Clock
  rejectedMessageId : String
  openedMessageId : String
  challengeMessageId : String
  challengeId : String
  nonce : String

def httpForwardOperation : String := "http_forward"

def fsStreamOperation : String := "fs_9p"

def longLivedStreamLifetime : Nat := secs (24 * 60 * 60)

def operationLifetime (operation : String) (operationTimeoutMs : Nat) : Nat :=
  if operation = "echo_stream" ∨ operation = fsStreamOperation then longLivedStreamLifetime
  else millis operationTimeoutMs

/-! ## The bounds of an HTTP exchange -/

def maxDeadline : Nat := secs (24 * 60 * 60)

def discardGrace : Nat := secs 5

def httpOperationBackstopMargin : Nat := secs 5

namespace BridgeConfig

def withResponseHeadDeadline (c : BridgeConfig) (bound : Nat) : Option BridgeConfig :=
  if bound = 0 ∨ bound > maxDeadline then none else some { c with responseHead := some bound }

def discardBound (c : BridgeConfig) : Nat :=
  c.deadline + if c.deadline < discardGrace then c.deadline else discardGrace

end BridgeConfig

/-- There are none once the deadline for the response head has passed. -/
def httpExchangeBounds [Platform] (config : BridgeConfig) (headDeadline : DualDeadline)
    (now : Clock) : Option (BridgeConfig × DualDeadline) :=
  if headDeadline.expiredAt now then none
  else do
    let config ← config.withResponseHeadDeadline (headDeadline.remaining now)
    let backstop ← DualDeadline.new now (config.discardBound + httpOperationBackstopMargin)
    return (config, backstop)

/-! ## The pool of deferred requests -/

def pendingOpenGeneratedIdBytes : Nat := 36

def pendingOpenMetadataNodeBytes : Nat := 192

def pendingOpenStringHeadroomBytes : Nat := 64

def pendingOpenContainerHeadroomBytes : Nat := 4 * 1024

def pendingOpenMaxEstimate : Nat :=
  2 * maxControlMessageBytes + 2 * maxMetadataValueBytes + 8 * pendingOpenGeneratedIdBytes +
    64 * pendingOpenMetadataNodeBytes + 138 * pendingOpenStringHeadroomBytes +
    pendingOpenContainerHeadroomBytes

def pendingOpenBudgetMax (maxStreams maxQueueBytes : Nat) : Nat :=
  min maxQueueBytes (saturatingMul maxStreams pendingOpenMaxEstimate)

def checkedMul (a b : Nat) : Option Nat := if a * b < wordBound then some (a * b) else none

def checkedSum (values : List Nat) : Option Nat := values.foldlM checkedAdd 0

/-- An estimate of the memory a decoded request holds while it is deferred. -/
def pendingOpenRetainedBytes [Platform] (request : Open) : Option Nat := do
  let strings ← checkedSum [request.messageId.utf8ByteSize, request.sessionId.utf8ByteSize,
    request.operationId.utf8ByteSize, request.serviceId.utf8ByteSize,
    request.operation.utf8ByteSize]
  let metadata ← checkedSum (request.metadata.toList.flatMap fun entry =>
    [entry.1.utf8ByteSize, entry.2.utf8ByteSize])
  let openStringBytes ← checkedAdd strings metadata
  let metadataNodes ← checkedMul request.metadata.size pendingOpenMetadataNodeBytes
  let permissionDigestBytes := (request.metadata["permission_digest"]?.map
    String.utf8ByteSize).getD 0
  let generatedIdBytes ← checkedMul 4 pendingOpenGeneratedIdBytes
  let authorizationPayload ← checkedAdd permissionDigestBytes generatedIdBytes
  let metadataSlots ← checkedMul request.metadata.size 2
  let slots ← checkedAdd 5 metadataSlots
  let retainedStringSlots ← checkedAdd slots 5
  let stringHeadroom ← checkedMul retainedStringSlots pendingOpenStringHeadroomBytes
  let payload ← checkedAdd openStringBytes authorizationPayload
  let payloadHeadroom ← checkedMul payload 2
  checkedSum [Platform.pendingOpenSize, metadataNodes, pendingOpenContainerHeadroomBytes,
    stringHeadroom, payloadHeadroom]

/-! ## Grants -/

/-- An unsigned 64-bit number, with at most one sign in front. -/
def parseWord (text : String) : Option Nat :=
  let digits :=
    match text.toList with
    | '+' :: rest => rest
    | all => all
  if digits.isEmpty || !digits.all Char.isDigit then none
  else
    let value := digits.foldl (fun n c => 10 * n + (c.toNat - '0'.toNat)) 0
    if value < wordBound then some value else none

/-- The authorization a request is first given, with its deadline. -/
def prepareAuthorization [Platform] (limits : ConnectorLimits) (request : Open) (r : Readings) :
    Except ClientError PendingAuthorization :=
  match DualDeadline.new r.granted (millis limits.grantTimeoutMs) with
  | none => .error (.protocol "authorization deadline overflow")
  | some authDeadline =>
    .ok
      { openedMessageId := r.openedMessageId
        challengeMessageId := r.challengeMessageId
        challengeId := r.challengeId
        nonce := r.nonce
        permissionDigest := request.metadata["permission_digest"]?.getD "m2-echo"
        grantRevision := (request.metadata["grant_revision"]?.bind parseWord).getD 0
        authDeadline }

/-! ## The limits of a new stream -/

def defaultMaxReplayFrames : Nat := 128

def defaultMaxReplayBytes : Nat := 1024 * 1024

def defaultMaxReorderFrames : Nat := 128

def defaultMaxReorderBytes : Nat := 1024 * 1024

/-- The session's budget is shared out over the streams; a raw stream can hold a whole
window. -/
def streamLimits (limits : ConnectorLimits) (raw : Bool) (window : Nat) : SequenceLimits :=
  let slots := max limits.maxStreams 1
  let replayBytes := max (limits.maxQueueBytes / slots) 1
  let replayFrames := max (limits.maxQueueFrames / slots) 1
  let replayBytes := if raw then max replayBytes window else replayBytes
  let replayFrames :=
    if raw then
      max replayFrames (saturatingAdd ((window + maxPayloadLen - 1) / maxPayloadLen) 2)
    else replayFrames
  { maxReplayFrames := min defaultMaxReplayFrames replayFrames
    maxReplayBytes := min defaultMaxReplayBytes replayBytes
    maxReorderFrames := min defaultMaxReorderFrames replayFrames
    maxReorderBytes := min defaultMaxReorderBytes replayBytes }

def maxInitialCredit : Nat := 8 * 1024 * 1024

namespace M2Actor

section

variable (s : M2Actor)

def validateOpenContext (request : Open) : Except ClientError Unit :=
  if request.sessionId ≠ s.session.sessionId ∨ request.epoch ≠ s.session.epoch then
    .error (.protocol "OPEN context does not match the authenticated session")
  else .ok ()

/-- The session has reclaimed the stream and holds nothing for it. -/
def openIsPastRetryHorizon (request : Open) : Bool :=
  request.streamId ≤ s.forgottenStreamThrough && !s.streams.contains request.streamId &&
    (s.openJournal.retainedOperationMatches request.streamId request.operationId).isNone

def deferred : List PendingOpen := s.pendingOpen.toList ++ s.pendingOpenQueue

/-- What serves the operation: an HTTP handler, or a filesystem root. -/
structure Serves where
  http : Option BridgeConfig
  fs : Bool

/-- The checks made before a request is given an authorization. -/
def checkAdmission (pending : PendingOpen) (now : Clock) :
    Except OpenRefusal Serves :=
  let request := pending.request
  if !s.around.accepting then .error .connectorDraining
  else if s.activeStreamCount ≥ s.config.limits.maxStreams ∨
      s.streams.size ≥ retainedStreamLimit s.config.limits.maxStreams then
    .error .streamLimit
  else
    match s.config.exports[request.serviceId]? with
    | none => .error .exportNotAllowlisted
    | some exported =>
      let http :=
        if exported.kind = .httpForward ∧ request.operation = httpForwardOperation then
          s.config.httpHandlers[request.serviceId]?
        else none
      let fs := exported.kind = .fs && request.operation = fsStreamOperation && exported.fs
      let echo := exported.kind = .echo &&
        (request.operation = "echo" || request.operation = "echo_stream")
      if !echo && http.isNone && !fs then .error .operationNotEnabled
      else if s.streams.contains request.streamId ∨
          request.streamId ≤ s.forgottenStreamThrough ∨
          s.openJournal.streamMessageIsReservedByOther request.streamId request.messageId then
        .error .streamActiveOrForgotten
      else if pending.operationDeadline.expiredAt now then .error .authorizationWindowExpired
      else .ok { http, fs }

def openedMessage (request : Open) (a : PendingAuthorization) : OpenControl :=
  .opened
    { messageId := a.openedMessageId, replyTo := request.messageId,
      sessionId := s.session.sessionId, epoch := s.session.epoch, streamId := request.streamId,
      operationId := request.operationId, sendWindow := request.initialReceiveWindow,
      receiveWindow := request.initialSendWindow }

def challengeMessage (request : Open) (a : PendingAuthorization) : OpenControl :=
  .authorizationChallenge
    { messageId := a.challengeMessageId, sessionId := s.session.sessionId,
      epoch := s.session.epoch, streamId := request.streamId, challengeId := a.challengeId,
      nonce := a.nonce, serviceId := request.serviceId, permissionDigest := a.permissionDigest,
      grantRevision := a.grantRevision }

def newStream (request : Open) (serves : Serves) : Except ClientError M2Stream := do
  let initialCredit := min request.initialSendWindow maxInitialCredit
  let receiveCredit := min request.initialReceiveWindow maxInitialCredit
  let limits := streamLimits s.config.limits (serves.http.isSome || serves.fs)
    (max initialCredit receiveCredit)
  let sequence ← (StreamState.withCreditsAndLimits request.streamId initialCredit receiveCredit
    limits).mapError .sequence
  return { operationId := request.operationId, serviceId := request.serviceId, sequence,
           pending := [], pendingBytes := 0, recordBuffer := [], recordExpected := none,
           outputFin := false, outputReset := false }

end

/-- Send OPENED and the challenge together, record the answer, and open the stream. -/
def publish (request : Open) (a : PendingAuthorization) (serves : Serves) :
    Connecting Unit := do
  let s ← get
  let opened ← check (encodeControlMessage (s.openedMessage request a))
  let challenge ← check (encodeControlMessage (s.challengeMessage request a))
  ensureOpenResponse request.messageId [opened]
    "OPEN journal admission changed before response reservation"
  let stream ← check (s.newStream request serves)
  let controlQueue ← check (s.around.controlQueue.trySendPair opened none challenge
    (some a.authDeadline))
  changeAround fun around => { around with controlQueue }
  completeOpenJournal request.messageId [opened] [none]
  modify fun s =>
    { s with
      streams := s.streams.insert request.streamId stream
      dispatched := s.dispatched ++ [request.streamId] }

variable [Platform]

def reservePendingOpen (s : M2Actor) (request : Open) : Option Nat :=
  (pendingOpenRetainedBytes request).bind fun bytes =>
    (OutboundQueue.reserve (s.deferred.map PendingOpen.reserved).sum
      (pendingOpenBudgetMax s.config.limits.maxStreams s.config.limits.maxQueueBytes) bytes).map
      fun _ => bytes

def preparePendingOpen (s : M2Actor) (request : Open) (reserved : Nat) (r : Readings) :
    Except ClientError PendingOpen := do
  s.validateOpenContext request
  match DualDeadline.new r.received
      (operationLifetime request.operation s.config.limits.operationTimeoutMs) with
  | none => .error (.protocol "operation deadline overflow")
  | some operationDeadline => .ok { request, operationDeadline, authorization := none, reserved }

/-- The checks made once a request has its authorization. -/
def admitAuthorized (request : Open) (operationDeadline : DualDeadline)
    (a : PendingAuthorization) (serves : Serves) (r : Readings) : Connecting Unit :=
  if a.authDeadline.expiredAt r.authChecked ∨ operationDeadline.expiredAt r.operationChecked ∨
      serves.http.any fun config =>
        (httpExchangeBounds config operationDeadline r.bounded).isNone then
    sendOpenRejectedJournaled request .authorizationWindowExpired r.rejectedMessageId r.spilled
  else publish request a serves

def authorizationOf (s : M2Actor) (pending : PendingOpen) (r : Readings) :
    Except ClientError PendingAuthorization :=
  match pending.authorization with
  | some a => .ok a
  | none => prepareAuthorization s.config.limits pending.request r

/-- Admit a request. An error comes with the request as it is then: with the authorization
it was given, which a later attempt keeps. -/
def tryAdmitOpen (pending : PendingOpen) (r : Readings) :
    EStateM (ClientError × PendingOpen) M2Actor Unit := do
  let s ← get
  match s.checkAdmission pending r.checked with
  | .error refusal =>
    (sendOpenRejectedJournaled pending.request refusal r.rejectedMessageId r.spilled).adaptExcept
      fun e => (e, pending)
  | .ok serves =>
    let a ← (check (s.authorizationOf pending r) : Connecting PendingAuthorization).adaptExcept
      fun e => (e, pending)
    (admitAuthorized pending.request pending.operationDeadline a serves r).adaptExcept
      fun e => (e, { pending with authorization := some a })

/-- Try to admit a request, and keep it as the head when the queues are full. -/
def admitOrDefer (pending : PendingOpen) (r : Readings) : Connecting Unit := fun s =>
  match (tryAdmitOpen pending r).run s with
  | .ok _ t => .ok () t
  | .error (.queueLimit, pending) t => .ok () { t with pendingOpen := some pending }
  | .error (e, _) t => .error e t

def admitNew (request : Open) (r : Readings) : Connecting Unit := do
  let s ← get
  match s.reservePendingOpen request with
  | none =>
    sendOpenRejectedJournaled request .openRetentionFull r.rejectedMessageId r.spilled
  | some reserved =>
    let pending ← check (s.preparePendingOpen request reserved r)
    let pendingCount := s.deferred.length
    if pendingCount > 0 ∨ s.around.pendingCriticalControls ≠ [] then
      if saturatingAdd s.activeStreamCount pendingCount ≥ s.config.limits.maxStreams ∨
          saturatingAdd s.streams.size pendingCount ≥
            retainedStreamLimit s.config.limits.maxStreams then
        sendOpenRejectedJournaled request .openAdmissionFull r.rejectedMessageId r.spilled
      else modify fun s => { s with pendingOpenQueue := s.pendingOpenQueue ++ [pending] }
    else admitOrDefer pending r

def handleOpen (request : Open) (r : Readings) : Connecting Unit := do
  let s ← get
  check (s.validateOpenContext request)
  if s.openIsPastRetryHorizon request then
    sendRejected request .streamForgotten r.rejectedMessageId r.spilled
  else do
    let canonical ← check (encodeControlMessage (.request request))
    match ← onJournal (OpenJournal.observe request.messageId canonical request.streamId
        request.operationId) with
    | .error .conflictingMessage =>
      throw (.protocol "OPEN message ID reused with different contents")
    | .error .capacity | .error .tombstoneCapacity => do
      modify fun s => { s with retiredStreams := s.retiredStreams.insert request.streamId }
      sendRejected request .openIdempotencyFull r.rejectedMessageId r.spilled
    | .error .missingMessage | .error .conflictingResponse =>
      throw (.protocol "OPEN journal observation failed")
    | .ok .pendingDuplicate => return ()
    | .ok (.completedDuplicate responses deadlines) =>
      replayOpenResponses responses deadlines r.spilled
    | .ok .tombstone => sendRejected request .openForgotten r.rejectedMessageId r.spilled
    | .ok .new => admitNew request r

def flushPendingOpen (r : Readings) : Connecting Unit := do
  modify fun s =>
    if s.pendingOpen.isNone ∧ s.around.pendingCriticalControls = [] then
      { s with
        pendingOpen := s.pendingOpenQueue.head?, pendingOpenQueue := s.pendingOpenQueue.tail }
    else s
  let s ← get
  match s.pendingOpen with
  | none => return ()
  | some pending =>
    modify fun s => { s with pendingOpen := none }
    admitOrDefer pending r

end M2Actor

end AgentUplink
