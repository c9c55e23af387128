import AgentUplink.Protocol.ResumeState

/-!
# RESUME and RESUMED

The two messages that carry a roster of retained state, their checks, and the size
of their encoding. `encodeControl` refuses a message whose text is longer than a
control message may be. When that happens is one sum: so much for each entry and
each replay range, the digits of the counters and the bytes of the strings.
-/

namespace AgentUplink

open Fallible List Decimal

def maxCredentialBytes : Nat := 4096

def maxReplayRanges : Nat := 128

def maxRotationRecoveryTimeoutMs : Nat := 30000

inductive ResumeStage where
  | snapshot
  | ready
  deriving DecidableEq

/-- A bounded range that was replayed after resume. -/
structure RotationControl.ReplayRange where
  streamId : UInt64
  direction : Direction
  first : Nat
  through : Nat

structure Resume where
  messageId : String
  replyTo : String
  attempt : RotationAttemptIdentity
  snapshotId : String
  stage : ResumeStage
  direction : Direction
  reconnectCredential : Option String
  entries : List ResumeDirectionState
  remainingMs : Nat

structure Resumed where
  messageId : String
  replyTo : String
  attempt : RotationAttemptIdentity
  snapshotId : String
  stage : ResumeStage
  direction : Direction
  entries : List ResumeDirectionState
  replay : List RotationControl.ReplayRange

inductive ControlMessage where
  | resume (message : Resume)
  | resumed (message : Resumed)

/-! ## Checks -/

def RotationAttemptIdentity.validate (a : RotationAttemptIdentity) : Except ControlError Unit := do
  validateId "session_id" a.sessionId
  validateId "owner_id" a.ownerId
  validateId "rotation_id" a.rotationId
  validateId "old_connection_id" a.oldConnectionId
  validateId "new_connection_id" a.newConnectionId
  validateNonzero "epoch" a.epoch
  validateNonzero "old_generation" a.oldGeneration
  validateNonzero "new_generation" a.newGeneration
  if a.oldConnectionId = a.newConnectionId then
    .error (.sameConnection "old_connection_id/new_connection_id")
  else if a.newGeneration ≤ a.oldGeneration then
    .error (.generationNotAdvanced a.oldGeneration a.newGeneration)
  else .ok ()

def RotationControl.ReplayRange.validate (r : RotationControl.ReplayRange) :
    Except ControlError Unit := do
  validateNonzero "stream_id" r.streamId.toNat
  validateNonzero "replay.from" r.first
  validateNonzero "replay.through" r.through
  if r.first > r.through then .error (.invalidReplayRange r.first r.through) else .ok ()

def validateCredential (field value : String) : Except ControlError Unit :=
  if value.isEmpty || value.utf8ByteSize > maxCredentialBytes || value.toList.any isControl then
    .error (.invalidCredential field value.utf8ByteSize maxCredentialBytes)
  else .ok ()

def validateBoundedDuration (field : String) (value maximum : Nat) : Except ControlError Unit := do
  validateNonzero field value
  if value > maximum then
    .error (.invalidRotationPolicy field "duration exceeds the negotiated hard bound")
  else .ok ()

def validateRecoveryRemainingMs (value : Nat) : Except ControlError Unit :=
  validateBoundedDuration "remaining_ms" value maxRotationRecoveryTimeoutMs

def validateHeader (messageId replyTo : String) (attempt : RotationAttemptIdentity) :
    Except ControlError Unit := do
  validateId "message_id" messageId
  (if replyTo.isEmpty then .ok () else validateId "reply_to" replyTo)
  attempt.validate

def validateReplyHeader (messageId replyTo : String) (attempt : RotationAttemptIdentity) :
    Except ControlError Unit := do
  validateId "message_id" messageId
  validateId "reply_to" replyTo
  attempt.validate

def validateOrderedEntries (previous : UInt64) : List ResumeDirectionState →
    Except ControlError Unit
  | [] => .ok ()
  | entry :: entries => do
    entry.validate
    if entry.streamId ≤ previous then .error (.unorderedEntries "resume.entries")
    else validateOrderedEntries entry.streamId entries

def validateResumeEntries (entries : List ResumeDirectionState) : Except ControlError Unit :=
  if entries.length > maxRotationRosterEntries then
    .error (.tooManyEntries "resume.entries" maxRotationRosterEntries)
  else validateOrderedEntries 0 entries

def validateResume (m : Resume) : Except ControlError Unit := do
  validateHeader m.messageId m.replyTo m.attempt
  validateId "snapshot_id" m.snapshotId
  (match m.reconnectCredential with
  | some credential => validateCredential "reconnect_credential" credential
  | none => .ok ())
  validateRecoveryRemainingMs m.remainingMs
  validateResumeEntries m.entries

def validateResumed (m : Resumed) : Except ControlError Unit := do
  validateReplyHeader m.messageId m.replyTo m.attempt
  validateId "snapshot_id" m.snapshotId
  validateResumeEntries m.entries
  if m.replay.length > maxReplayRanges then
    .error (.tooManyEntries "resumed.replay" maxReplayRanges)
  else do
    m.replay.forM RotationControl.ReplayRange.validate
    if m.stage = .ready ∧ m.replay ≠ [] then .error (.invalidRecoveryStage "replay")
    else .ok ()

namespace ControlMessage

def messageId : ControlMessage → String
  | resume m => m.messageId
  | resumed m => m.messageId

def validate (message : ControlMessage) : Except ControlError Unit := do
  validateId "message_id" message.messageId
  match message with
  | resume m => validateResume m
  | resumed m => validateResumed m

/-- Neither message has a bound of its own. -/
def encodedLimit : ControlMessage → Nat
  | resume _ | resumed _ => maxControlMessageBytes

end ControlMessage

/-! ## The JSON text -/

def ResumeStage.name : ResumeStage → String
  | .snapshot => "SNAPSHOT"
  | .ready => "READY"

def RotationAttemptIdentity.toJson (a : RotationAttemptIdentity) : Json :=
  .object
    [("session_id", .string a.sessionId),
      ("epoch", .counter a.epoch),
      ("owner_id", .string a.ownerId),
      ("rotation_id", .string a.rotationId),
      ("old_generation", .counter a.oldGeneration),
      ("new_generation", .counter a.newGeneration),
      ("old_connection_id", .string a.oldConnectionId),
      ("new_connection_id", .string a.newConnectionId)]

def RotationControl.ReplayRange.toJson (r : RotationControl.ReplayRange) : Json :=
  .object
    [("stream_id", .counter r.streamId.toNat),
      ("direction", .string (FenceSnapshot.directionName r.direction)),
      ("from", .counter r.first),
      ("through", .counter r.through)]

/-- A member that is left out. -/
def omitIf {α : Type} (c : Bool) (member : α) : List α := if c then [] else [member]

def Resume.members (m : Resume) : List (String × Json) :=
  [("type", .string "RESUME"), ("message_id", .string m.messageId)] ++
    omitIf m.replyTo.isEmpty ("reply_to", .string m.replyTo) ++
    [("attempt", m.attempt.toJson), ("snapshot_id", .string m.snapshotId),
      ("stage", .string m.stage.name),
      ("direction", .string (FenceSnapshot.directionName m.direction))] ++
    (m.reconnectCredential.map fun c => ("reconnect_credential", Json.string c)).toList ++
    [("entries", .array (m.entries.map ResumeDirectionState.serialize)),
      ("remaining_ms", .counter m.remainingMs)]

def Resumed.members (m : Resumed) : List (String × Json) :=
  [("type", .string "RESUMED"), ("message_id", .string m.messageId),
      ("reply_to", .string m.replyTo), ("attempt", m.attempt.toJson),
      ("snapshot_id", .string m.snapshotId), ("stage", .string m.stage.name),
      ("direction", .string (FenceSnapshot.directionName m.direction)),
      ("entries", .array (m.entries.map ResumeDirectionState.serialize))] ++
    omitIf m.replay.isEmpty ("replay", .array (m.replay.map RotationControl.ReplayRange.toJson))

namespace ControlMessage

def toJson : ControlMessage → Json
  | resume m => .object m.members
  | resumed m => .object m.members

end ControlMessage

def encodeControl (message : ControlMessage) : Except ControlError ByteArray := do
  message.validate
  let encoded := message.toJson.render.toUTF8
  if encoded.size > message.encodedLimit then
    .error (.messageTooLarge encoded.size message.encodedLimit)
  else .ok encoded

/-! ## The size of a message -/

open Json

def terminalWidth : Option Terminal → Nat
  | none => 4
  | some .fin => 3
  | some (.reset reason) => width reason.toNat + 4

def digits (counters : List Nat) : Nat := (counters.map Decimal.width).sum

def ResumeDirectionState.counters (s : ResumeDirectionState) : List Nat :=
  [s.streamId.toNat, s.lastEmitted, s.peerAcked, s.recvContiguous, s.deliveredContiguous,
    s.sentBytes, s.receivedBytes, s.sendCredit, s.receiveCredit]

def ResumeDirectionState.terminals (s : ResumeDirectionState) : List (Option Terminal) :=
  [s.sendTerminal, s.receiveTerminal]

def RotationControl.ReplayRange.counters (r : RotationControl.ReplayRange) : List Nat :=
  [r.streamId.toNat, r.first, r.through]

namespace RotationAttemptIdentity

def counters (a : RotationAttemptIdentity) : List Nat :=
  [a.epoch, a.oldGeneration, a.newGeneration]

def texts (a : RotationAttemptIdentity) : List String :=
  [a.sessionId, a.ownerId, a.rotationId, a.oldConnectionId, a.newConnectionId]

end RotationAttemptIdentity

namespace ControlMessage

def entries : ControlMessage → List ResumeDirectionState
  | resume m => m.entries
  | resumed m => m.entries

def replay : ControlMessage → List RotationControl.ReplayRange
  | resume _ => []
  | resumed m => m.replay

def counters : ControlMessage → List Nat
  | resume m => [m.remainingMs] ++ m.attempt.counters
  | resumed m => m.attempt.counters

def texts : ControlMessage → List String
  | resume m =>
    [m.messageId, m.replyTo, m.snapshotId, m.stage.name] ++ m.attempt.texts ++
      m.reconnectCredential.toList
  | resumed m => [m.messageId, m.replyTo, m.snapshotId, m.stage.name] ++ m.attempt.texts

/-- Keys, names of constant length and punctuation. -/
def fixedBytes : ControlMessage → Nat
  | resume m =>
    281 + (if m.replyTo.isEmpty then 0 else 14) + (if m.reconnectCredential.isSome then 26 else 0)
  | resumed _ => 278

/-- An entry takes 31 bytes with its comma and a range 73, besides their counters and
terminals. -/
def bytes (message : ControlMessage) : Nat :=
  message.fixedBytes + (message.texts.map textBytes).sum +
    digits (message.counters ++ message.entries.flatMap (·.counters) ++
      message.replay.flatMap (·.counters)) +
    ((message.entries.flatMap (·.terminals)).map terminalWidth).sum +
    (31 * message.entries.length - 1) + 73 * message.replay.length +
    11 * min 1 message.replay.length

end ControlMessage

theorem width_terminal (t : Option Terminal) : (compactTerminal t).width = terminalWidth t := by
  cases t with
  | none => rfl
  | some t =>
    cases t with
    | fin => exact width_string rfl
    | reset reason =>
      have hplain : (terminalText (.reset reason)).toList.any isControl = false := by
        rw [terminalText, String.toList_append, any_append, plain_toString]
        rfl
      have hcount : (terminalText (.reset reason)).toList.countP escaped = 0 := by
        rw [terminalText, String.toList_append, countP_append, countP_escaped_toString]
        rfl
      have hsize : (terminalText (.reset reason)).utf8ByteSize = 2 + width reason.toNat := by
        rw [terminalText, String.utf8ByteSize_append, utf8ByteSize_toString]
        rfl
      show (string (terminalText (.reset reason))).width = width reason.toNat + 4
      rw [width_string hplain, textBytes, hcount, hsize]
      omega

theorem digits_append (ns ms : List Nat) : digits (ns ++ ms) = digits ns + digits ms := by
  unfold digits
  rw [map_append, sum_append]

theorem sum_map_flatMap {α β : Type} (f : α → List β) (w : β → Nat) (l : List α) :
    ((l.flatMap f).map w).sum = (l.map fun a => ((f a).map w).sum).sum := by
  rw [map_flatMap, flatMap_def, sum_flatten, map_map]
  rfl

theorem width_serialize (s : ResumeDirectionState) :
    s.serialize.width = digits s.counters + (s.terminals.map terminalWidth).sum + 30 := by
  unfold ResumeDirectionState.serialize ResumeDirectionState.items digits
  rw [width_array]
  simp only [map_cons, map_nil, sum_cons, sum_nil, width_counter, width_terminal,
    ResumeDirectionState.counters, ResumeDirectionState.terminals]
  omega

theorem width_directionName (d : Direction) :
    (string (FenceSnapshot.directionName d)).width = 20 := by
  cases d <;> exact width_string rfl

theorem width_stageName (stage : ResumeStage) :
    (string stage.name).width = textBytes stage.name + 2 := by
  cases stage <;> exact width_string rfl

theorem width_range (r : RotationControl.ReplayRange) :
    r.toJson.width = digits r.counters + 72 := by
  have hkeys : keysWidth ["stream_id", "direction", "from", "through"] = 45 := rfl
  unfold RotationControl.ReplayRange.toJson digits
  rw [width_object, membersWidth]
  simp only [map_cons, map_nil, sum_cons, sum_nil, width_counter, width_directionName, hkeys,
    RotationControl.ReplayRange.counters]
  omega

/-! ## Validated strings -/

def Plain (s : String) : Prop := s.toList.any isControl = false

variable {field value : String} {message : ControlMessage}

theorem plain_of_check {bad : Bool} {e : ControlError}
    (h : (if bad || value.toList.any isControl then Except.error e else .ok ()) = .ok ()) :
    Plain value := by
  split at h
  · cases h
  · next hvalid => exact (Bool.or_eq_false_iff.1 (Bool.not_eq_true _ ▸ hvalid)).2

theorem validateId_plain (h : validateId field value = .ok ()) : Plain value := plain_of_check h

theorem width_attempt {a : RotationAttemptIdentity} (h : a.validate = .ok ()) :
    a.toJson.width = digits a.counters + (a.texts.map textBytes).sum + 145 := by
  have hkeys : keysWidth ["session_id", "epoch", "owner_id", "rotation_id", "old_generation",
      "new_generation", "old_connection_id", "new_connection_id"] = 128 := rfl
  unfold RotationAttemptIdentity.validate at h
  simp only [except_bind_eq_ok] at h
  obtain ⟨_, hsession, _, howner, _, hrotation, _, hold, _, hnew, _⟩ := h
  unfold RotationAttemptIdentity.toJson digits
  rw [width_object, membersWidth]
  simp only [map_cons, map_nil, sum_cons, sum_nil, width_counter, hkeys,
    width_string (validateId_plain hsession), width_string (validateId_plain howner),
    width_string (validateId_plain hrotation), width_string (validateId_plain hold),
    width_string (validateId_plain hnew), RotationAttemptIdentity.counters,
    RotationAttemptIdentity.texts]
  omega

theorem width_entries (entries : List ResumeDirectionState) :
    (array (entries.map (·.serialize))).width = digits (entries.flatMap (·.counters)) +
      ((entries.flatMap (·.terminals)).map terminalWidth).sum + (31 * entries.length - 1) + 2 := by
  unfold digits
  rw [width_array_map width_serialize, sum_map_add, sum_map_flatMap, sum_map_flatMap]
  rfl

theorem width_ranges (ranges : List RotationControl.ReplayRange) :
    (array (ranges.map (·.toJson))).width =
      digits (ranges.flatMap (·.counters)) + (73 * ranges.length - 1) + 2 := by
  unfold digits
  rw [width_array_map width_range, sum_map_flatMap]
  rfl

theorem width_replay (ranges : List RotationControl.ReplayRange) :
    membersWidth (omitIf ranges.isEmpty ("replay", array (ranges.map (·.toJson)))) =
      digits (ranges.flatMap (·.counters)) + 73 * ranges.length + 11 * min 1 ranges.length := by
  have hkey : keysWidth ["replay"] = 10 := rfl
  cases ranges with
  | nil => rfl
  | cons r ranges =>
    show keysWidth ["replay"] + ((array _).width + 0) = _
    rw [hkey, width_ranges, length_cons]
    omega

/-- A reply is checked only where there is one. -/
theorem width_replyTo {replyTo : String}
    (h : (if replyTo.isEmpty then .ok () else validateId "reply_to" replyTo) = .ok ()) :
    membersWidth (omitIf replyTo.isEmpty ("reply_to", string replyTo)) =
      textBytes replyTo + if replyTo.isEmpty then 0 else 14 := by
  have hkey : keysWidth ["reply_to"] = 12 := rfl
  cases hempty : replyTo.isEmpty with
  | true =>
    rw [String.isEmpty_iff.1 hempty]
    rfl
  | false =>
    rw [hempty] at h
    show keysWidth ["reply_to"] + ((string replyTo).width + 0) = _ + 14
    rw [hkey, width_string (validateId_plain h)]
    omega

theorem width_credential {credential : Option String}
    (h : (match credential with
      | some c => validateCredential "reconnect_credential" c
      | none => .ok ()) = .ok ()) :
    membersWidth (credential.map fun c => ("reconnect_credential", string c)).toList =
      (credential.toList.map textBytes).sum + if credential.isSome then 26 else 0 := by
  have hkey : keysWidth ["reconnect_credential"] = 24 := rfl
  cases credential with
  | none => rfl
  | some c =>
    show keysWidth ["reconnect_credential"] + ((string c).width + 0) = textBytes c + 0 + 26
    rw [hkey, width_string (plain_of_check h)]
    omega

theorem width_resumed {m : Resumed} (h : validateResumed m = .ok ()) :
    (object m.members).width = (ControlMessage.resumed m).bytes := by
  have hkeys : keysWidth ["type", "message_id", "reply_to", "attempt", "snapshot_id", "stage",
      "direction", "entries"] = 93 := rfl
  have htype : (string "RESUMED").width = 9 := width_string rfl
  unfold validateResumed validateReplyHeader at h
  simp only [except_bind_eq_ok] at h
  obtain ⟨_, ⟨_, hmessage, _, hreply, hattempt⟩, _, hsnapshot, _⟩ := h
  rw [width_object, Resumed.members, membersWidth_append, width_replay]
  simp only [membersWidth, ControlMessage.bytes, ControlMessage.fixedBytes, ControlMessage.texts,
    ControlMessage.counters, ControlMessage.entries, ControlMessage.replay, map_append, map_cons,
    map_nil, sum_append, sum_cons, sum_nil, digits_append, hkeys, htype, width_stageName,
    width_directionName, width_entries, width_attempt hattempt,
    width_string (validateId_plain hmessage), width_string (validateId_plain hreply),
    width_string (validateId_plain hsnapshot)]
  omega

theorem width_resume {m : Resume} (h : validateResume m = .ok ()) :
    (object m.members).width = (ControlMessage.resume m).bytes := by
  have hfirst : keysWidth ["type", "message_id"] = 22 := rfl
  have hmiddle : keysWidth ["attempt", "snapshot_id", "stage", "direction"] = 48 := rfl
  have hlast : keysWidth ["entries", "remaining_ms"] = 27 := rfl
  have htype : (string "RESUME").width = 8 := width_string rfl
  unfold validateResume validateHeader at h
  simp only [except_bind_eq_ok] at h
  obtain ⟨_, ⟨_, hmessage, _, hreply, hattempt⟩, _, hsnapshot, _, hcredential, _⟩ := h
  rw [width_object, Resume.members, membersWidth_append, membersWidth_append, membersWidth_append,
    membersWidth_append, width_replyTo hreply, width_credential hcredential]
  simp only [membersWidth, ControlMessage.bytes, ControlMessage.fixedBytes, ControlMessage.texts,
    ControlMessage.counters, ControlMessage.entries, ControlMessage.replay, map_append, map_cons,
    map_nil, sum_append, sum_cons, sum_nil, flatMap_nil, length_nil, digits, hfirst,
    hmiddle, hlast, htype, width_stageName, width_directionName,
    width_entries, width_counter, width_attempt hattempt,
    width_string (validateId_plain hmessage), width_string (validateId_plain hsnapshot)]
  omega

theorem width_message (h : message.validate = .ok ()) : message.toJson.width = message.bytes := by
  obtain ⟨_, _, h⟩ := except_bind_eq_ok.1 h
  cases message with
  | resume m => exact width_resume h
  | resumed m => exact width_resumed h

theorem encodeControl_eq (h : message.validate = .ok ()) :
    encodeControl message =
      if message.bytes > maxControlMessageBytes then
        .error (.messageTooLarge message.bytes maxControlMessageBytes)
      else .ok message.toJson.render.toUTF8 := by
  have hsize : message.toJson.render.toUTF8.size = message.bytes := width_message h
  have hlimit : message.encodedLimit = maxControlMessageBytes := by
    cases message <;> rfl
  rw [← hsize, ← hlimit]
  unfold encodeControl
  rw [h]
  rfl

/-- A message that passes its checks is encoded exactly when its entries, its ranges, the
digits of its counters and the bytes of its strings leave room. -/
theorem encodeControl_fits_iff {message : ControlMessage} (h : message.validate = .ok ()) :
    (∃ encoded, encodeControl message = .ok encoded) ↔
      message.fixedBytes + (message.texts.map textBytes).sum +
          digits (message.counters ++ message.entries.flatMap (·.counters) ++
            message.replay.flatMap (·.counters)) +
          ((message.entries.flatMap (·.terminals)).map terminalWidth).sum +
          (31 * message.entries.length - 1) + 73 * message.replay.length +
          11 * min 1 message.replay.length ≤
        maxControlMessageBytes := by
  show _ ↔ message.bytes ≤ maxControlMessageBytes
  rw [encodeControl_eq h]
  by_cases hfits : message.bytes ≤ maxControlMessageBytes
  · rw [if_neg (Nat.not_lt.2 hfits)]
    exact ⟨fun _ => hfits, fun _ => ⟨_, rfl⟩⟩
  · rw [if_pos (Nat.lt_of_not_le hfits)]
    exact ⟨fun ⟨_, h⟩ => (nomatch h), fun h => absurd h hfits⟩

/-- A stream late in its life: every counter is the largest word or just below it, and one
frame is not acknowledged. -/
def lateEntry (i : Nat) : ResumeDirectionState :=
  { streamId := UInt64.ofNat (18446744073709551488 + i)
    lastEmitted := 18446744073709551615
    peerAcked := 18446744073709551614
    recvContiguous := 18446744073709551615
    deliveredContiguous := 18446744073709551615
    sentBytes := 18446744073709551615
    receivedBytes := 18446744073709551615
    sendCredit := 18446744073709551615
    receiveCredit := 18446744073709551615
    sendTerminal := none
    receiveTerminal := none
    replayFloor := some 18446744073709551615 }

def lateRange (i : Nat) : RotationControl.ReplayRange :=
  { streamId := (lateEntry i).streamId
    direction := .relayToConnector
    first := 18446744073709551615
    through := 18446744073709551615 }

def fullRoster : Resumed where
  messageId := "m-resumed"
  replyTo := "m-resume"
  attempt :=
    { sessionId := "session", epoch := 1, ownerId := "owner", rotationId := "rotation",
      oldGeneration := 1, newGeneration := 2, oldConnectionId := "carrier-1",
      newConnectionId := "carrier-2" }
  snapshotId := "snapshot"
  stage := .snapshot
  direction := .relayToConnector
  entries := (List.range 128).map lateEntry
  replay := (List.range 128).map lateRange

/-- A full roster with 32 replay ranges fits, with 118 bytes to spare. -/
theorem encodeControl_fits_iff_full :
    (ControlMessage.resumed { fullRoster with replay := fullRoster.replay.take 32 }).validate =
        .ok () ∧
      fullRoster.entries.length = 128 ∧ (fullRoster.replay.take 32).length = 32 ∧
      ∃ encoded, encodeControl (.resumed
        { fullRoster with replay := fullRoster.replay.take 32 }) = .ok encoded := by
  have hvalid : (ControlMessage.resumed
      { fullRoster with replay := fullRoster.replay.take 32 }).validate = .ok () := by
    decide +kernel
  exact ⟨hvalid, rfl, rfl, (encodeControl_fits_iff hvalid).2 (by decide +kernel)⟩

/-- One range per entry, in the message's direction, and the message is refused. -/
theorem fullRoster_refused :
    (ControlMessage.resumed fullRoster).validate = .ok () ∧
      fullRoster.replay.map RotationControl.ReplayRange.streamId =
        fullRoster.entries.map ResumeDirectionState.streamId ∧
      (∀ range ∈ fullRoster.replay, range.direction = fullRoster.direction) ∧
      encodeControl (.resumed fullRoster) = .error (.messageTooLarge 45418 32768) := by
  have hvalid : (ControlMessage.resumed fullRoster).validate = .ok () := by decide +kernel
  have hbytes : (ControlMessage.resumed fullRoster).bytes = 45418 := by decide +kernel
  refine ⟨hvalid, rfl, by decide +kernel, ?_⟩
  rw [encodeControl_eq hvalid, hbytes]
  exact if_pos (by decide)

end AgentUplink
