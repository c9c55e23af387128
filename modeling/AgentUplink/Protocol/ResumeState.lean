import AgentUplink.Lib.Reader
import AgentUplink.Protocol.Json

/-!
# Retained state on the wire

`ResumeDirectionState` is one endpoint's replay state of one stream direction, as
RESUME and RESUMED carry it: a tuple of nine decimal strings and two terminals.
The terminal sequence numbers and the replay floor are not sent. They follow from
the cursors, which `fromSequenceSnapshot` checks before it drops them.
-/

namespace AgentUplink

open Machine Fallible Reader Json Decimal

structure ResumeDirectionState where
  streamId : UInt64
  lastEmitted : Nat
  peerAcked : Nat
  recvContiguous : Nat
  deliveredContiguous : Nat
  sentBytes : Nat
  receivedBytes : Nat
  sendCredit : Nat
  receiveCredit : Nat
  sendTerminal : Option Terminal
  receiveTerminal : Option Terminal
  replayFloor : Option Nat
  deriving DecidableEq

def validateNonzero (field : String) (value : Nat) : Except ControlError Unit :=
  if value = 0 then .error (.zeroCounter field) else .ok ()

namespace ResumeDirectionState

variable (s : ResumeDirectionState)

def derivedReplayFloor : Option Nat :=
  if s.lastEmitted > s.peerAcked then checkedAdd s.peerAcked 1 else none

def sendTerminalSequence : Option Nat :=
  if s.sendTerminal.isSome then some s.lastEmitted else none

def receiveTerminalSequence : Option Nat :=
  if s.receiveTerminal.isSome then some s.recvContiguous else none

def validate : Except ControlError Unit := do
  validateNonzero "stream_id" s.streamId.toNat
  if s.peerAcked > s.lastEmitted then .error (.cursorBeyondFence "peer_acked")
  else if s.deliveredContiguous > s.recvContiguous then
    .error (.cursorBeyondFence "delivered_contiguous")
  else if s.sentBytes > s.sendCredit then .error (.creditExceeded "sent_bytes")
  else if s.receivedBytes > s.receiveCredit then .error (.creditExceeded "received_bytes")
  else if s.sendTerminal.isSome ∧ s.lastEmitted = 0 then
    .error (.terminalWithoutSequence "send_terminal")
  else if s.receiveTerminal.isSome ∧ s.recvContiguous = 0 then
    .error (.terminalWithoutSequence "receive_terminal")
  else if s.replayFloor ≠ s.derivedReplayFloor then .error (.cursorBeyondFence "replay_floor")
  else .ok ()

def fromSequenceSnapshot (streamId : UInt64) (snapshot : DirectionSnapshot) :
    Except ControlError ResumeDirectionState :=
  if snapshot.sendTerminal.isSome ∧
      snapshot.sendTerminalSequence ≠ some snapshot.lastEmitted then
    .error (.terminalSequenceMismatch "send_terminal_sequence")
  else if snapshot.receiveTerminal.isSome ∧
      snapshot.receiveTerminalSequence ≠ some snapshot.recvContiguous then
    .error (.terminalSequenceMismatch "receive_terminal_sequence")
  else if snapshot.sendTerminal.isNone ∧ snapshot.sendTerminalSequence.isSome then
    .error (.terminalSequenceMismatch "send_terminal_sequence")
  else if snapshot.receiveTerminal.isNone ∧ snapshot.receiveTerminalSequence.isSome then
    .error (.terminalSequenceMismatch "receive_terminal_sequence")
  else do
    let state : ResumeDirectionState :=
      { streamId
        lastEmitted := snapshot.lastEmitted
        peerAcked := snapshot.peerAcked
        recvContiguous := snapshot.recvContiguous
        deliveredContiguous := snapshot.deliveredContiguous
        sentBytes := snapshot.sentBytes
        receivedBytes := snapshot.receivedBytes
        sendCredit := snapshot.sendCredit
        receiveCredit := snapshot.receiveCredit
        sendTerminal := snapshot.sendTerminal
        receiveTerminal := snapshot.receiveTerminal
        replayFloor := snapshot.replayFloor }
    state.validate
    return state

end ResumeDirectionState

/-! ## The two copies of the conversion back -/

def Connector.directionSnapshotFromResume (state : ResumeDirectionState) : DirectionSnapshot :=
  { lastEmitted := state.lastEmitted
    peerAcked := state.peerAcked
    recvContiguous := state.recvContiguous
    deliveredContiguous := state.deliveredContiguous
    sendCredit := state.sendCredit
    sentBytes := state.sentBytes
    receiveCredit := state.receiveCredit
    receivedBytes := state.receivedBytes
    sendTerminal := state.sendTerminal
    sendTerminalSequence := state.sendTerminalSequence
    receiveTerminal := state.receiveTerminal
    receiveTerminalSequence := state.receiveTerminalSequence
    replayFloor := state.replayFloor
    replayBytes := 0
    reorderFrames := 0
    reorderBytes := 0 }

def Relay.directionSnapshotFromResume (entry : ResumeDirectionState) : DirectionSnapshot :=
  { lastEmitted := entry.lastEmitted
    peerAcked := entry.peerAcked
    recvContiguous := entry.recvContiguous
    deliveredContiguous := entry.deliveredContiguous
    sendCredit := entry.sendCredit
    sentBytes := entry.sentBytes
    receiveCredit := entry.receiveCredit
    receivedBytes := entry.receivedBytes
    sendTerminal := entry.sendTerminal
    sendTerminalSequence := entry.sendTerminalSequence
    receiveTerminal := entry.receiveTerminal
    receiveTerminalSequence := entry.receiveTerminalSequence
    replayFloor := entry.replayFloor
    replayBytes := 0
    reorderFrames := 0
    reorderBytes := 0 }

/-! ## The tuple -/

/-- Why a tuple is refused: a JSON value of another type, or the text given. -/
inductive TupleError where
  | invalidType
  | custom (message : String)
  deriving DecidableEq

def terminalText : Terminal → String
  | .fin => "F"
  | .reset reason => "R:" ++ toString reason.toNat

def compactTerminal : Option Terminal → Json
  | none => .null
  | some terminal => .string (terminalText terminal)

variable (field : String)

def parseCounter (value : String) : Except TupleError Nat :=
  if ¬ Decimal.Canonical value.toList then
    .error (.custom (field ++ " must be a canonical decimal u64"))
  else if Decimal.value value.toList ≥ wordBound then
    .error (.custom (field ++ " is outside the u64 range"))
  else .ok (Decimal.value value.toList)

def missingField : TupleError :=
  .custom ("missing " ++ field ++ " in resume tuple")

def nextCounter : StateT (List Json) (Except TupleError) Nat :=
  next (missingField field) fun
    | .string value => parseCounter field value
    | _ => .error .invalidType

def parseReason (reason : List Char) : Except TupleError UInt16 :=
  if ¬ Decimal.Canonical reason ∨ value reason ≥ 2 ^ 16 then
    .error (.custom ("invalid " ++ field ++ " reset reason"))
  else .ok (UInt16.ofNat (value reason))

def parseTerminal (value : String) : Except TupleError Terminal :=
  if value = "F" then .ok .fin
  else
    match value.toList with
    | 'R' :: ':' :: reason => (parseReason field reason).map .reset
    | _ => .error (.custom ("invalid " ++ field ++ " terminal marker"))

def nextTerminal : StateT (List Json) (Except TupleError) (Option Terminal) :=
  next (missingField field) fun
    | .null => .ok none
    | .string value => (parseTerminal field value).map some
    | _ => .error .invalidType

namespace ResumeDirectionState

def items (s : ResumeDirectionState) : List Json :=
  [.counter s.streamId.toNat, .counter s.lastEmitted, .counter s.peerAcked,
    .counter s.recvContiguous, .counter s.deliveredContiguous, .counter s.sentBytes,
    .counter s.receivedBytes, .counter s.sendCredit, .counter s.receiveCredit,
    compactTerminal s.sendTerminal, compactTerminal s.receiveTerminal]

def serialize (s : ResumeDirectionState) : Json := .array s.items

def visitSeq : StateT (List Json) (Except TupleError) ResumeDirectionState := do
  let streamId ← nextCounter "stream_id"
  let lastEmitted ← nextCounter "last_emitted"
  let peerAcked ← nextCounter "peer_acked"
  let recvContiguous ← nextCounter "recv_contiguous"
  let deliveredContiguous ← nextCounter "delivered_contiguous"
  let sentBytes ← nextCounter "sent_bytes"
  let receivedBytes ← nextCounter "received_bytes"
  let sendCredit ← nextCounter "send_credit"
  let receiveCredit ← nextCounter "receive_credit"
  let sendTerminal ← nextTerminal "send_terminal"
  let receiveTerminal ← nextTerminal "receive_terminal"
  return { streamId := UInt64.ofNat streamId, lastEmitted, peerAcked, recvContiguous,
           deliveredContiguous, sentBytes, receivedBytes, sendCredit, receiveCredit,
           sendTerminal, receiveTerminal,
           replayFloor := if lastEmitted > peerAcked then checkedAdd peerAcked 1 else none }

def deserialize : Json → Except TupleError ResumeDirectionState
  | .array items =>
    complete (.custom "resume direction tuple has more than 11 elements") visitSeq items
  | _ => .error .invalidType

/-! ## What the tuple carries -/

/-- Every counter is a 64-bit word and the replay floor is the derived one. -/
structure Sendable (s : ResumeDirectionState) : Prop where
  lastEmitted : s.lastEmitted < wordBound
  peerAcked : s.peerAcked < wordBound
  recvContiguous : s.recvContiguous < wordBound
  deliveredContiguous : s.deliveredContiguous < wordBound
  sentBytes : s.sentBytes < wordBound
  receivedBytes : s.receivedBytes < wordBound
  sendCredit : s.sendCredit < wordBound
  receiveCredit : s.receiveCredit < wordBound
  replayFloor : s.replayFloor = s.derivedReplayFloor

end ResumeDirectionState

theorem parseCounter_ok {field value : String} {n : Nat} :
    parseCounter field value = .ok n ↔ n < wordBound ∧ value = toString n := by
  unfold parseCounter
  rw [ite_error_eq_ok, ite_error_ok, not_not]
  constructor
  · rintro ⟨hcanonical, hrange, rfl⟩
    refine ⟨by omega, String.toList_inj.1 ?_⟩
    rw [toList_toString, text_value hcanonical]
  · rintro ⟨hrange, rfl⟩
    rw [toList_toString, value_text]
    exact ⟨canonical_text n, by omega, rfl⟩

theorem inverts_nextCounter (field : String) :
    Inverts (nextCounter field) (fun n => [Json.counter n]) (· < wordBound) := by
  refine inverts_next (fun n hn => parseCounter_ok.2 ⟨hn, rfl⟩) fun item n h => ?_
  cases item with
  | string value =>
    obtain ⟨hn, rfl⟩ := parseCounter_ok.1 h
    exact ⟨hn, rfl⟩
  | null | bool _ | number _ | array _ | object _ => cases h

theorem parseReason_ok {field : String} {cs : List Char} {reason : UInt16} :
    parseReason field cs = .ok reason ↔ cs = text reason.toNat := by
  unfold parseReason
  rw [ite_error_ok, not_or, not_not, Nat.not_le]
  constructor
  · rintro ⟨⟨hcanonical, hrange⟩, rfl⟩
    rw [UInt16.toNat_ofNat_of_lt' hrange, text_value hcanonical]
  · rintro rfl
    rw [value_text, UInt16.ofNat_toNat]
    exact ⟨⟨canonical_text _, reason.toNat_lt⟩, rfl⟩

theorem toList_reset (reason : UInt16) :
    ("R:" ++ toString reason.toNat).toList = 'R' :: ':' :: text reason.toNat := by
  rw [String.toList_append, toList_toString]
  rfl

theorem parseTerminal_text (field : String) (t : Terminal) :
    parseTerminal field (terminalText t) = .ok t := by
  cases t with
  | fin => rfl
  | reset reason =>
    have hne : terminalText (.reset reason) ≠ "F" := by
      intro h
      have hchars := congrArg String.toList h
      rw [terminalText, toList_reset] at hchars
      cases hchars
    unfold parseTerminal
    rw [if_neg hne, terminalText, toList_reset]
    show (parseReason field (text reason.toNat)).map Terminal.reset = _
    rw [parseReason_ok.2 rfl]
    rfl

theorem eq_terminalText {field value : String} {t : Terminal}
    (h : parseTerminal field value = .ok t) : value = terminalText t := by
  unfold parseTerminal at h
  split at h
  · next hfin =>
    cases h
    exact hfin
  · split at h
    · next cs hchars =>
      obtain ⟨reason, hreason, rfl⟩ := except_map_eq_ok.1 h
      rw [parseReason_ok.1 hreason, ← toList_reset] at hchars
      exact String.toList_inj.1 hchars
    · cases h

theorem inverts_nextTerminal (field : String) :
    Inverts (nextTerminal field) (fun t => [compactTerminal t]) (fun _ => True) := by
  refine inverts_next (fun t _ => ?_) fun item t h => ⟨trivial, ?_⟩
  · cases t with
    | none => rfl
    | some t =>
      show (parseTerminal field (terminalText t)).map some = _
      rw [parseTerminal_text]
      rfl
  · cases item with
    | null =>
      cases h
      rfl
    | string value =>
      have hmap : (parseTerminal field value).map some = .ok t := h
      obtain ⟨terminal, hparse, rfl⟩ := except_map_eq_ok.1 hmap
      exact congrArg Json.string (eq_terminalText hparse)
    | bool _ | number _ | array _ | object _ => cases h

namespace ResumeDirectionState

theorem inverts_visitSeq : Inverts visitSeq items Sendable := by
  -- Each counter read is a part of the tuple; the last two parts are the terminals.
  refine Inverts.bind (fun s : ResumeDirectionState => s.streamId.toNat) (inverts_nextCounter _)
    (fun s _ => s.streamId.toNat_lt) fun a₁ h₁ => ?_
  refine Inverts.bind lastEmitted (inverts_nextCounter _)
    (fun s h => h.1.lastEmitted) fun a₂ h₂ => ?_
  refine Inverts.bind peerAcked (inverts_nextCounter _)
    (fun s h => h.1.1.peerAcked) fun a₃ h₃ => ?_
  refine Inverts.bind recvContiguous (inverts_nextCounter _)
    (fun s h => h.1.1.1.recvContiguous) fun a₄ h₄ => ?_
  refine Inverts.bind deliveredContiguous (inverts_nextCounter _)
    (fun s h => h.1.1.1.1.deliveredContiguous) fun a₅ h₅ => ?_
  refine Inverts.bind sentBytes (inverts_nextCounter _)
    (fun s h => h.1.1.1.1.1.sentBytes) fun a₆ h₆ => ?_
  refine Inverts.bind receivedBytes (inverts_nextCounter _)
    (fun s h => h.1.1.1.1.1.1.receivedBytes) fun a₇ h₇ => ?_
  refine Inverts.bind sendCredit (inverts_nextCounter _)
    (fun s h => h.1.1.1.1.1.1.1.sendCredit) fun a₈ h₈ => ?_
  refine Inverts.bind receiveCredit (inverts_nextCounter _)
    (fun s h => h.1.1.1.1.1.1.1.1.receiveCredit) fun a₉ h₉ => ?_
  refine Inverts.bind sendTerminal (inverts_nextTerminal _) (fun _ _ => trivial) fun t₁ _ => ?_
  refine Inverts.bind receiveTerminal (inverts_nextTerminal _) (fun _ _ => trivial) fun t₂ _ => ?_
  refine (inverts_pure _).congr fun s => ⟨?_, ?_⟩
  · rintro ⟨⟨⟨⟨⟨⟨⟨⟨⟨⟨⟨hs, rfl⟩, rfl⟩, rfl⟩, rfl⟩, rfl⟩, rfl⟩, rfl⟩, rfl⟩, rfl⟩, rfl⟩, rfl⟩
    obtain ⟨_, _, _, _, _, _, _, _, hfloor⟩ := hs
    rw [UInt64.ofNat_toNat, show (if s.lastEmitted > s.peerAcked then checkedAdd s.peerAcked 1
      else none) = s.derivedReplayFloor from rfl, ← hfloor]
  · rintro rfl
    have hid : (UInt64.ofNat a₁).toNat = a₁ := UInt64.toNat_ofNat_of_lt' h₁
    exact ⟨⟨⟨⟨⟨⟨⟨⟨⟨⟨⟨⟨h₂, h₃, h₄, h₅, h₆, h₇, h₈, h₉, rfl⟩, hid⟩, rfl⟩, rfl⟩, rfl⟩, rfl⟩, rfl⟩,
      rfl⟩, rfl⟩, rfl⟩, rfl⟩, rfl⟩

/-- The tuple of a sendable state reads back as that state, and no other tuple does. -/
theorem deserialize_ok {tuple : Json} {s : ResumeDirectionState} :
    deserialize tuple = .ok s ↔ s.Sendable ∧ tuple = s.serialize := by
  cases tuple with
  | array items =>
    unfold deserialize
    rw [complete_eq_ok, inverts_visitSeq.run_eq_ok, List.append_nil]
    exact and_congr_right fun _ => ⟨fun h => congrArg Json.array h, Json.array.inj⟩
  | null | bool _ | number _ | string _ | object _ =>
    refine ⟨fun h => (nomatch h), fun h => (nomatch h.2)⟩

end ResumeDirectionState

end AgentUplink
