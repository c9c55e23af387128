import Mathlib

/-!
# Tunnel data frames

One frame is one binary message of the data socket. `Frame.validate` is the
check every endpoint makes before it looks at a frame, and a valid frame's shape
is fixed by its kind: DATA, FIN and RESET carry a sequence number, ACK and
WINDOW_UPDATE do not.

The epoch and the generation name the carrier a frame travelled on. They are
the two fields replay rewrites, and no check in this file reads them.
-/

namespace AgentUplink

def protocolMajor : UInt8 := 1

def maxPayloadLen : Nat := 64 * 1024

def knownFlags : UInt16 := 0

inductive FrameKind where
  | data
  | fin
  | ack
  | windowUpdate
  | reset
deriving DecidableEq

/-- DATA, FIN and RESET take a place in the stream's sequence space. -/
def FrameKind.sequenced : FrameKind → Bool
  | .data | .fin | .reset => true
  | .ack | .windowUpdate => false

def FrameKind.isTerminal : FrameKind → Bool
  | .fin | .reset => true
  | .data | .ack | .windowUpdate => false

structure Frame where
  version : UInt8
  kind : FrameKind
  flags : UInt16
  epoch : UInt64
  generation : UInt64
  streamId : UInt64
  sequence : UInt64
  ack : UInt64
  window : UInt64
  payload : List UInt8
deriving DecidableEq

inductive FrameError where
  | unsupportedVersion (version : UInt8)
  | reservedFlags (flags : UInt16)
  | payloadTooLarge (length maximum : Nat)
  | invalidPayloadLength (kind : FrameKind) (expected actual : Nat)
  | unexpectedPayload (kind : FrameKind)
  | unexpectedSequence (kind : FrameKind)
  | zeroSequence (kind : FrameKind)
  | unexpectedAcknowledgement (kind : FrameKind)
  | unexpectedWindow (kind : FrameKind)
  | zeroStreamId
  | truncated (minimum actual : Nat)
  | frameTooLarge (length maximum : Nat)
  | invalidMagic (magic : List UInt8)
  | unknownKind (code : UInt8)
  | invalidHeaderLength (length : UInt16)
  | nonZeroReserved (reserved : UInt16)
  | lengthMismatch (expected actual : Nat)
deriving DecidableEq

namespace Frame

def new (kind : FrameKind) (epoch generation streamId sequence ack window : UInt64)
    (payload : List UInt8) : Frame :=
  { version := protocolMajor, kind, flags := 0, epoch, generation, streamId, sequence, ack,
    window, payload }

def newData (epoch generation streamId sequence ack : UInt64) (payload : List UInt8) : Frame :=
  new .data epoch generation streamId sequence ack 0 payload

def newFin (epoch generation streamId sequence ack : UInt64) : Frame :=
  new .fin epoch generation streamId sequence ack 0 []

def newWindowUpdate (epoch generation streamId limit : UInt64) : Frame :=
  new .windowUpdate epoch generation streamId 0 0 limit []

/-- The checks a frame's kind adds to the ones every frame passes. -/
def validateKind (f : Frame) : Except FrameError Unit :=
  match f.kind with
  | .data =>
    if f.sequence = 0 then .error (.zeroSequence f.kind)
    else if f.window ≠ 0 then .error (.unexpectedWindow f.kind)
    else .ok ()
  | .fin =>
    if f.sequence = 0 then .error (.zeroSequence f.kind)
    else if f.payload ≠ [] then .error (.unexpectedPayload f.kind)
    else if f.window ≠ 0 then .error (.unexpectedWindow f.kind)
    else .ok ()
  | .ack =>
    if f.sequence ≠ 0 then .error (.unexpectedSequence f.kind)
    else if f.payload ≠ [] then .error (.unexpectedPayload f.kind)
    else if f.window ≠ 0 then .error (.unexpectedWindow f.kind)
    else .ok ()
  | .windowUpdate =>
    if f.sequence ≠ 0 then .error (.unexpectedSequence f.kind)
    else if f.payload ≠ [] then .error (.unexpectedPayload f.kind)
    else if f.ack ≠ 0 then .error (.unexpectedAcknowledgement f.kind)
    else .ok ()
  | .reset =>
    if f.sequence = 0 then .error (.zeroSequence f.kind)
    else if f.payload.length ≠ 2 then
      .error (.invalidPayloadLength f.kind 2 f.payload.length)
    else if f.window ≠ 0 then .error (.unexpectedWindow f.kind)
    else .ok ()

def validate (f : Frame) : Except FrameError Unit :=
  if f.version ≠ protocolMajor then .error (.unsupportedVersion f.version)
  else if f.flags &&& ~~~knownFlags ≠ 0 then .error (.reservedFlags f.flags)
  else if f.streamId = 0 then .error .zeroStreamId
  else if f.payload.length > maxPayloadLen then
    .error (.payloadTooLarge f.payload.length maxPayloadLen)
  else f.validateKind

/-- The reason of a RESET, read in network byte order. Validation has fixed the
payload at two bytes, so the defaults are never used. -/
def resetReason (f : Frame) : Except FrameError (Option UInt16) := do
  f.validate
  if f.kind ≠ .reset then
    return none
  return some ((f.payload.getD 0 0).toUInt16 <<< 8 ||| (f.payload.getD 1 0).toUInt16)

/-- The same logical frame on another carrier. -/
def onCarrier (epoch generation : UInt64) (f : Frame) : Frame :=
  { f with epoch, generation }

/-- Two frames that differ at most in the carrier they travelled on. -/
def SameLogical (f g : Frame) : Prop := f.onCarrier 0 0 = g.onCarrier 0 0

def credit (f : Frame) : Nat := if f.kind = .data then f.payload.length else 0

variable {f g : Frame}

theorem SameLogical.trans {k : Frame} (h : f.SameLogical g) (h' : g.SameLogical k) :
    f.SameLogical k := Eq.trans h h'

/-- A reading that ignores the carrier agrees on two copies of a logical frame. -/
theorem SameLogical.congr {β : Sort*} (h : f.SameLogical g) (q : Frame → β)
    (hq : ∀ f : Frame, q (f.onCarrier 0 0) = q f) : q f = q g := by
  rw [← hq f, ← hq g]
  exact congrArg q h

section SameLogical

variable {f g : Frame} (h : f.SameLogical g)

include h

theorem SameLogical.kind_eq : f.kind = g.kind := h.congr Frame.kind fun _ => rfl

theorem SameLogical.streamId_eq : f.streamId = g.streamId := h.congr Frame.streamId fun _ => rfl

theorem SameLogical.sequence_eq : f.sequence = g.sequence := h.congr Frame.sequence fun _ => rfl

theorem SameLogical.ack_eq : f.ack = g.ack := h.congr Frame.ack fun _ => rfl

theorem SameLogical.window_eq : f.window = g.window := h.congr Frame.window fun _ => rfl

theorem SameLogical.payload_eq : f.payload = g.payload := h.congr Frame.payload fun _ => rfl

theorem SameLogical.credit_eq : f.credit = g.credit := h.congr Frame.credit fun _ => rfl

theorem SameLogical.validate_eq : f.validate = g.validate := h.congr Frame.validate fun _ => rfl

end SameLogical

/-! ## What validation guarantees -/

section

variable (h : f.validate = .ok ())
include h

theorem validateKind_of_validate : f.validateKind = .ok () := by
  unfold validate at h
  repeat' split at h
  all_goals first
    | exact h
    | cases h

theorem payload_le_of_validate : f.payload.length ≤ maxPayloadLen := by
  unfold validate at h
  repeat' split at h
  all_goals first
    | omega
    | cases h

theorem sequence_pos (hk : f.kind.sequenced = true) : 0 < f.sequence.toNat := by
  have hv := validateKind_of_validate h
  unfold validateKind at hv
  -- The three sequenced kinds reject sequence zero first; the other two contradict `hk`.
  cases hf : f.kind <;> simp only [hf, FrameKind.sequenced, Bool.false_eq_true] at hv hk
  all_goals
    by_contra h0
    have hzero : f.sequence = 0 := UInt64.toNat_inj.mp (by simpa using h0)
    rw [if_pos hzero] at hv
    cases hv

theorem fin_payload (hk : f.kind = .fin) : f.payload = [] := by
  have hv := validateKind_of_validate h
  simp only [validateKind, hk] at hv
  by_contra hp
  split at hv <;> cases hv

theorem reset_payload_length (hk : f.kind = .reset) : f.payload.length = 2 := by
  have hv := validateKind_of_validate h
  simp only [validateKind, hk] at hv
  by_contra hp
  split at hv <;> cases hv

theorem windowUpdate_ack (hk : f.kind = .windowUpdate) : f.ack = 0 := by
  have hv := validateKind_of_validate h
  simp only [validateKind, hk] at hv
  by_contra ha
  repeat' split at hv
  all_goals cases hv

theorem resetReason_of_validate (hk : f.kind = .reset) :
    ∃ reason, f.resetReason = .ok (some reason) := by
  simp only [resetReason, h, hk]
  exact ⟨_, rfl⟩

end

end Frame

end AgentUplink
