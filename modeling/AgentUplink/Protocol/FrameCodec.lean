import AgentUplink.Lib.Bytes
import AgentUplink.Lib.Fallible
import AgentUplink.Protocol.Frame

/-!
# The binary form of a frame

A header of 64 bytes in network byte order, then the payload. `decode` reads a
whole message: the length field must account for every byte, and the reserved
bytes are zero.
-/

namespace AgentUplink

open Bytes Fallible List

/-- "ATUN". -/
def frameMagic : List UInt8 := [65, 84, 85, 78]

def headerLen : Nat := 64

def maxFrameLen : Nat := headerLen + maxPayloadLen

namespace FrameKind

def code : FrameKind → UInt8
  | .data => 1
  | .fin => 2
  | .ack => 3
  | .windowUpdate => 4
  | .reset => 5

def tryFrom (value : UInt8) : Except FrameError FrameKind :=
  if value = 1 then .ok .data
  else if value = 2 then .ok .fin
  else if value = 3 then .ok .ack
  else if value = 4 then .ok .windowUpdate
  else if value = 5 then .ok .reset
  else .error (.unknownKind value)

theorem tryFrom_ok {value : UInt8} {kind : FrameKind} :
    tryFrom value = .ok kind ↔ value = kind.code := by
  constructor
  · intro h
    unfold tryFrom at h
    repeat' split at h
    all_goals first
      | cases h; assumption
      | cases h
  · rintro rfl
    cases kind <;> rfl

end FrameKind

namespace Frame

/-- The header's fields in order; the sixth is reserved. -/
def header (f : Frame) : List (List UInt8) :=
  [frameMagic, [f.version], [f.kind.code], toBytes 2 f.flags.toNat, toBytes 2 headerLen, [0, 0],
    toBytes 8 f.epoch.toNat, toBytes 8 f.generation.toNat, toBytes 8 f.streamId.toNat,
    toBytes 8 f.sequence.toNat, toBytes 8 f.ack.toNat, toBytes 8 f.window.toNat,
    toBytes 4 f.payload.length]

def encode (f : Frame) : Except FrameError (List UInt8) := do
  f.validate
  if f.payload.length ≥ 2 ^ 32 then
    .error (.payloadTooLarge f.payload.length maxPayloadLen)
  else .ok (f.header.flatten ++ f.payload)

def word16 (first : Nat) (encoded : List UInt8) : UInt16 :=
  UInt16.ofNat (ofBytes (slice first (first + 2) encoded))

def word64 (first : Nat) (encoded : List UInt8) : UInt64 :=
  UInt64.ofNat (ofBytes (slice first (first + 8) encoded))

/-- The lengths are checked first, so no index is out of range. -/
def decode (encoded : List UInt8) : Except FrameError Frame :=
  if encoded.length < headerLen then .error (.truncated headerLen encoded.length)
  else if encoded.length > maxFrameLen then
    .error (.frameTooLarge encoded.length maxFrameLen)
  else if slice 0 4 encoded ≠ frameMagic then .error (.invalidMagic (slice 0 4 encoded))
  else
    let version := encoded.getD 4 0
    if version ≠ protocolMajor then .error (.unsupportedVersion version)
    else do
      let kind ← FrameKind.tryFrom (encoded.getD 5 0)
      let flags := word16 6 encoded
      if flags &&& ~~~knownFlags ≠ 0 then .error (.reservedFlags flags)
      else if (word16 8 encoded).toNat ≠ headerLen then
        .error (.invalidHeaderLength (word16 8 encoded))
      else if word16 10 encoded ≠ 0 then .error (.nonZeroReserved (word16 10 encoded))
      else
        let payloadLen := ofBytes (slice 60 64 encoded)
        if payloadLen > maxPayloadLen then
          .error (.payloadTooLarge payloadLen maxPayloadLen)
        else if encoded.length ≠ headerLen + payloadLen then
          .error (.lengthMismatch (headerLen + payloadLen) encoded.length)
        else do
          let frame : Frame :=
            { version, kind, flags
              epoch := word64 12 encoded
              generation := word64 20 encoded
              streamId := word64 28 encoded
              sequence := word64 36 encoded
              ack := word64 44 encoded
              window := word64 52 encoded
              payload := encoded.drop headerLen }
          frame.validate
          return frame

/-! ## Words -/

variable {f : Frame} {encoded : List UInt8}

theorem toBytes_word16 {first : Nat} (h : first + 2 ≤ encoded.length) :
    toBytes 2 (word16 first encoded).toNat = slice first (first + 2) encoded := by
  have hlength : (slice first (first + 2) encoded).length = 2 := by
    rw [length_slice h]
    omega
  have hlt := ofBytes_lt (slice first (first + 2) encoded)
  rw [hlength] at hlt
  unfold word16
  rw [UInt16.toNat_ofNat_of_lt' hlt]
  exact toBytes_ofBytes hlength

theorem word16_of_slice {first : Nat} {n : UInt16}
    (h : slice first (first + 2) encoded = toBytes 2 n.toNat) : word16 first encoded = n := by
  unfold word16
  rw [h, ofBytes_toBytes n.toNat_lt, UInt16.ofNat_toNat]

theorem toBytes_word64 {first : Nat} (h : first + 8 ≤ encoded.length) :
    toBytes 8 (word64 first encoded).toNat = slice first (first + 8) encoded := by
  have hlength : (slice first (first + 8) encoded).length = 8 := by
    rw [length_slice h]
    omega
  have hlt := ofBytes_lt (slice first (first + 8) encoded)
  rw [hlength] at hlt
  unfold word64
  rw [UInt64.toNat_ofNat_of_lt' hlt]
  exact toBytes_ofBytes hlength

theorem word64_of_slice {first : Nat} {n : UInt64}
    (h : slice first (first + 8) encoded = toBytes 8 n.toNat) : word64 first encoded = n := by
  unfold word64
  rw [h, ofBytes_toBytes n.toNat_lt, UInt64.ofNat_toNat]

/-! ## The layout of the header -/

def layout : List Nat := [4, 1, 1, 2, 2, 2, 8, 8, 8, 8, 8, 8, 4]

theorem header_layout (f : Frame) : f.header.map List.length = layout := by
  simp [header, layout, frameMagic]

theorem take_one_drop {i : Nat} (h : i < encoded.length) :
    (encoded.drop i).take 1 = [encoded.getD i 0] := by
  rw [drop_eq_getElem_cons h, getD_eq_getElem?_getD, List.getElem?_eq_getElem h]
  rfl

theorem cut_layout (h : headerLen ≤ encoded.length) :
    cut layout encoded =
      [slice 0 4 encoded, [encoded.getD 4 0], [encoded.getD 5 0], slice 6 8 encoded,
        slice 8 10 encoded, slice 10 12 encoded, slice 12 20 encoded, slice 20 28 encoded,
        slice 28 36 encoded, slice 36 44 encoded, slice 44 52 encoded, slice 52 60 encoded,
        slice 60 64 encoded] := by
  have hlength : 64 ≤ encoded.length := h
  rw [← take_one_drop (i := 4) (by omega), ← take_one_drop (i := 5) (by omega)]
  simp only [layout, cut, slice, drop_drop, drop_zero]

/-- What decoding checks, and the frame it builds. -/
structure Decodes (encoded : List UInt8) (f : Frame) : Prop where
  length_ge : headerLen ≤ encoded.length
  length_eq : encoded.length = headerLen + ofBytes (slice 60 64 encoded)
  payload_le : ofBytes (slice 60 64 encoded) ≤ maxPayloadLen
  magic : slice 0 4 encoded = frameMagic
  kind : encoded.getD 5 0 = f.kind.code
  headerLength : (word16 8 encoded).toNat = headerLen
  reserved : word16 10 encoded = 0
  fields : f =
    { version := encoded.getD 4 0
      kind := f.kind
      flags := word16 6 encoded
      epoch := word64 12 encoded
      generation := word64 20 encoded
      streamId := word64 28 encoded
      sequence := word64 36 encoded
      ack := word64 44 encoded
      window := word64 52 encoded
      payload := encoded.drop headerLen }
  valid : f.validate = .ok ()

theorem decode_ok : decode encoded = .ok f ↔ Decodes encoded f := by
  unfold decode
  simp only [ite_error_eq_ok, except_bind_eq_ok, FrameKind.tryFrom_ok, not_not, Nat.not_lt,
    gt_iff_lt]
  constructor
  · rintro ⟨hge, _, hmagic, _, kind, hkind, _, hheader, hreserved, hpayload, hlength, _, hvalid,
      hframe⟩
    cases hframe
    exact ⟨hge, hlength, hpayload, hmagic, hkind, hheader, hreserved, rfl, hvalid⟩
  · intro h
    have hle : encoded.length ≤ maxFrameLen := by
      rw [h.length_eq]
      exact Nat.add_le_add_left h.payload_le _
    have hhead := h.valid
    unfold validate at hhead
    simp only [ite_error_eq_ok, not_not] at hhead
    rw [h.fields] at hhead
    refine ⟨h.length_ge, hle, h.magic, hhead.1, f.kind, h.kind, hhead.2.1, h.headerLength,
      h.reserved, h.payload_le, h.length_eq, (), ?_, ?_⟩
    · rw [← h.fields]
      exact h.valid
    · rw [← h.fields]
      rfl

/-! ## The two directions -/

theorem encode_ok : f.encode = .ok encoded ↔
    f.validate = .ok () ∧ encoded = f.header.flatten ++ f.payload := by
  unfold encode
  simp only [except_bind_eq_ok, ite_error_ok]
  constructor
  · rintro ⟨_, hvalid, _, rfl⟩
    exact ⟨hvalid, rfl⟩
  · rintro ⟨hvalid, rfl⟩
    have hle : f.payload.length ≤ 65536 := payload_le_of_validate hvalid
    exact ⟨(), hvalid, by omega, rfl⟩

theorem Decodes.header_eq (h : Decodes encoded f) : cut layout encoded = f.header := by
  have hlength : 64 ≤ encoded.length := h.length_ge
  have hpayload : f.payload.length = ofBytes (slice 60 64 encoded) := by
    rw [h.fields, length_drop, h.length_eq]
    omega
  have hwords : ∀ first, first + 8 ≤ 64 →
      toBytes 8 (word64 first encoded).toNat = slice first (first + 8) encoded :=
    fun first hfirst => toBytes_word64 (by omega)
  have hhalves : ∀ first, first + 2 ≤ 64 →
      toBytes 2 (word16 first encoded).toNat = slice first (first + 2) encoded :=
    fun first hfirst => toBytes_word16 (by omega)
  have hheader := hhalves 8 (by omega)
  have hreserved := hhalves 10 (by omega)
  rw [h.headerLength] at hheader
  rw [h.reserved] at hreserved
  have hlast : toBytes 4 f.payload.length = slice 60 64 encoded := by
    rw [hpayload]
    exact toBytes_ofBytes (length_slice (by omega))
  rw [cut_layout h.length_ge]
  unfold header
  rw [h.magic, h.kind, congrArg version h.fields, congrArg flags h.fields, hhalves 6 (by omega),
    hheader, congrArg epoch h.fields, hwords 12 (by omega), congrArg generation h.fields,
    hwords 20 (by omega), congrArg streamId h.fields, hwords 28 (by omega),
    congrArg sequence h.fields, hwords 36 (by omega), congrArg ack h.fields, hwords 44 (by omega),
    congrArg window h.fields, hwords 52 (by omega), hlast, ← hreserved]
  rfl

theorem decodes_of_header (hvalid : f.validate = .ok ())
    (h : encoded = f.header.flatten ++ f.payload) : Decodes encoded f := by
  have hheader : f.header.flatten.length = headerLen := by
    rfl
  have hlength : encoded.length = headerLen + f.payload.length := by
    rw [h, length_append, hheader]
  have hcut : cut layout encoded = f.header := by
    rw [h]
    exact cut_flatten (header_layout f) _
  rw [cut_layout (by omega)] at hcut
  unfold header at hcut
  simp only [List.cons.injEq, and_true] at hcut
  obtain ⟨hmagic, hversion, hkind, hflags, hlen, hreserved, hepoch, hgeneration, hstream,
    hsequence, hack, hwindow, hpayload⟩ := hcut
  have hle : f.payload.length ≤ 65536 := payload_le_of_validate hvalid
  have hcount : ofBytes (slice 60 64 encoded) = f.payload.length := by
    rw [hpayload, ofBytes_toBytes (by omega)]
  exact
    { length_ge := by omega
      length_eq := by rw [hcount, hlength]
      payload_le := by rw [hcount]; exact hle
      magic := hmagic
      kind := hkind
      headerLength := by
        rw [word16_of_slice (n := 64) hlen]
        rfl
      reserved := word16_of_slice hreserved
      fields := by
        have hdrop : encoded.drop headerLen = f.payload := by
          rw [h, ← hheader, drop_left]
        rw [hversion, word16_of_slice hflags, word64_of_slice hepoch, word64_of_slice hgeneration,
          word64_of_slice hstream, word64_of_slice hsequence, word64_of_slice hack,
          word64_of_slice hwindow, hdrop]
      valid := hvalid }

/-- Decoding is the inverse of encoding, on exactly the encodings of valid frames. -/
theorem decode_iff_encode (f : Frame) (encoded : List UInt8) :
    (decode encoded = .ok f ↔ f.encode = .ok encoded) ∧
      (f.validate = .ok () ↔ ∃ encoded, f.encode = .ok encoded) := by
  refine ⟨?_, ?_⟩
  · rw [decode_ok, encode_ok]
    constructor
    · intro h
      refine ⟨h.valid, ?_⟩
      have hpayload : f.payload = encoded.drop layout.sum := by
        rw [h.fields]
        rfl
      rw [← h.header_eq, hpayload, flatten_cut]
    · rintro ⟨hvalid, hencoded⟩
      exact decodes_of_header hvalid hencoded
  · simp only [encode_ok]
    exact ⟨fun h => ⟨_, h, rfl⟩, fun ⟨_, h, _⟩ => h⟩

end Frame

end AgentUplink
