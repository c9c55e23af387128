import AgentUplink.NineP.Codec

/-!
# One message on the wire

`Frame.toBytes` writes a frame and `decodeExact` reads a list of bytes that must be one
message and nothing else. A list of bytes is accepted, as a certain frame, exactly when it
is what that frame is written as.
-/

open Bytes Fallible

namespace AgentUplink.NineP

open List Writer Message

def countedReplyOverhead : Nat := headerLen + 4

def writeRequestOverhead : Nat := headerLen + 16

/-- A requested or returned count must leave room for its own framing. -/
def checkCounts (message : Message) (msize : UInt32) : Except CodecError Unit :=
  let replyLimit := msize.toNat - countedReplyOverhead
  let writeLimit := msize.toNat - writeRequestOverhead
  let exceeds : Bool :=
    match message with
    | .tread _ _ count | .treaddir _ _ count => replyLimit < count.toNat
    | .rwrite count => writeLimit < count.toNat
    | _ => false
  if exceeds then .error .countAboveMsize else .ok ()

/-- A declared size is checked before a byte of the body is read. -/
def checkSize (size msize : UInt32) : Except CodecError Unit :=
  if size.toNat < headerLen then .error .frameBelowHeader
  else if size > maxMessageBytes then .error .frameAboveCeiling
  else if size > msize then .error .frameAboveMsize
  else .ok ()

namespace Frame

/-- The bytes of the message. The size is checked before it is filled in, as a declared
one is. -/
def encodeInner (frame : Frame) (msize : UInt32) : Except CodecError (List UInt8) := do
  checkTag frame.messageType frame.tag
  let body ← frame.message.encodeBody
  let len := headerLen + body.length
  if 2 ^ 32 ≤ len then .error .frameAboveMsize
  else do
    let size := UInt32.ofNat len
    checkSize size msize
    checkCounts frame.message msize
    return Writer.u32 size ++ Writer.u8 frame.messageType.code ++ Writer.u16 frame.tag ++ body

/-- Append the message to `out`, which an error leaves as it was. -/
def encode (frame : Frame) (msize : UInt32) (out : List UInt8) : Except CodecError (List UInt8) :=
  (frame.encodeInner msize).map (out ++ ·)

def toBytes (frame : Frame) (msize : UInt32) : Except CodecError (List UInt8) :=
  frame.encode msize []

end Frame

/-- Everything after the size: `type[1] tag[2] body`. -/
def decodeAfterSize (rest : List UInt8) (msize : UInt32) : Except CodecError Frame :=
  match rest with
  | code :: low :: high :: body => do
    let type ← MessageType.fromCode code
    let tag := UInt16.ofNat (ofLeBytes [low, high])
    checkTag type tag
    let message ← Message.decodeBody type body
    checkCounts message msize
    return { tag, message }
  -- a checked size leaves three bytes at least
  | _ => .error .truncatedBody

/-- The size that the first four bytes declare. -/
def declaredSize (bytes : List UInt8) : UInt32 := UInt32.ofNat (ofLeBytes (bytes.take 4))

def decodeExact (bytes : List UInt8) (msize : UInt32) : Except CodecError Frame :=
  if bytes.length < 4 then .error .truncatedBody
  else do
    let size := declaredSize bytes
    checkSize size msize
    if bytes.length < size.toNat then .error .truncatedBody
    else if bytes.length > size.toNat then .error .trailingBytes
    else decodeAfterSize (slice 4 size.toNat bytes) msize

/-! ## What is accepted was written -/

variable {msize : UInt32} {frame : Frame} {bytes body : List UInt8}

theorem Message.counted_of_length {message : Message} (h : message.encodeBody = .ok body)
    (hlen : body.length < 2 ^ 32) : message.Counted := by
  unfold Message.Counted
  split
  all_goals try trivial
  all_goals
    cases h
    simp only [Writer.counted, length_append] at hlen
    omega

theorem Frame.toBytes_eq_ok :
    frame.toBytes msize = .ok bytes ↔
      ∃ body, frame.message.encodeBody = .ok body ∧ headerLen + body.length < 2 ^ 32 ∧
        checkTag frame.messageType frame.tag = .ok () ∧
        checkSize (UInt32.ofNat (headerLen + body.length)) msize = .ok () ∧
        checkCounts frame.message msize = .ok () ∧
        bytes = Writer.u32 (UInt32.ofNat (headerLen + body.length)) ++
          Writer.u8 frame.messageType.code ++ Writer.u16 frame.tag ++ body := by
  unfold toBytes encode encodeInner
  simp only [nil_append, except_map_eq_ok, except_bind_eq_ok, ite_error_eq_ok, pure,
    Except.pure, Except.ok.injEq, not_le]
  constructor
  · rintro ⟨_, ⟨_, htag, body, hbody, hlen, _, hsize, _, hcounts, rfl⟩, rfl⟩
    exact ⟨body, hbody, hlen, htag, hsize, hcounts, rfl⟩
  · rintro ⟨body, hbody, hlen, htag, hsize, hcounts, rfl⟩
    exact ⟨_, ⟨(), htag, body, hbody, hlen, (), hsize, (), hcounts, rfl⟩, rfl⟩

theorem checkSize_eq_ok {size : UInt32} :
    checkSize size msize = .ok () ↔
      headerLen ≤ size.toNat ∧ size ≤ maxMessageBytes ∧ size ≤ msize := by
  unfold checkSize
  simp only [ite_error_eq_ok, gt_iff_lt, UInt32.not_lt, not_lt, and_true]

theorem decodeAfterSize_of_written (hbody : frame.message.encodeBody = .ok body)
    (hlen : body.length < 2 ^ 32) (htag : checkTag frame.messageType frame.tag = .ok ())
    (hcounts : checkCounts frame.message msize = .ok ()) :
    decodeAfterSize (Writer.u8 frame.messageType.code ++ Writer.u16 frame.tag ++ body) msize =
      .ok frame := by
  obtain ⟨low, high, hbytes⟩ := length_eq_two.1 (length_u16 frame.tag)
  have hread : UInt16.ofNat (ofLeBytes [low, high]) = frame.tag := by
    rw [← hbytes, Writer.u16, ofLeBytes_toLeBytes frame.tag.toNat_lt, UInt16.ofNat_toNat]
  have hdecode := decodeBody_of_encodeBody hbody (counted_of_length hbody hlen)
  rw [hbytes]
  show (MessageType.fromCode frame.messageType.code >>= _) = _
  rw [MessageType.fromCode_eq_ok.2 rfl, except_ok_bind, hread]
  show (checkTag frame.messageType frame.tag >>= _) = _
  rw [htag, except_ok_bind]
  show (Message.decodeBody frame.message.messageType body >>= _) = _
  rw [hdecode, except_ok_bind, hcounts]
  rfl

theorem written_of_decodeAfterSize {rest : List UInt8}
    (h : decodeAfterSize rest msize = .ok frame) :
    ∃ body, frame.message.encodeBody = .ok body ∧
      checkTag frame.messageType frame.tag = .ok () ∧
      checkCounts frame.message msize = .ok () ∧
      rest = Writer.u8 frame.messageType.code ++ Writer.u16 frame.tag ++ body := by
  unfold decodeAfterSize at h
  split at h
  · next code low high body =>
    simp only [except_bind_eq_ok, MessageType.fromCode_eq_ok] at h
    obtain ⟨type, rfl, _, htag, message, hmessage, _, hcounts, hframe⟩ := h
    cases hframe
    obtain ⟨rfl, hbody⟩ := encodeBody_of_decodeBody hmessage
    have hlt : ofLeBytes [low, high] < 2 ^ 16 := by simpa using ofLeBytes_lt [low, high]
    have hbytes : toLeBytes 2 (ofLeBytes [low, high]) = [low, high] := toLeBytes_ofLeBytes rfl
    refine ⟨body, hbody, htag, hcounts, ?_⟩
    rw [Writer.u16, UInt16.toNat_ofNat_of_lt' hlt, hbytes]
    rfl
  · cases h

/-- The bytes of a message are the size, which counts itself, and the rest. -/
theorem eq_u32_append (h : 4 ≤ bytes.length) :
    bytes = Writer.u32 (declaredSize bytes) ++ bytes.drop 4 := by
  have hlen : (bytes.take 4).length = 4 := length_take_of_le h
  have hlt : ofLeBytes (bytes.take 4) < 2 ^ 32 := by simpa [hlen] using ofLeBytes_lt (bytes.take 4)
  rw [declaredSize, Writer.u32, UInt32.toNat_ofNat_of_lt' hlt, toLeBytes_ofLeBytes hlen,
    take_append_drop]

theorem declaredSize_u32_append (size : UInt32) (rest : List UInt8) :
    declaredSize (Writer.u32 size ++ rest) = size := by
  rw [declaredSize, take_left' (length_u32 size), Writer.u32,
    ofLeBytes_toLeBytes size.toNat_lt, UInt32.ofNat_toNat]

theorem decodeExact_checks :
    decodeExact bytes msize = .ok frame ↔
      4 ≤ bytes.length ∧ checkSize (declaredSize bytes) msize = .ok () ∧
        (declaredSize bytes).toNat = bytes.length ∧
        decodeAfterSize (bytes.drop 4) msize = .ok frame := by
  unfold decodeExact
  simp only [ite_error_eq_ok, except_bind_eq_ok]
  have hslice (hlen : (declaredSize bytes).toNat = bytes.length) :
      slice 4 (declaredSize bytes).toNat bytes = bytes.drop 4 := by
    rw [slice, take_of_length_le (by rw [length_drop]; omega)]
  constructor
  · rintro ⟨hfour, _, hsize, hlow, hhigh, hframe⟩
    have hlen : (declaredSize bytes).toNat = bytes.length := by omega
    rw [hslice hlen] at hframe
    exact ⟨by omega, hsize, hlen, hframe⟩
  · rintro ⟨hfour, hsize, hlen, hframe⟩
    rw [hslice hlen]
    exact ⟨by omega, (), hsize, by omega, by omega, hframe⟩

theorem decodeExact_eq_ok :
    decodeExact bytes msize = .ok frame ↔ frame.toBytes msize = .ok bytes := by
  rw [decodeExact_checks, Frame.toBytes_eq_ok]
  constructor
  · rintro ⟨hfour, hsize, hlen, hframe⟩
    obtain ⟨body, hbody, htag, hcounts, hrest⟩ := written_of_decodeAfterSize hframe
    have htotal : headerLen + body.length = (declaredSize bytes).toNat := by
      have hlength := congrArg List.length hrest
      simp only [length_append, length_drop, length_u8, length_u16]
        at hlength
      unfold headerLen
      omega
    refine ⟨body, hbody, ?_, htag, ?_, hcounts, ?_⟩
    · rw [htotal]
      exact (declaredSize bytes).toNat_lt
    · rwa [htotal, UInt32.ofNat_toNat]
    · rw [htotal, UInt32.ofNat_toNat, append_assoc, append_assoc,
        ← append_assoc (Writer.u8 _), ← hrest]
      exact eq_u32_append hfour
  · rintro ⟨body, hbody, hlen, htag, hsize, hcounts, rfl⟩
    have htotal : (UInt32.ofNat (headerLen + body.length)).toNat = headerLen + body.length :=
      UInt32.toNat_ofNat_of_lt' hlen
    have hframe := decodeAfterSize_of_written hbody (by omega) htag hcounts
    rw [append_assoc, append_assoc, declaredSize_u32_append, htotal, drop_left' (length_u32 _)]
    simp only [length_append, length_u32, length_u8, length_u16]
    exact ⟨by omega, hsize, by unfold headerLen; omega, hframe⟩

end AgentUplink.NineP
