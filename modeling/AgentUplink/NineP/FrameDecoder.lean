import AgentUplink.Lib.Machine
import AgentUplink.Lib.Scan
import AgentUplink.NineP.Framing

/-!
# The incremental decoder of a 9P byte stream

The decoder takes bytes in pieces of any size and yields a frame whenever one is complete.
It keeps the bytes of one unfinished message. `front` is the same stream looked at as a
whole: cut at the size that the first four bytes declare and decoded by `decodeExact`.
-/

open Bytes Fallible Machine Scan

namespace AgentUplink.NineP

open List

inductive DecoderState
  /-- The bytes of the size that have arrived. -/
  | size (buf : List UInt8)
  /-- The bytes behind the size: how many there will be, and those that have arrived. -/
  | body (size : Nat) (buf : List UInt8)
  | failed (error : CodecError)
  deriving DecidableEq

structure FrameDecoder where
  msize : UInt32
  state : DecoderState
  framesStarted : Nat

namespace FrameDecoder

def withMsize (msize : UInt32) : FrameDecoder :=
  { msize, state := .size [], framesStarted := 0 }

/-- What one call answers, the decoder after it and the input it left. -/
abbrev Decoded := Except CodecError (Option Frame) × FrameDecoder × List UInt8

section

variable (decoder : FrameDecoder)

/-- The second round of the loop, behind a size that was checked. -/
def decodeBody (size : Nat) (buf input : List UInt8) : Decoded :=
  let take := min (size - buf.length) input.length
  let buf := buf ++ input.take take
  let input := input.drop take
  if buf.length < size then (.ok none, { decoder with state := .body size buf }, input)
  else
    ((decodeAfterSize buf decoder.msize).map some, { decoder with state := .size [] }, input)

def decodeStep (input : List UInt8) : Decoded :=
  match decoder.state with
  | .failed error => (.error error, decoder, input)
  | .size buf =>
    if input.isEmpty then (.ok none, decoder, input)
    else
      let framesStarted :=
        if buf.isEmpty then saturatingAdd decoder.framesStarted 1 else decoder.framesStarted
      let take := min (4 - buf.length) input.length
      let buf := buf ++ input.take take
      let input := input.drop take
      let decoder := { decoder with state := .size buf, framesStarted }
      if buf.length < 4 then (.ok none, decoder, input)
      else
        let size := declaredSize buf
        match checkSize size decoder.msize with
        | .error error => (.error error, decoder, input)
        | .ok () => decoder.decodeBody (size.toNat - 4) [] input
  | .body size buf => decoder.decodeBody size buf input

/-- Decode at most one frame from the front of the input. An error is kept for good. -/
def decode (input : List UInt8) : Decoded :=
  match decoder.decodeStep input with
  | (.error error, decoder, input) => (.error error, { decoder with state := .failed error }, input)
  | other => other

def isIdle : Bool := decoder.state = .size []

def retainedLen : Nat :=
  match decoder.state with
  | .size buf => buf.length
  | .body _ buf => 4 + buf.length
  | .failed _ => 0

def failure : Option CodecError :=
  match decoder.state with
  | .failed error => some error
  | _ => none

def fin : Except CodecError Unit × FrameDecoder :=
  match decoder.failure with
  | some error => (.error error, decoder)
  | none =>
    if decoder.isIdle then (.ok (), decoder)
    else (.error .truncatedBody, { decoder with state := .failed .truncatedBody })

end

/-- A caller's loop over one piece of input: decode until no frame is complete. -/
def drain : Nat → FrameDecoder → List UInt8 → List Frame × FrameDecoder
  | 0, decoder, _ => ([], decoder)
  | fuel + 1, decoder, input =>
    match decoder.decode input with
    | (.ok (some frame), decoder, input) =>
      let (frames, decoder) := drain fuel decoder input
      (frame :: frames, decoder)
    | (_, decoder, _) => ([], decoder)

def read (decoder : FrameDecoder) (chunk : List UInt8) : List Frame × FrameDecoder :=
  drain (chunk.length + 1) decoder chunk

def readAll : FrameDecoder → List (List UInt8) → List Frame × FrameDecoder
  | decoder, [] => ([], decoder)
  | decoder, chunk :: chunks =>
    let (frames, decoder) := decoder.read chunk
    let (later, decoder) := readAll decoder chunks
    (frames ++ later, decoder)

end FrameDecoder

/-! ## The stream as a whole -/

/-- The first message of a stream, cut at its declared size; a size that is refused needs
no more than its four bytes. -/
def front (msize : UInt32) (stream : List UInt8) : Front UInt8 Frame CodecError :=
  if stream.length < 4 then .waits
  else
    let size := (declaredSize stream).toNat
    match decodeExact (stream.take (max 4 size)) msize with
    | .ok frame => .item frame (stream.drop size)
    | .error error =>
      if stream.length < size ∧ error = .truncatedBody then .waits else .refused error

theorem declaredSize_append {bytes : List UInt8} (h : 4 ≤ bytes.length) (rest : List UInt8) :
    declaredSize (bytes ++ rest) = declaredSize bytes := by
  rw [declaredSize, declaredSize, take_append_of_le_length h]

theorem declaredSize_take {bytes : List UInt8} {n : Nat} (h : 4 ≤ n) :
    declaredSize (bytes.take n) = declaredSize bytes := by
  rw [declaredSize, declaredSize, take_take, min_eq_left h]

theorem checkSize_ne_truncatedBody {size msize : UInt32} {error : CodecError}
    (h : checkSize size msize = .error error) : error ≠ .truncatedBody := by
  unfold checkSize at h
  split_ifs at h <;> cases h <;> decide

section Front

variable {msize : UInt32} {stream : List UInt8}

theorem front_of_short (h : stream.length < 4) : front msize stream = .waits := if_pos h

theorem front_of_checkSize_error {error : CodecError} (hlen : 4 ≤ stream.length)
    (h : checkSize (declaredSize stream) msize = .error error) :
    front msize stream = .refused error := by
  have hne := checkSize_ne_truncatedBody h
  have hpiece : decodeExact (stream.take (max 4 (declaredSize stream).toNat)) msize
      = .error error := by
    rw [decodeExact, if_neg (by rw [length_take]; omega)]
    show (checkSize (declaredSize (stream.take _)) msize >>= _) = _
    rw [declaredSize_take (le_max_left _ _), h]
    rfl
  rw [front, if_neg (not_lt.2 hlen)]
  simp only [hpiece]
  rw [if_neg (fun hwait => hne hwait.2)]

theorem front_of_incomplete (hlen : 4 ≤ stream.length)
    (h : checkSize (declaredSize stream) msize = .ok ())
    (hshort : stream.length < (declaredSize stream).toNat) : front msize stream = .waits := by
  have hpiece : decodeExact (stream.take (max 4 (declaredSize stream).toNat)) msize
      = .error .truncatedBody := by
    rw [take_of_length_le (by omega), decodeExact, if_neg (not_lt.2 hlen)]
    show (checkSize (declaredSize stream) msize >>= _) = _
    rw [h, except_ok_bind, if_pos hshort]
  rw [front, if_neg (not_lt.2 hlen)]
  simp only [hpiece]
  rw [if_pos ⟨hshort, trivial⟩]

theorem front_of_complete (hlen : 4 ≤ stream.length)
    (h : checkSize (declaredSize stream) msize = .ok ())
    (hcomplete : (declaredSize stream).toNat ≤ stream.length) :
    front msize stream =
      match decodeAfterSize (slice 4 (declaredSize stream).toNat stream) msize with
      | .ok frame => .item frame (stream.drop (declaredSize stream).toNat)
      | .error error => .refused error := by
  obtain ⟨hheader, -, -⟩ := checkSize_eq_ok.1 h
  unfold headerLen at hheader
  generalize hsize : (declaredSize stream).toNat = size at *
  have hpiece : decodeExact (stream.take (max 4 size)) msize
      = decodeAfterSize (slice 4 size stream) msize := by
    have htake : (stream.take (max 4 size)).length = size := by
      rw [length_take]
      omega
    rw [decodeExact, if_neg (by omega)]
    show (checkSize (declaredSize (stream.take (max 4 size))) msize >>= _) = _
    rw [declaredSize_take (le_max_left _ _), h, except_ok_bind, htake, hsize,
      if_neg (lt_irrefl _), if_neg (lt_irrefl _), slice, slice, drop_take,
      take_take]
    congr 2
    omega
  rw [front, if_neg (not_lt.2 hlen)]
  simp only [hsize, hpiece]
  cases decodeAfterSize (slice 4 size stream) msize with
  | ok frame => rfl
  | error error => exact if_neg (fun hwait => not_lt.2 hcomplete hwait.1)

/-- The front of a stream is found out in one of four ways. -/
theorem front_cases (msize : UInt32) (stream : List UInt8) :
    stream.length < 4 ∨
      4 ≤ stream.length ∧
        ((∃ error, checkSize (declaredSize stream) msize = .error error) ∨
          checkSize (declaredSize stream) msize = .ok () ∧
            (stream.length < (declaredSize stream).toNat ∨
              (declaredSize stream).toNat ≤ stream.length)) := by
  rcases lt_or_ge stream.length 4 with hshort | hlen
  · exact .inl hshort
  · refine .inr ⟨hlen, ?_⟩
    cases hsize : checkSize (declaredSize stream) msize with
    | error error => exact .inl ⟨error, rfl⟩
    | ok => exact .inr ⟨rfl, lt_or_ge _ _⟩

theorem front_append (h : front msize stream ≠ .waits) (more : List UInt8) :
    front msize (stream ++ more) =
      match front msize stream with
      | .waits => .waits
      | .refused error => .refused error
      | .item frame rest => .item frame (rest ++ more) := by
  obtain hshort | ⟨hlen, ⟨error, hsize⟩ | ⟨hsize, hshort | hcomplete⟩⟩ := front_cases msize stream
  · exact absurd (front_of_short hshort) h
  · have hlen' : 4 ≤ (stream ++ more).length := by
      rw [length_append]
      omega
    rw [front_of_checkSize_error hlen hsize, front_of_checkSize_error hlen'
      (by rw [declaredSize_append hlen, hsize])]
  · exact absurd (front_of_incomplete hlen hsize hshort) h
  · have hdeclared := declaredSize_append hlen more
    have hlen' : 4 ≤ (stream ++ more).length := by
      rw [length_append]
      omega
    have hbody : slice 4 (declaredSize stream).toNat (stream ++ more)
        = slice 4 (declaredSize stream).toNat stream := by
      rw [slice, slice, drop_append_of_le_length hlen, take_append_of_le_length]
      rw [length_drop]
      omega
    rw [front_of_complete hlen hsize hcomplete, front_of_complete hlen' (by rwa [hdeclared])
      (by rw [hdeclared, length_append]; omega), hdeclared, hbody,
      drop_append_of_le_length hcomplete]
    cases decodeAfterSize (slice 4 (declaredSize stream).toNat stream) msize <;> rfl

theorem front_item {frame : Frame} {rest : List UInt8} (h : front msize stream = .item frame rest) :
    headerLen ≤ (declaredSize stream).toNat ∧ (declaredSize stream).toNat ≤ stream.length ∧
      rest = stream.drop (declaredSize stream).toNat := by
  obtain hshort | ⟨hlen, ⟨error, hsize⟩ | ⟨hsize, hshort | hcomplete⟩⟩ := front_cases msize stream
  · rw [front_of_short hshort] at h
    cases h
  · rw [front_of_checkSize_error hlen hsize] at h
    cases h
  · rw [front_of_incomplete hlen hsize hshort] at h
    cases h
  · rw [front_of_complete hlen hsize hcomplete] at h
    split at h
    · cases h
      exact ⟨(checkSize_eq_ok.1 hsize).1, hcomplete, rfl⟩
    · cases h

theorem front_stable (msize : UInt32) : Stable (front msize) where
  shorter h := by
    obtain ⟨hheader, hcomplete, rfl⟩ := front_item h
    unfold headerLen at hheader
    rw [length_drop]
    omega
  item_append more h := by
    rw [front_append (by rw [h]; nofun), h]
  refused_append more h := by
    rw [front_append (by rw [h]; nofun), h]

end Front

/-! ## The decoder follows the stream -/

namespace FrameDecoder

def stateOf (held : List UInt8) : DecoderState :=
  if held.length < 4 then .size held
  else .body ((declaredSize held).toNat - 4) (held.drop 4)

/-- The decoder has read `held` of a message that is not yet complete. -/
structure Holds (decoder : FrameDecoder) (held : List UInt8) : Prop where
  state : decoder.state = stateOf held
  waits : front decoder.msize held = .waits

/-- A call does what the front of the stream, with what was held before, asks for. -/
def Follows (msize : UInt32) (stream : List UInt8) (decoded : Decoded) :
    Front UInt8 Frame CodecError → Prop
  | .waits => decoded.1 = .ok none ∧ decoded.2.1.msize = msize ∧
      decoded.2.1.state = stateOf stream ∧ decoded.2.2 = []
  | .refused error => decoded.1 = .error error ∧ decoded.2.1.msize = msize
  | .item frame rest => decoded.1 = .ok (some frame) ∧ decoded.2.1.msize = msize ∧
      decoded.2.1.state = .size [] ∧ decoded.2.2 = rest

variable {decoder : FrameDecoder} {input held : List UInt8} {error : CodecError}

theorem decodeBody_follows {stream buf : List UInt8} (hlen : 4 ≤ stream.length)
    (hsize : checkSize (declaredSize stream) decoder.msize = .ok ())
    (hstream : stream.drop 4 = buf ++ input) (hbuf : buf.length ≤ (declaredSize stream).toNat - 4) :
    Follows decoder.msize stream
      (decoder.decodeBody ((declaredSize stream).toNat - 4) buf input)
      (front decoder.msize stream) := by
  obtain ⟨hheader, -, -⟩ := checkSize_eq_ok.1 hsize
  unfold headerLen at hheader
  have htotal : stream.length - 4 = buf.length + input.length := by
    rw [← length_drop, hstream, length_append]
  unfold decodeBody
  by_cases hshort : stream.length < (declaredSize stream).toNat
  · -- all of the input is kept
    have htake : min ((declaredSize stream).toNat - 4 - buf.length) input.length
        = input.length := by omega
    simp only [htake, take_length, drop_length, ← hstream]
    rw [if_pos (by rw [length_drop]; omega)]
    rw [front_of_incomplete hlen hsize hshort]
    refine ⟨rfl, rfl, ?_, rfl⟩
    rw [stateOf, if_neg (not_lt.2 hlen)]
  · -- the message is complete
    have hcomplete := Nat.le_of_not_lt hshort
    rw [front_of_complete hlen hsize hcomplete]
    generalize (declaredSize stream).toNat = size at *
    have htake : min (size - 4 - buf.length) input.length = size - 4 - buf.length := by omega
    have hbody : buf ++ input.take (size - 4 - buf.length) = slice 4 size stream := by
      rw [slice, hstream, take_append, take_of_length_le hbuf]
    have hrest : input.drop (size - 4 - buf.length) = stream.drop size := by
      have hdrop : stream.drop size = (stream.drop 4).drop (size - 4) := by
        rw [drop_drop]
        congr 1
        omega
      rw [hdrop, hstream, drop_append, drop_of_length_le hbuf, nil_append]
    simp only [htake, hbody, hrest]
    rw [if_neg (by rw [length_slice hcomplete]; omega)]
    cases decodeAfterSize (slice 4 size stream) decoder.msize with
    | ok frame => exact ⟨rfl, rfl, rfl, rfl⟩
    | error error => exact ⟨rfl, rfl⟩

theorem Holds.checked (h : decoder.Holds held) (hlen : 4 ≤ held.length) :
    checkSize (declaredSize held) decoder.msize = .ok () ∧
      held.length < (declaredSize held).toNat := by
  have hwaits := h.waits
  obtain hshort | ⟨-, ⟨error, hsize⟩ | ⟨hsize, hshort | hcomplete⟩⟩ :=
    front_cases decoder.msize held
  · omega
  · rw [front_of_checkSize_error hlen hsize] at hwaits
    cases hwaits
  · exact ⟨hsize, hshort⟩
  · rw [front_of_complete hlen hsize hcomplete] at hwaits
    split at hwaits <;> cases hwaits

theorem decodeStep_size_follows (hstate : decoder.state = .size held) (hheld : held.length < 4)
    (input : List UInt8) :
    Follows decoder.msize (held ++ input) (decoder.decodeStep input)
      (front decoder.msize (held ++ input)) := by
  unfold decodeStep
  rw [hstate]
  simp only [List.isEmpty_iff]
  by_cases hinput : input = []
  · subst hinput
    rw [if_pos rfl, List.append_nil, front_of_short hheld]
    refine ⟨rfl, rfl, ?_, rfl⟩
    rw [hstate, stateOf, if_pos hheld]
  rw [if_neg hinput]
  rcases lt_or_ge (held ++ input).length 4 with hshort | hlen
  · have htake : min (4 - held.length) input.length = input.length := by
      rw [length_append] at hshort
      omega
    rw [htake, take_length, drop_length, if_pos hshort, front_of_short hshort]
    refine ⟨rfl, rfl, ?_, rfl⟩
    rw [stateOf, if_pos hshort]
  · have htake : min (4 - held.length) input.length = 4 - held.length := by
      rw [length_append] at hlen
      omega
    have hbuf : held ++ input.take (4 - held.length) = (held ++ input).take 4 := by
      rw [take_append, take_of_length_le (le_of_lt hheld)]
    have hrest : input.drop (4 - held.length) = (held ++ input).drop 4 := by
      rw [drop_append, drop_of_length_le (le_of_lt hheld), nil_append]
    rw [htake, hbuf, hrest, if_neg (by rw [length_take]; omega), declaredSize_take (le_refl 4)]
    cases hsize : checkSize (declaredSize (held ++ input)) decoder.msize with
    | error error =>
      rw [front_of_checkSize_error hlen hsize]
      exact ⟨rfl, rfl⟩
    | ok =>
      exact @decodeBody_follows { decoder with state := .size _, framesStarted := _ } _ _ _ hlen
        hsize (nil_append _).symm (Nat.zero_le _)

theorem decodeStep_follows (h : decoder.Holds held) (input : List UInt8) :
    Follows decoder.msize (held ++ input) (decoder.decodeStep input)
      (front decoder.msize (held ++ input)) := by
  have hstate := h.state
  rcases lt_or_ge held.length 4 with hshort | hlen
  · rw [stateOf, if_pos hshort] at hstate
    exact decodeStep_size_follows hstate hshort input
  · obtain ⟨hsize, hshort⟩ := h.checked hlen
    have hdeclared := declaredSize_append hlen input
    rw [stateOf, if_neg (not_lt.2 hlen), ← hdeclared] at hstate
    unfold decodeStep
    rw [hstate]
    apply decodeBody_follows
    · rw [length_append]
      omega
    · rwa [hdeclared]
    · rw [drop_append_of_le_length hlen]
    · rw [length_drop, hdeclared]
      omega

theorem decode_failed (h : decoder.state = .failed error) (input : List UInt8) :
    decoder.decode input = (.error error, decoder, input) := by
  unfold decode decodeStep
  rw [h]
  simp only
  rw [← h]

theorem holds_withMsize (msize : UInt32) : (withMsize msize).Holds [] :=
  ⟨rfl, front_of_short (by decide)⟩

theorem Holds.shorter {rest : List UInt8} {frame : Frame} (h : decoder.Holds held)
    (hfront : front decoder.msize (held ++ input) = .item frame rest) :
    rest.length < input.length := by
  obtain ⟨hheader, hcomplete, rfl⟩ := front_item hfront
  unfold headerLen at hheader
  have hlt : held.length < (declaredSize (held ++ input)).toNat := by
    rcases lt_or_ge held.length 4 with hshort | hlen
    · omega
    · rw [declaredSize_append hlen]
      exact (h.checked hlen).2
  rw [length_append] at hcomplete
  rw [length_drop, length_append]
  omega

theorem decode_cases (h : decoder.Holds held) (input : List UInt8) :
    (front decoder.msize (held ++ input) = .waits ∧
      ∃ after, decoder.decode input = (.ok none, after, []) ∧ after.msize = decoder.msize ∧
        after.Holds (held ++ input)) ∨
    (∃ error after rest, front decoder.msize (held ++ input) = .refused error ∧
      decoder.decode input = (.error error, after, rest) ∧ after.state = .failed error) ∨
    (∃ frame after rest, front decoder.msize (held ++ input) = .item frame rest ∧
      decoder.decode input = (.ok (some frame), after, rest) ∧ after.msize = decoder.msize ∧
      after.Holds [] ∧ rest.length < input.length) := by
  have hstep := decodeStep_follows h input
  generalize hdecoded : decoder.decodeStep input = decoded at hstep
  obtain ⟨answer, after, rest⟩ := decoded
  unfold decode
  rw [hdecoded]
  cases hfront : front decoder.msize (held ++ input) with
  | waits =>
    rw [hfront] at hstep
    obtain ⟨rfl, hmsize, hstate, rfl⟩ := hstep
    refine .inl ⟨rfl, after, rfl, hmsize, hstate, ?_⟩
    rw [show after.msize = decoder.msize from hmsize, hfront]
  | refused error =>
    rw [hfront] at hstep
    obtain ⟨rfl, hmsize⟩ := hstep
    exact .inr (.inl ⟨error, _, rest, rfl, rfl, rfl⟩)
  | item frame left =>
    rw [hfront] at hstep
    obtain ⟨rfl, hmsize, hstate, rfl⟩ := hstep
    refine .inr (.inr ⟨frame, after, rest, rfl, rfl, hmsize, ⟨hstate, ?_⟩, ?_⟩)
    · exact front_of_short (by decide)
    · exact h.shorter hfront

/-- The frames of one piece of input, and the state it leaves, are those of the stream. -/
theorem drain_follows {fuel : Nat} (h : decoder.Holds held) (hfuel : input.length < fuel) :
    (drain fuel decoder input).1 = (scan (front decoder.msize) (held ++ input)).out ∧
      match (scan (front decoder.msize) (held ++ input)).result with
      | .ok rest => (drain fuel decoder input).2.msize = decoder.msize ∧
          (drain fuel decoder input).2.Holds rest
      | .error error => (drain fuel decoder input).2.state = .failed error := by
  induction fuel generalizing decoder held input with
  | zero => omega
  | succ fuel ih =>
    obtain ⟨hfront, after, hdecode, hmsize, hafter⟩ |
      ⟨error, after, rest, hfront, hdecode, hstate⟩ |
      ⟨frame, after, rest, hfront, hdecode, hmsize, hafter, hlen⟩ := decode_cases h input
    · rw [drain, hdecode, scan_of_waits hfront]
      exact ⟨rfl, hmsize, hafter⟩
    · rw [drain, hdecode, scan_of_refused hfront]
      exact ⟨rfl, hstate⟩
    · have hrest := ih hafter (show rest.length < fuel by omega)
      rw [nil_append, hmsize] at hrest
      rw [drain, hdecode, scan_of_item (front_stable _) hfront]
      exact ⟨congrArg (frame :: ·) hrest.1, hrest.2⟩

theorem readAll_failed (h : decoder.state = .failed error) (chunks : List (List UInt8)) :
    decoder.readAll chunks = ([], decoder) := by
  induction chunks with
  | nil => rfl
  | cons chunk chunks ih =>
    rw [readAll, read, drain, decode_failed h]
    simp only [ih, append_nil]

/-- However the stream is cut, its frames and the state it leaves are the same. -/
theorem readAll_follows (h : decoder.Holds held) (chunks : List (List UInt8)) :
    (decoder.readAll chunks).1 = (scan (front decoder.msize) (held ++ chunks.flatten)).out ∧
      match (scan (front decoder.msize) (held ++ chunks.flatten)).result with
      | .ok rest => (decoder.readAll chunks).2.msize = decoder.msize ∧
          (decoder.readAll chunks).2.Holds rest
      | .error error => (decoder.readAll chunks).2.state = .failed error := by
  induction chunks generalizing decoder held with
  | nil =>
    rw [flatten_nil, append_nil, scan_of_waits h.waits]
    exact ⟨rfl, rfl, h⟩
  | cons chunk chunks ih =>
    have hread := drain_follows h (Nat.lt_succ_self chunk.length)
    rw [flatten_cons, ← append_assoc, scan_append (front_stable _) (held ++ chunk)]
    rw [readAll, read]
    cases hscan : scan (front decoder.msize) (held ++ chunk) with
    | mk out result =>
      rw [hscan] at hread
      obtain ⟨hout, hstate⟩ := hread
      cases result with
      | error error =>
        have hlater := readAll_failed hstate chunks
        simp only [hlater, append_nil]
        exact ⟨hout, hstate⟩
      | ok rest =>
        obtain ⟨hmsize, hholds⟩ := hstate
        have hlater := ih hholds
        rw [hmsize] at hlater
        exact ⟨congrArg₂ (· ++ ·) hout hlater.1, hlater.2⟩

/-! ## What is retained -/

theorem Holds.failure (h : decoder.Holds held) : decoder.failure = none := by
  rw [FrameDecoder.failure, h.state, stateOf]
  split_ifs <;> rfl

theorem Holds.retainedLen (h : decoder.Holds held) : decoder.retainedLen = held.length := by
  unfold FrameDecoder.retainedLen
  rw [h.state, stateOf]
  split_ifs with hlen
  · rfl
  · simp only [length_drop]
    omega

/-- An unfinished message is shorter than `msize`, unless its size is not complete. -/
theorem Holds.retainedLen_le (h : decoder.Holds held) :
    decoder.retainedLen ≤ max 3 decoder.msize.toNat := by
  rw [h.retainedLen]
  rcases lt_or_ge held.length 4 with hshort | hlen
  · omega
  · obtain ⟨hsize, hshort⟩ := h.checked hlen
    obtain ⟨-, -, hmsize⟩ := checkSize_eq_ok.1 hsize
    have hle : (declaredSize held).toNat ≤ decoder.msize.toNat := hmsize
    omega

/-- The decoder after some calls of `decode`, each with its own input. -/
def calls (decoder : FrameDecoder) (inputs : List (List UInt8)) : FrameDecoder :=
  inputs.foldl (fun decoder input => (decoder.decode input).2.1) decoder

/-- After any calls the decoder holds an unfinished message or has failed. -/
theorem calls_holds_or_failed (h : decoder.Holds held) (inputs : List (List UInt8)) :
    (∃ error, (decoder.calls inputs).state = .failed error) ∨
      ∃ held, (decoder.calls inputs).Holds held ∧ (decoder.calls inputs).msize = decoder.msize := by
  induction inputs using List.reverseRecOn with
  | nil => exact .inr ⟨held, h, rfl⟩
  | append_singleton inputs input ih =>
    have hcalls : decoder.calls (inputs ++ [input]) =
        ((decoder.calls inputs).decode input).2.1 := by
      simp [calls]
    rw [hcalls]
    obtain ⟨error, hfailed⟩ | ⟨held, hholds, hmsize⟩ := ih
    · rw [decode_failed hfailed]
      exact .inl ⟨error, hfailed⟩
    · obtain ⟨-, after, hdecode, hafter, hheld⟩ | ⟨error, after, rest, -, hdecode, hstate⟩ |
        ⟨frame, after, rest, -, hdecode, hafter, hheld, -⟩ := decode_cases hholds input
      · rw [hdecode]
        exact .inr ⟨_, hheld, hafter.trans hmsize⟩
      · rw [hdecode]
        exact .inl ⟨error, hstate⟩
      · rw [hdecode]
        exact .inr ⟨_, hheld, hafter.trans hmsize⟩

theorem retainedLen_calls_le (msize : UInt32) (inputs : List (List UInt8)) :
    ((withMsize msize).calls inputs).retainedLen ≤ max 3 msize.toNat := by
  obtain ⟨error, hfailed⟩ | ⟨held, hholds, hmsize⟩ :=
    calls_holds_or_failed (holds_withMsize msize) inputs
  · rw [FrameDecoder.retainedLen, hfailed]
    exact Nat.zero_le _
  · have hle := hholds.retainedLen_le
    rwa [hmsize] at hle

/-! ## The end of the stream -/

theorem Holds.isIdle_iff (h : decoder.Holds held) : decoder.isIdle = true ↔ held = [] := by
  rw [isIdle, decide_eq_true_iff, h.state, stateOf]
  split_ifs with hlen
  · simp
  · have hheld : held ≠ [] := by
      intro hnil
      subst hnil
      exact hlen (by decide)
    simp [hheld]

theorem Holds.fin (h : decoder.Holds held) :
    decoder.fin.1 = if held = [] then .ok () else .error .truncatedBody := by
  rw [FrameDecoder.fin, h.failure]
  by_cases hheld : held = []
  · simp [h.isIdle_iff.2 hheld, hheld]
  · have hidle : decoder.isIdle = false := by
      rw [Bool.eq_false_iff]
      exact fun hidle => hheld (h.isIdle_iff.1 hidle)
    simp [hidle, hheld]

/-- A decoder yields the frames of the stream cut at its declared sizes, and the error of the
first message that is refused, however the stream arrives. It keeps that error for good.
Otherwise it holds what is left of the stream, which is an unfinished message, and the end of
the stream is an error exactly when there is one. And what is accepted is what is written. -/
theorem stream_decodes_as_messages (msize : UInt32) :
    (∀ chunks : List (List UInt8),
      ((withMsize msize).readAll chunks).1 = (scan (front msize) chunks.flatten).out ∧
      (∀ error, (scan (front msize) chunks.flatten).result = .error error →
        (∀ input, (((withMsize msize).readAll chunks).2.decode input).1 = .error error) ∧
          ((withMsize msize).readAll chunks).2.fin.1 = .error error) ∧
      (∀ rest, (scan (front msize) chunks.flatten).result = .ok rest →
        ((withMsize msize).readAll chunks).2.failure = none ∧
          ((withMsize msize).readAll chunks).2.retainedLen = rest.length ∧
          ((withMsize msize).readAll chunks).2.fin.1 =
            if rest = [] then .ok () else .error .truncatedBody)) ∧
    (∀ inputs, ((withMsize msize).calls inputs).retainedLen ≤ max 3 msize.toNat) ∧
    ∀ bytes frame, decodeExact bytes msize = .ok frame ↔ frame.toBytes msize = .ok bytes := by
  refine ⟨fun chunks => ?_, retainedLen_calls_le msize, fun _ _ => decodeExact_eq_ok⟩
  obtain ⟨hframes, hstate⟩ := readAll_follows (holds_withMsize msize) chunks
  refine ⟨hframes, fun error herror => ?_, fun rest hrest => ?_⟩
  · have hfailed : ((withMsize msize).readAll chunks).2.state = .failed error := by
      rw [nil_append, show (withMsize msize).msize = msize from rfl, herror] at hstate
      exact hstate
    exact ⟨fun input => by rw [decode_failed hfailed], by simp [fin, failure, hfailed]⟩
  · have hholds : ((withMsize msize).readAll chunks).2.Holds rest := by
      rw [nil_append, show (withMsize msize).msize = msize from rfl, hrest] at hstate
      exact hstate.2
    exact ⟨hholds.failure, hholds.retainedLen, hholds.fin⟩

/-- Under an `msize` of zero a byte is retained. A declared size of three, cut off, is too
short for `decodeExact`, and the decoder refuses the size itself. And a complete message
whose body is too short makes the end of the stream an error. -/
theorem decoder_departs_from_pieces :
    ((withMsize 0).calls [[1]]).retainedLen = 1 ∧
      decodeExact [3, 0, 0] 65536 = .error .truncatedBody ∧
      ((withMsize 65536).decode [3, 0, 0, 0]).1 = .error .frameBelowHeader ∧
      declaredSize [7, 0, 0, 0, 12, 0, 0] = 7 ∧
      ((withMsize 65536).readAll [[7, 0, 0, 0, 12, 0, 0]]).2.fin.1 = .error .truncatedBody :=
  ⟨rfl, rfl, rfl, rfl, rfl⟩

end FrameDecoder

end AgentUplink.NineP
