import AgentUplink.Http.Head
import AgentUplink.Lib.Incremental

/-!
# The receiving side of an exchange

A direction is one head record, body records, an end record and the end of the stream. The
decoder cuts records out of input that arrives in pieces of any size. The reader checks each
record from its header alone, before a payload byte is read, and keeps its first error.
-/

open Machine Incremental

namespace AgentUplink.Http

/-! ## Records out of a byte stream -/

inductive RecordEvent
  | header (header : RecordHeader)
  | head (payload : List UInt8)
  | body (data : List UInt8) (recordDone : Bool)

inductive DecoderState
  /-- The bytes of the header that have arrived. -/
  | header (buf : List UInt8)
  /-- The bytes of a head's payload that have arrived. -/
  | head (header : RecordHeader) (buf : List UInt8)
  | body (header : RecordHeader) (remaining : Nat)
  | failed (error : CodecError)

namespace RecordDecoder

def afterHeader (header : RecordHeader) : DecoderState :=
  match header.kind with
  | .requestHead | .responseHead => .head header []
  | .body => .body header header.payloadLen
  | .finished => .header []

/-- Decode at most one event from the front of the input. -/
def decode (state : DecoderState) (input : List UInt8) :
    Except CodecError (Option RecordEvent) × DecoderState × List UInt8 :=
  match state with
  | .failed error => (.error error, .failed error, input)
  | .header buf =>
    if input = [] then (.ok none, .header buf, input)
    else
      let take := min (recordHeaderLen - buf.length) input.length
      let buf := buf ++ input.take take
      let input := input.drop take
      if buf.length < recordHeaderLen then (.ok none, .header buf, input)
      else match RecordHeader.decode buf with
        | .error error => (.error error, .failed error, input)
        | .ok header => (.ok (some (.header header)), afterHeader header, input)
  | .head header buf =>
    if input = [] then (.ok none, .head header buf, input)
    else
      let take := min (header.payloadLen - buf.length) input.length
      let buf := buf ++ input.take take
      let input := input.drop take
      if buf.length < header.payloadLen then (.ok none, .head header buf, input)
      else (.ok (some (.head buf)), .header [], input)
  | .body header remaining =>
    if input = [] then (.ok none, .body header remaining, input)
    else
      let take := min remaining input.length
      let data := input.take take
      let input := input.drop take
      let remaining := remaining - take
      let recordDone := remaining = 0
      (.ok (some (.body data recordDone)),
        if recordDone then .header [] else .body header remaining, input)

def isIdle : DecoderState → Bool
  | .header buf => buf.isEmpty
  | _ => false

end RecordDecoder

/-! ## The order of the records -/

inductive Direction
  | request
  | response
  deriving DecidableEq

def Direction.headKind : Direction → RecordKind
  | request => .requestHead
  | response => .responseHead

inductive Phase
  | awaitHead
  | body
  | awaitFin
  | complete
  | interrupted
  | failed (error : CodecError)
  deriving DecidableEq

inductive Raw
  | head (payload : List UInt8)
  | body (data : List UInt8)
  | finished

structure Core where
  direction : Direction
  decoder : DecoderState
  phase : Phase
  declared : Option UInt64
  received : Nat
  limit : Nat
  zeroBody : Bool

namespace Core

def new (direction : Direction) (limit : Nat) : Core where
  direction
  decoder := .header []
  phase := .awaitHead
  declared := none
  received := 0
  limit
  zeroBody := false

variable (core : Core)

def fail (error : CodecError) : Core :=
  { core with phase := .failed error, decoder := .failed error }

def checkBodyRecord (header : RecordHeader) : Except CodecError Unit :=
  if core.zeroBody then .error .bodyForbidden
  else match checkedAdd core.received header.payloadLen with
    | none => .error .bodyLimitExceeded
    | some after =>
      if core.declared.any fun declared => after > declared.toNat then
        .error .bodyLongerThanDeclared
      else if after > core.limit then .error .bodyLimitExceeded
      else .ok ()

def checkEnd : Except CodecError Unit :=
  match core.declared with
  | some declared =>
    if core.received < declared.toNat then .error .bodyShorterThanDeclared
    else if core.received > declared.toNat then .error .bodyLongerThanDeclared
    else .ok ()
  | none => .ok ()

/-- Whether a record may come now; an end record moves the reader on. -/
def onHeader (header : RecordHeader) : Except CodecError (Option Raw) × Core :=
  let refuse (error : CodecError) := (.error error, core.fail error)
  if (header.kind = .requestHead ∨ header.kind = .responseHead) ∧
      header.kind ≠ core.direction.headKind then refuse .wrongDirectionHead
  else match core.phase, header.kind with
    | .awaitHead, .body => refuse .bodyBeforeHead
    | .awaitHead, .finished => refuse .endBeforeHead
    | .awaitHead, _ => (.ok none, core)
    | .body, .body =>
      match core.checkBodyRecord header with
      | .ok () => (.ok none, core)
      | .error error => refuse error
    | .body, .finished =>
      match core.checkEnd with
      | .ok () => (.ok (some .finished), { core with phase := .awaitFin })
      | .error error => refuse error
    | .body, _ => refuse .secondHead
    -- the other phases never reach the decoder
    | _, _ => refuse .afterTerminal

/-- What a byte after the end record is refused with. -/
def afterEnd (first : UInt8) : CodecError :=
  match RecordKind.fromCode first with
  | .ok .finished => .repeatedEnd
  | .ok .body => .bodyAfterEnd
  | .ok kind => if kind = core.direction.headKind then .secondHead else .wrongDirectionHead
  | .error _ => .dataAfterEnd

/-- The rounds of `next`: a header that is accepted leads on to its payload. -/
def nextFor : Nat → Core → List UInt8 → Except CodecError (Option Raw) × Core × List UInt8
  -- not reached: every round but the last takes a header
  | 0, core, input => (.ok none, core, input)
  | fuel + 1, core, input =>
    match RecordDecoder.decode core.decoder input with
    | (.error error, _, input) => (.error error, core.fail error, input)
    | (.ok none, decoder, input) => (.ok none, { core with decoder }, input)
    | (.ok (some (.header header)), decoder, input) =>
      match ({ core with decoder } : Core).onHeader header with
      | (.error error, core) => (.error error, core, input)
      | (.ok (some raw), core) => (.ok (some raw), core, input)
      | (.ok none, core) => nextFor fuel core input
    | (.ok (some (.head payload)), decoder, input) =>
      (.ok (some (.head payload)), { core with decoder }, input)
    | (.ok (some (.body data _)), decoder, input) =>
      match checkedAdd core.received data.length with
      | none => (.error .bodyLimitExceeded, core.fail .bodyLimitExceeded, input)
      | some received => (.ok (some (.body data)), { core with decoder, received }, input)

variable (core : Core)

def next (input : List UInt8) :
    Except CodecError (Option Raw) × Core × List UInt8 :=
  match core.phase with
  | .failed error => (.error error, core, input)
  | .complete | .interrupted =>
    if input = [] then (.ok none, core, input) else (.error .afterTerminal, core, input)
  | .awaitFin =>
    match input with
    | [] => (.ok none, core, input)
    | first :: _ => (.error (core.afterEnd first), core.fail (core.afterEnd first), input)
  | .awaitHead | .body => nextFor (input.length + 1) core input

def acceptHead (declared : Option UInt64) (zeroBody : Bool) :
    Except CodecError Unit × Core :=
  if declared.any fun length => length.toNat > core.limit then
    (.error .declaredLengthExceedsLimit, core.fail .declaredLengthExceedsLimit)
  else (.ok (), { core with declared, zeroBody, phase := .body })

def fin : Except CodecError Unit × Core :=
  match core.phase with
  | .awaitFin => (.ok (), { core with phase := .complete })
  | .awaitHead | .body =>
    let error := if RecordDecoder.isIdle core.decoder then .finBeforeEnd else .eofInsideRecord
    (.error error, core.fail error)
  | .complete | .interrupted => (.error .afterTerminal, core)
  | .failed error => (.error error, core)

def reset : Core :=
  match core.phase with
  | .awaitHead | .body | .awaitFin => { core with phase := .interrupted }
  | _ => core

def abort (error : CodecError) : Core :=
  match core.phase with
  | .awaitHead | .body | .awaitFin => core.fail error
  | _ => core

end Core

/-! ## Requests and responses -/

inductive Event (H : Type)
  | head (head : H)
  | body (data : List UInt8)
  | finished

/-- What the readers of the two directions differ in. -/
structure Profile (H : Type) where
  direction : Direction
  limit : Nat
  bounded : limit ≤ maxBodyLimit
  parseHead : List UInt8 → Except CodecError H
  bodyLength : H → Option UInt64
  zeroBody : H → Bool

namespace Profile

variable {H : Type} (profile : Profile H)

def new : Core := Core.new profile.direction profile.limit

def read (core : Core) (input : List UInt8) :
    Except CodecError (Option (Event H)) × Core × List UInt8 :=
  match core.next input with
  | (.error error, core, input) => (.error error, core, input)
  | (.ok none, core, input) => (.ok none, core, input)
  | (.ok (some (.head payload)), core, input) =>
    match profile.parseHead payload with
    | .error error => (.error error, core.fail error, input)
    | .ok head =>
      match core.acceptHead (profile.bodyLength head) (profile.zeroBody head) with
      | (.error error, core) => (.error error, core, input)
      | (.ok (), core) => (.ok (some (.head head)), core, input)
  | (.ok (some (.body data)), core, input) => (.ok (some (.body data)), core, input)
  | (.ok (some .finished), core, input) => (.ok (some .finished), core, input)

/-- A caller's loop over one piece of input: read until the input is exhausted. -/
def drain : Nat → Core → List UInt8 → Outcome (Event H) CodecError Core
  | 0, core, _ => .quiet core
  | fuel + 1, core, input =>
    match profile.read core input with
    | (.error error, _, _) => ⟨[], .error error⟩
    | (.ok none, core, _) => .quiet core
    | (.ok (some event), core, input) =>
      Outcome.andThen ⟨[event], .ok core⟩ fun core => drain fuel core input

def feed (core : Core) (chunk : List UInt8) : Outcome (Event H) CodecError Core :=
  profile.drain (chunk.length + 1) core chunk

/-- One piece of input after the other, up to the first error. -/
def feedAll (chunks : List (List UInt8)) : Outcome (Event H) CodecError Core :=
  run profile.feed profile.new chunks

end Profile

/-- The owner to device receiver. -/
def RequestReader.profile (policy : RequestPolicy) : Profile RequestHead where
  direction := .request
  limit := policy.bodyLimit
  bounded := policy.bounded
  parseHead payload := parseRequestHead payload policy
  bodyLength := RequestHead.bodyLength
  zeroBody _ := false

/-- The device to owner receiver; a response to HEAD has no body. -/
def ResponseReader.profile (policy : ResponsePolicy) (requestMethod : Method) :
    Profile ResponseHead where
  direction := .response
  limit := policy.bodyLimit
  bounded := policy.bounded
  parseHead payload := parseResponseHead payload policy requestMethod
  bodyLength := ResponseHead.bodyLength
  zeroBody head := requiresZeroBody requestMethod head.status

end AgentUplink.Http
