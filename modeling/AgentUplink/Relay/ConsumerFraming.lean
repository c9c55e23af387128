/-
Bounded public record framing.

A public stream carries length-prefixed records: a four-byte big-endian body
length followed by the body. `ConsumerRecordLimit` holds the two decisions
every ingress path shares. `ConsumerRecordAssembler` buffers records and hands
out complete bodies. `ConsumerRecordCursor` watches a stream it only forwards,
holding back an incomplete length prefix until the prefix can be decided.

A `usize` is a natural number and its saturating additions are explicit. The
four-byte prefix buffer of the cursor is one buffer for every record it sees,
as in the source.
-/
import AgentUplink.Lib.Machine
import AgentUplink.Lib.Fallible
import AgentUplink.Lib.Incremental

namespace AgentUplink

open Machine Fallible Incremental

def recordPrefixLen : Nat := 4

inductive ConsumerRecordRejection
  | declaredLengthExceedsLimit (declared limit : Nat)
  | inputExceedsLimit (buffered incoming limit : Nat)

def ConsumerRecordRejection.phase : ConsumerRecordRejection → String
  | .declaredLengthExceedsLimit _ _ => "consumer_record_declared_limit"
  | .inputExceedsLimit _ _ _ => "consumer_record_input_limit"

def u32FromBeBytes (b : Vector UInt8 recordPrefixLen) : Nat :=
  ((b[0].toNat * 256 + b[1].toNat) * 256 + b[2].toNat) * 256 + b[3].toNat

structure ConsumerRecordLimit where
  maxBody : Nat

namespace ConsumerRecordLimit

variable (l : ConsumerRecordLimit)

/-- Largest admissible complete record, its length prefix included. -/
def maxRecord : Nat := saturatingAdd l.maxBody recordPrefixLen

/-- May `incoming` bytes join `buffered` unconsumed bytes of the current record? -/
def admitInput (buffered incoming : Nat) :
    Except ConsumerRecordRejection Unit :=
  if saturatingAdd buffered incoming > l.maxRecord then
    .error (.inputExceedsLimit buffered incoming l.maxRecord)
  else .ok ()

/-- Does a complete length prefix declare an admissible body? -/
def admitPrefix (b : Vector UInt8 recordPrefixLen) :
    Except ConsumerRecordRejection Nat :=
  if u32FromBeBytes b > l.maxBody then
    .error (.declaredLengthExceedsLimit (u32FromBeBytes b) l.maxBody)
  else .ok (u32FromBeBytes b)

end ConsumerRecordLimit

/-! ## The buffering assembler -/

structure ConsumerRecordAssembler where
  limit : ConsumerRecordLimit
  input : List UInt8

namespace ConsumerRecordAssembler

def new (l : ConsumerRecordLimit) : ConsumerRecordAssembler := ⟨l, []⟩

def peekDeclared (a : ConsumerRecordAssembler) : Except ConsumerRecordRejection (Option Nat) :=
  match a.input with
  | b0 :: b1 :: b2 :: b3 :: _ => (a.limit.admitPrefix #v[b0, b1, b2, b3]).map some
  | _ => .ok none

def push (bytes : List UInt8) : EStateM ConsumerRecordRejection ConsumerRecordAssembler Unit := do
  let a ← get
  check (a.limit.admitInput a.input.length bytes.length)
  modify fun a => { a with input := a.input ++ bytes }
  let a ← get
  let _ ← check a.peekDeclared

def nextBody : EStateM ConsumerRecordRejection ConsumerRecordAssembler (Option (List UInt8)) := do
  let a ← get
  match ← check a.peekDeclared with
  | none => return none
  | some declared =>
    let total := declared + recordPrefixLen
    if a.input.length < total then return none
    else
      modify fun a => { a with input := a.input.drop total }
      return some ((a.input.take total).drop recordPrefixLen)

/-- The dispatch loop of the owner: bodies are taken until none is complete. Each
one frees at least its prefix, so the buffered bytes bound the rounds. -/
def drain : Nat → ConsumerRecordAssembler →
    Outcome (List UInt8) ConsumerRecordRejection ConsumerRecordAssembler
  | 0, a => .quiet a
  | fuel + 1, a =>
    match nextBody.run a with
    | .error e _ => ⟨[], .error e⟩
    | .ok none a' => .quiet a'
    | .ok (some body) a' => (⟨[body], .ok a'⟩ : Outcome _ _ _).andThen (drain fuel)

/-- One frame at the owner: push it, then dispatch what it completed. -/
def dispatch (a : ConsumerRecordAssembler) (frame : List UInt8) :
    Outcome (List UInt8) ConsumerRecordRejection ConsumerRecordAssembler :=
  (Outcome.ofCall (fun _ => []) ((push frame).run a)).andThen fun a => a.drain (a.input.length + 1)

end ConsumerRecordAssembler

/-! ## The pass-through cursor -/

structure ConsumerRecordCursor where
  limit : ConsumerRecordLimit
  prefixBytes : Vector UInt8 recordPrefixLen
  prefixLen : Nat
  declared : Nat
  bodyRemaining : Nat

/-- Overwrite the bytes of `buf` from `start` on with `chunk`. -/
def copyFromSlice {n : Nat} (buf : Vector UInt8 n) (start : Nat) (chunk : List UInt8) :
    Vector UInt8 n :=
  Vector.ofFn fun i : Fin n =>
    if start ≤ i ∧ i < start + chunk.length then chunk.getD (i - start) 0 else buf[i]

namespace ConsumerRecordCursor

def new (l : ConsumerRecordLimit) : ConsumerRecordCursor :=
  ⟨l, Vector.replicate recordPrefixLen 0, 0, 0, 0⟩

def buffered (c : ConsumerRecordCursor) : Nat :=
  if c.bodyRemaining > 0 then recordPrefixLen + (c.declared - c.bodyRemaining) else c.prefixLen

/-- The bytes of an incomplete prefix, held until the prefix completes. -/
def held (c : ConsumerRecordCursor) : List UInt8 := c.prefixBytes.toList.take c.prefixLen

/-- One round of the loop of `forward`: pass body bytes, or copy prefix bytes and
decide the prefix they complete. The round answers the new offset and the new
end of the forwardable bytes. -/
def forwardRound (frame : List UInt8) (offset forwardableEnd : Nat) :
    EStateM ConsumerRecordRejection ConsumerRecordCursor (Nat × Nat) := do
  let c ← get
  if c.bodyRemaining > 0 then
    let taken := min c.bodyRemaining (frame.length - offset)
    set { c with bodyRemaining := c.bodyRemaining - taken }
    return (offset + taken, offset + taken)
  else
    let taken := min (recordPrefixLen - c.prefixLen) (frame.length - offset)
    set { c with
      prefixBytes := copyFromSlice c.prefixBytes c.prefixLen ((frame.drop offset).take taken)
      prefixLen := c.prefixLen + taken }
    let c ← get
    if c.prefixLen = recordPrefixLen then
      let declared ← check (c.limit.admitPrefix c.prefixBytes)
      modify fun c => { c with declared := declared, bodyRemaining := declared, prefixLen := 0 }
      return (offset + taken, offset + taken)
    else return (offset + taken, forwardableEnd)

/-- The loop of `forward`, which answers the end of the forwardable bytes. Every
round moves the offset, so the frame's length bounds the rounds. -/
def forwardLoop (frame : List UInt8) :
    Nat → Nat → Nat → EStateM ConsumerRecordRejection ConsumerRecordCursor Nat
  | 0, _, forwardableEnd => return forwardableEnd
  | fuel + 1, offset, forwardableEnd =>
    if offset < frame.length then do
      let (offset, forwardableEnd) ← forwardRound frame offset forwardableEnd
      forwardLoop frame fuel offset forwardableEnd
    else return forwardableEnd

/-- Validate one frame and answer the bytes that may be forwarded now. The held
bytes are read back from the prefix buffer after the loop. -/
def forward (frame : List UInt8) :
    EStateM ConsumerRecordRejection ConsumerRecordCursor (List UInt8) := do
  let c ← get
  check (c.limit.admitInput c.buffered frame.length)
  let heldAtEntry := c.prefixLen
  let forwardableEnd ← forwardLoop frame frame.length 0 0
  let c ← get
  if forwardableEnd = 0 then return []
  else return c.prefixBytes.toList.take heldAtEntry ++ frame.take forwardableEnd

def relay (c : ConsumerRecordCursor) (frame : List UInt8) :
    Outcome (List UInt8) ConsumerRecordRejection ConsumerRecordCursor :=
  Outcome.ofCall (fun out => [out]) ((forward frame).run c)

end ConsumerRecordCursor

end AgentUplink
