/-
The journal of one control attempt.

A request is journaled under its message identifier before its effects are applied,
and every reply to it is recorded before it is sent. An identical retry finds the
entry and is answered from it. Entries are kept until the attempt's deadline, and
requests and replies share one byte budget.

Sizes are those of a 64-bit target.
-/
import AgentUplink.Lib.Trace
import AgentUplink.Lib.Weakest
import AgentUplink.Protocol.RotationControl

namespace AgentUplink

open Machine Fallible Std

/-- The sizes of an entry and of its key, and 64 bytes for the tree. -/
def entryOverhead : Nat := 56 + 24 + 64

/-- The size of a response record, and 32 bytes. -/
def responseOverhead : Nat := 48 + 32

def maxJournalEntries : Nat := 128

def maxJournalBytes : Nat := 4 * 1024 * 1024

inductive Observation
  | new
  | pendingDuplicate
  | completedDuplicate
  deriving DecidableEq

inductive JournalError
  | invalidLimits
  | expired
  | clockReversed
  | invalidIdentifier
  | oversizedMessage
  | capacity
  | conflictingMessage
  | missingMessage
  | conflictingResponse
  deriving DecidableEq

structure ResponseRecord where
  responseId : String
  bytes : List UInt8

structure JournalEntry where
  fingerprint : List UInt8
  responses : List ResponseRecord

structure ControlJournal where
  entries : ExtTreeMap String JournalEntry
  maxEntries : Nat
  maxBytes : Nat
  usedBytes : Nat
  responseItems : Nat
  lastNow : Nat
  deadline : Nat

abbrev Journaling := EStateM JournalError ControlJournal

namespace ControlJournal

def new (maxEntries maxBytes now deadline : Nat) : Except JournalError ControlJournal :=
  if maxEntries = 0 ∨ maxEntries > maxJournalEntries ∨
      ¬ (entryOverhead ≤ maxBytes ∧ maxBytes ≤ maxJournalBytes) ∨ deadline ≤ now then
    .error .invalidLimits
  else
    .ok { entries := ∅, maxEntries, maxBytes, usedBytes := 0, responseItems := 0, lastNow := now,
          deadline }

/-- A clock that reaches the deadline is noted before the call is refused. -/
def checkTime (now : Nat) : Journaling Unit := do
  let s ← get
  failIf (now < s.lastNow) .clockReversed
  modify fun s => { s with lastNow := now }
  failIf (now ≥ s.deadline) .expired

variable (messageId : String)

def observe [Sha256] (canonical : List UInt8) (now : Nat) :
    Journaling Observation := do
  checkTime now
  failIf (messageId.isEmpty ∨ messageId.utf8ByteSize > maxIdentifierBytes) .invalidIdentifier
  failIf (canonical.isEmpty ∨ canonical.length > maxControlMessageBytes) .oversizedMessage
  let fingerprint := Sha256.digest canonical
  let s ← get
  match s.entries[messageId]? with
  | some entry =>
    failIf (entry.fingerprint ≠ fingerprint) .conflictingMessage
    return if entry.responses.isEmpty then .pendingDuplicate else .completedDuplicate
  | none =>
    let charge := entryOverhead + messageId.utf8ByteSize
    failIf (s.entries.size ≥ s.maxEntries ∨ charge > s.maxBytes - s.usedBytes) .capacity
    modify fun s =>
      { s with
        entries := s.entries.insert messageId { fingerprint, responses := [] }
        usedBytes := s.usedBytes + charge }
    return .new

/-- The end of the two ways to record a reply: the item and byte budgets are checked, the
entry is fetched again, and the record goes behind the replies it has. -/
def pushResponse (record : ResponseRecord) (charge : Nat) :
    Journaling Unit := do
  let s ← get
  failIf (s.responseItems ≥ s.maxEntries ∨ charge > s.maxBytes - s.usedBytes) .capacity
  let entry ← orFail s.entries[messageId]? .missingMessage
  modify fun s =>
    { s with
      entries := s.entries.insert messageId { entry with responses := entry.responses ++ [record] }
      usedBytes := s.usedBytes + charge
      responseItems := s.responseItems + 1 }

/-- Record the only reply. An empty one records a transition that has none. -/
def complete (response : List UInt8) (now : Nat) : Journaling Unit := do
  checkTime now
  failIf (response.length > maxControlMessageBytes) .oversizedMessage
  let s ← get
  let entry ← orFail s.entries[messageId]? .missingMessage
  match entry.responses.head? with
  | some previous =>
    failIf (¬ (previous.responseId.isEmpty ∧ previous.bytes = response)) .conflictingResponse
  | none => do
    let charge ← orFail (checkedAdd responseOverhead response.length) .capacity
    pushResponse messageId { responseId := "", bytes := response } charge

/-- Record one reply of a progressive request. -/
def appendResponse (responseId : String) (response : List UInt8) (now : Nat) :
    Journaling Unit := do
  checkTime now
  failIf (responseId.isEmpty ∨ responseId.utf8ByteSize > maxIdentifierBytes) .invalidIdentifier
  failIf (response.length > maxControlMessageBytes) .oversizedMessage
  let s ← get
  let entry ← orFail s.entries[messageId]? .missingMessage
  match entry.responses.find? (fun previous => previous.responseId = responseId) with
  | some previous => failIf (previous.bytes ≠ response) .conflictingResponse
  | none => do
    let charge ← orFail ((checkedAdd responseOverhead responseId.utf8ByteSize).bind
      fun charge => checkedAdd charge response.length) .capacity
    pushResponse messageId { responseId, bytes := response } charge

def response (now : Nat) : Journaling (Option (List UInt8)) := do
  checkTime now
  let s ← get
  let entry ← orFail s.entries[messageId]? .missingMessage
  return entry.responses.head?.map ResponseRecord.bytes

def responses (messageId : String) (now : Nat) : Journaling (Option (List (List UInt8))) := do
  checkTime now
  let s ← get
  let entry ← orFail s.entries[messageId]? .missingMessage
  if entry.responses.isEmpty then return none
  return some (entry.responses.map ResponseRecord.bytes)

/-! ## Calls -/

inductive Op
  | observe (messageId : String) (canonical : List UInt8) (now : Nat)
  | complete (messageId : String) (bytes : List UInt8) (now : Nat)
  | appendResponse (messageId responseId : String) (bytes : List UInt8) (now : Nat)
  | response (messageId : String) (now : Nat)
  | responses (messageId : String) (now : Nat)

inductive Answer
  | observed (observation : Observation)
  | recorded
  | reply (bytes : Option (List UInt8))
  | replies (bytes : Option (List (List UInt8)))

variable [Sha256]

def Op.exec : Op → Journaling Answer
  | observe messageId canonical now =>
    Answer.observed <$> ControlJournal.observe messageId canonical now
  | complete messageId bytes now =>
    (fun _ => .recorded) <$> ControlJournal.complete messageId bytes now
  | appendResponse messageId responseId bytes now =>
    (fun _ => .recorded) <$> ControlJournal.appendResponse messageId responseId bytes now
  | response messageId now => Answer.reply <$> ControlJournal.response messageId now
  | responses messageId now => Answer.replies <$> ControlJournal.responses messageId now

def Op.next (op : Op) (s : ControlJournal) : ControlJournal := stateOf (op.exec.run s)

structure Call where
  op : Op
  answer : Except JournalError Answer

def Op.call (op : Op) (s : ControlJournal) : Call where
  op := op
  answer :=
    match op.exec.run s with
    | .ok answer _ => .ok answer
    | .error e _ => .error e

def run (s : ControlJournal) (ops : List Op) : ControlJournal := Trace.run Op.next s ops

def history (s : ControlJournal) (ops : List Op) : List Call :=
  Trace.events Op.next (fun op s => some (op.call s)) s ops

end ControlJournal

end AgentUplink
