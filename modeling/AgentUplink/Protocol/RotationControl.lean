/-
Wire values of rotation and recovery.

The identity of an attempt, the roster of streams, the fences an endpoint froze
and the proof that the other endpoint drained up to them. A fence snapshot is
referred to by its digest, the hexadecimal hash of its JSON text; the hash is the
one frames are fingerprinted with.

Stream identifiers are 64-bit words, as in the frames. Generations, times and
sequence cursors are natural numbers.
-/
import AgentUplink.Sequence.Stream

namespace AgentUplink

def maxIdentifierBytes : Nat := 256

def maxControlMessageBytes : Nat := 32 * 1024

def maxRotationRosterEntries : Nat := 128

inductive ControlError
  | invalidIdentifier (field : String) (length maximum : Nat)
  | tooManyEntries (field : String) (maximum : Nat)
  | zeroCounter (field : String)
  | mixedFenceDirections
  | unorderedEntries (field : String)
  | invalidDigest (field : String)
  | invalidOwnerFenceLifetime (value : Nat)
  | contextMismatch (field : String)
  | terminalSequenceMismatch (field : String)
  | cursorBeyondFence (field : String)
  | creditExceeded (field : String)
  | terminalWithoutSequence (field : String)
  | invalidCredential (field : String) (length maximum : Nat)
  | invalidRotationPolicy (field reason : String)
  | sameConnection (field : String)
  | generationNotAdvanced (old new : Nat)
  | invalidReplayRange (first through : Nat)
  | invalidRecoveryStage (field : String)
  | messageTooLarge (length maximum : Nat)
  | valueTooLong (field : String) (length maximum : Nat)
  deriving DecidableEq

def isControl (c : Char) : Bool := c.val < 0x20 || (0x7f ≤ c.val && c.val ≤ 0x9f)

def validateId (field value : String) : Except ControlError Unit :=
  if value.isEmpty || value.utf8ByteSize > maxIdentifierBytes || value.toList.any isControl then
    .error (.invalidIdentifier field value.utf8ByteSize maxIdentifierBytes)
  else .ok ()

structure RotationAttemptIdentity where
  sessionId : String
  epoch : Nat
  ownerId : String
  rotationId : String
  oldGeneration : Nat
  newGeneration : Nat
  oldConnectionId : String
  newConnectionId : String
  deriving DecidableEq

/-- The last sequence number a direction of a stream had emitted when it froze. -/
structure StreamFence where
  streamId : UInt64
  direction : Direction
  lastEmitted : Nat
  deriving DecidableEq

structure FenceSnapshot where
  snapshotId : String
  entries : List StreamFence
  deriving DecidableEq

/-- A receiver's cumulative acknowledgement. -/
structure StreamAck where
  streamId : UInt64
  acknowledged : Nat
  deriving DecidableEq

structure DrainProof where
  snapshotId : String
  fenceDigest : String
  direction : Direction
  ackCursors : List StreamAck
  deriving DecidableEq

structure DrainSet where
  relayToConnector : DrainProof
  connectorToRelay : DrainProof

structure StreamRoster where
  snapshotId : String
  streamIds : List UInt64
  deriving DecidableEq

namespace FenceSnapshot

/-- The entries name nonzero streams in increasing order, all in one direction. -/
def validateEntries (direction : Option Direction) (previous : UInt64) :
    List StreamFence → Except ControlError Unit
  | [] => .ok ()
  | entry :: entries =>
    if entry.streamId = 0 then .error (.zeroCounter "stream_id")
    else if direction.any (· ≠ entry.direction) then .error .mixedFenceDirections
    else if entry.streamId ≤ previous then .error (.unorderedEntries "fence_snapshot.entries")
    else validateEntries (some (direction.getD entry.direction)) entry.streamId entries

def validate (f : FenceSnapshot) : Except ControlError Unit := do
  validateId "snapshot_id" f.snapshotId
  if f.entries.length > maxRotationRosterEntries then
    .error (.tooManyEntries "fence_snapshot.entries" maxRotationRosterEntries)
  else validateEntries none 0 f.entries

/-! ## The JSON text -/

def hexDigit (n : Nat) : Char := "0123456789abcdef".toList.getD n '0'

def hexByte (b : UInt8) : String := String.ofList [hexDigit (b.toNat / 16), hexDigit (b.toNat % 16)]

def jsonChar (c : Char) : String :=
  if c = '"' then "\\\""
  else if c = '\\' then "\\\\"
  else if c.val = 0x08 then "\\b"
  else if c.val = 0x09 then "\\t"
  else if c.val = 0x0a then "\\n"
  else if c.val = 0x0c then "\\f"
  else if c.val = 0x0d then "\\r"
  else if c.val < 0x20 then "\\u00" ++ hexByte c.val.toUInt8
  else c.toString

def jsonString (s : String) : String := "\"" ++ String.join (s.toList.map jsonChar) ++ "\""

def directionName : Direction → String
  | .relayToConnector => "relay_to_connector"
  | .connectorToRelay => "connector_to_relay"

/-- Counters are decimal strings. -/
def jsonFence (e : StreamFence) : String :=
  "\x7b\"stream_id\":" ++ jsonString (toString e.streamId.toNat) ++
    ",\"direction\":" ++ jsonString (directionName e.direction) ++
    ",\"last_emitted\":" ++ jsonString (toString e.lastEmitted) ++ "\x7d"

def json (f : FenceSnapshot) : String :=
  "\x7b\"snapshot_id\":" ++ jsonString f.snapshotId ++
    ",\"entries\":[" ++ String.intercalate "," (f.entries.map jsonFence) ++ "]\x7d"

/-- The reference a drain proof makes to a validated snapshot. -/
def digest [Sha256] (f : FenceSnapshot) : Except ControlError String := do
  f.validate
  return String.join ((Sha256.digest f.json.toUTF8.data.toList).map hexByte)

end FenceSnapshot

end AgentUplink
