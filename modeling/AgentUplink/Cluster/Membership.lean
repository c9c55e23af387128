/-
Signed relay membership.

A checkpoint names the nodes of a deployment and the least record version of each, a
record names the keys of one node, and both are signed for a time. Of the checkpoints
and of the records of each node a relay retains the highest version it has accepted, or
was told to fence when it was restarted.

The clock is an argument of every call. What the libraries do is a parameter: the JSON
of the signed values, signatures and their encoding, and which instants there are.
-/
import AgentUplink.Lib.Fallible
import AgentUplink.Lib.Ledger
import AgentUplink.Lib.Trace

namespace AgentUplink.Cluster

open Fallible Std

inductive MembershipError
  | invalidPolicy (text : String)
  | malformedJson (text : String)
  | serialization (text : String)
  | recordTooLarge (size max : Nat)
  | nonCanonicalEncoding
  | unsupportedSchemaVersion (version : Nat)
  | deploymentMismatch
  | incarnationMismatch
  | invalidIdentifier (label : String)
  | invalidVersion
  | roleNotAllowed
  | endpointNotAllowed (text : String)
  | invalidTime
  | invalidTimeWindow
  | lifetimeExceeded
  | issuedInFuture
  | notYetValid
  | expired
  | invalidNonce
  | checkpointNonceMismatch
  | checkpointRequired
  | checkpointReplay
  | checkpointVersionRollback (highest received : Nat)
  | checkpointEqualVersionConflict (version : Nat)
  | versionRollback (nodeId : String) (highest received : Nat)
  | equalVersionConflict (nodeId : String) (version : Nat)
  | versionBelowCheckpoint (nodeId : String) (minimum received : Nat)
  | nodeNotInCheckpoint (nodeId : String)
  | nodeLimit (max : Nat)
  | keyCountExceeded (max : Nat)
  | duplicateRelayKey (keyId : String)
  | relayKeysUnordered
  | invalidSpkiDigest (keyId : String)
  | invalidRelayKeyWindow (keyId : String)
  | noUsableRelayKey
  | peerNodeMismatch
  | peerKeyMismatch
  | duplicatePublisherKey (keyId : String)
  | unknownPublisherKey (keyId : String)
  | invalidSignatureEncoding
  | signatureInvalid
  deriving DecidableEq

/-! ## Records

Instants and durations are in nanoseconds. -/

structure RelayKey where
  keyId : String
  spkiSha256 : String
  notBefore : Int
  expiresAt : Int
  revoked : Bool

structure MembershipRecord where
  schemaVersion : Nat
  deploymentId : String
  deploymentIncarnation : String
  nodeId : String
  recordVersion : Nat
  roles : List String
  peerEndpoint : String
  serverName : String
  keys : List RelayKey
  issuedAt : Int
  notBefore : Int
  expiresAt : Int

structure MembershipCheckpoint where
  schemaVersion : Nat
  deploymentId : String
  deploymentIncarnation : String
  checkpointVersion : Nat
  nonce : String
  minimumVersions : ExtTreeMap String Nat
  issuedAt : Int
  notBefore : Int
  expiresAt : Int

/-- A record or a checkpoint on the wire. -/
structure Signed (α : Type) where
  body : α
  publisherKeyId : String
  signature : String

/-- The JSON of a signed value; `signingBytes` has every member but the signature. -/
structure Codec (α : Type) where
  decode : List UInt8 → Except String (Signed α)
  encode : Signed α → Except String (List UInt8)
  signingBytes : Signed α → Except String (List UInt8)

structure Library where
  memberships : Codec MembershipRecord
  checkpoints : Codec MembershipCheckpoint
  decodeBase64 : String → Option (List UInt8)
  encodeBase64 : List UInt8 → String
  verifyEd25519 : (publicKey message signature : List UInt8) → Bool
  firstInstant : Int
  lastInstant : Int

/-- Which endpoints a record may name, and whether the policy itself is a valid one. -/
structure PrivateEndpointPolicy where
  validate : Except MembershipError Unit
  validateEndpoint : (endpoint serverName : String) → Except MembershipError Unit

structure MembershipPolicy where
  deploymentId : String
  deploymentIncarnation : String
  endpointPolicy : PrivateEndpointPolicy
  maxRecordLifetime : Int
  maxClockSkew : Int

/-! ## Checks -/

def rejectIf (c : Prop) [Decidable c] (error : MembershipError) : Except MembershipError Unit :=
  if c then .error error else .ok ()

def orReject {α : Type} (o : Option α) (error : MembershipError) : Except MembershipError α :=
  match o with
  | some a => .ok a
  | none => .error error

def maxAuthorizedNodes : Nat := 32

def second : Int := 1000000000

/-- Whether the text has ASCII control characters or white space. -/
def hasBlank (value : String) : Bool :=
  value.toList.any fun c => c.toNat ≤ 0x20 || c.toNat == 0x7F

def validateIdentifier (label value : String) : Except MembershipError Unit :=
  if value = "" ∨ 128 < value.utf8ByteSize ∨ hasBlank value = true then
    .error (.invalidIdentifier label)
  else .ok ()

def validateNonce (nonce : String) : Except MembershipError Unit :=
  if nonce.utf8ByteSize < 16 ∨ 128 < nonce.utf8ByteSize ∨
      nonce.toList.all (fun c => c.isAlphanum || ['-', '_', '.'].contains c) = false then
    .error .invalidNonce
  else .ok ()

/-- 64 lower-case hexadecimal digits. -/
def isSpkiDigest (value : String) : Bool :=
  value.utf8ByteSize == 64 && value.toList.all fun c => c.isDigit || ('a' ≤ c && c ≤ 'f')

def MembershipPolicy.validate (policy : MembershipPolicy) : Except MembershipError Unit := do
  validateIdentifier "deployment id" policy.deploymentId
  validateIdentifier "deployment incarnation" policy.deploymentIncarnation
  rejectIf (policy.maxRecordLifetime ≤ 0 ∨ 60 * second < policy.maxRecordLifetime)
    (.invalidPolicy "record lifetime must be in 1..=60 seconds")
  rejectIf (policy.maxClockSkew < 0 ∨ 5 * second < policy.maxClockSkew)
    (.invalidPolicy "clock skew must be in 0..=5 seconds")
  policy.endpointPolicy.validate

section Validation

variable (lib : Library)

def Library.checkedAdd (instant duration : Int) : Option Int :=
  if lib.firstInstant ≤ instant + duration ∧ instant + duration ≤ lib.lastInstant then
    some (instant + duration)
  else none

def Library.shifted (instant duration : Int) : Except MembershipError Int :=
  orReject (lib.checkedAdd instant duration) .invalidTime

def validateWindow (issuedAt notBefore expiresAt now maxLifetime skew : Int) :
    Except MembershipError Unit := do
  rejectIf (expiresAt < issuedAt ∨ expiresAt < notBefore) .invalidTimeWindow
  rejectIf (maxLifetime < expiresAt - issuedAt) .lifetimeExceeded
  let latestIssued ← lib.shifted now skew
  rejectIf (latestIssued < issuedAt) .issuedInFuture
  let earliest ← lib.shifted now (-skew)
  let earliestNotBefore ← lib.shifted notBefore (-skew)
  rejectIf (now < earliestNotBefore) .notYetValid
  if expiresAt < now then
    let latest ← lib.shifted expiresAt skew
    rejectIf (latest < now) .expired
  rejectIf (expiresAt < earliest) .expired

/-- The loop over the keys of a record, after the keys `seen`, the last one first. -/
def checkKeys (now skew : Int) (seen : List RelayKey) (hasCurrent : Bool) :
    List RelayKey → Except MembershipError Bool
  | [] => .ok hasCurrent
  | key :: keys => do
    validateIdentifier "relay key id" key.keyId
    rejectIf (key.keyId ∈ seen.map (·.keyId)) (.duplicateRelayKey key.keyId)
    rejectIf (isSpkiDigest key.spkiSha256 = false) (.invalidSpkiDigest key.keyId)
    rejectIf (key.expiresAt < key.notBefore) (.invalidRelayKeyWindow key.keyId)
    if let some previous := seen.head? then
      rejectIf (key.notBefore < previous.notBefore) .relayKeysUnordered
      rejectIf (key.notBefore = previous.notBefore ∧ ¬ previous.keyId < key.keyId)
        .relayKeysUnordered
    let latest ← lib.shifted now skew
    let earliest ← lib.shifted now (-skew)
    let current := !key.revoked && key.notBefore ≤ latest && earliest ≤ key.expiresAt
    checkKeys now skew (key :: seen) (hasCurrent || current) keys

def validateKeys (keys : List RelayKey) (now skew : Int) : Except MembershipError Unit := do
  rejectIf (keys = [] ∨ 2 < keys.length) (.keyCountExceeded 2)
  let hasCurrent ← checkKeys lib now skew [] false keys
  rejectIf (hasCurrent = false) .noUsableRelayKey

def validateMembershipShape (record : MembershipRecord) (policy : MembershipPolicy)
    (now maxLifetime maxSkew : Int) : Except MembershipError Unit := do
  rejectIf (record.schemaVersion ≠ 1) (.unsupportedSchemaVersion record.schemaVersion)
  rejectIf (record.deploymentId ≠ policy.deploymentId) .deploymentMismatch
  rejectIf (record.deploymentIncarnation ≠ policy.deploymentIncarnation) .incarnationMismatch
  validateIdentifier "node id" record.nodeId
  rejectIf (record.recordVersion = 0) .invalidVersion
  rejectIf (record.roles ≠ ["relay_peer"]) .roleNotAllowed
  policy.endpointPolicy.validateEndpoint record.peerEndpoint record.serverName
  validateWindow lib record.issuedAt record.notBefore record.expiresAt now maxLifetime maxSkew
  validateKeys lib record.keys now maxSkew

def validateCheckpointShape (checkpoint : MembershipCheckpoint) (policy : MembershipPolicy)
    (expectedNonce : String) (now maxLifetime maxSkew : Int) : Except MembershipError Unit := do
  rejectIf (checkpoint.schemaVersion ≠ 1) (.unsupportedSchemaVersion checkpoint.schemaVersion)
  rejectIf (checkpoint.deploymentId ≠ policy.deploymentId) .deploymentMismatch
  rejectIf (checkpoint.deploymentIncarnation ≠ policy.deploymentIncarnation)
    .incarnationMismatch
  rejectIf (checkpoint.checkpointVersion = 0) .invalidVersion
  validateNonce checkpoint.nonce
  validateNonce expectedNonce
  rejectIf (checkpoint.nonce ≠ expectedNonce) .checkpointNonceMismatch
  rejectIf (maxAuthorizedNodes < checkpoint.minimumVersions.size)
    (.nodeLimit maxAuthorizedNodes)
  checkpoint.minimumVersions.toList.forM fun (nodeId, minimum) => do
    validateIdentifier "node id" nodeId
    rejectIf (minimum = 0) .invalidVersion
  validateWindow lib checkpoint.issuedAt checkpoint.notBefore checkpoint.expiresAt now
    maxLifetime maxSkew

def verifySignature (publisherKeys : ExtTreeMap String (List UInt8)) (keyId : String)
    (message : List UInt8) (encodedSignature : String) : Except MembershipError Unit := do
  validateIdentifier "publisher key id" keyId
  let publicKey ← orReject (publisherKeys[keyId]?) (.unknownPublisherKey keyId)
  let signature ← orReject (lib.decodeBase64 encodedSignature) .invalidSignatureEncoding
  rejectIf (signature.length ≠ 64) .invalidSignatureEncoding
  rejectIf (lib.encodeBase64 signature ≠ encodedSignature) .invalidSignatureEncoding
  rejectIf (lib.verifyEd25519 publicKey message signature = false) .signatureInvalid

variable {α : Type} (codec : Codec α)

def decodeSigned (bytes : List UInt8) : Except MembershipError (Signed α) :=
  if 16 * 1024 < bytes.length then .error (.recordTooLarge bytes.length (16 * 1024))
  else (codec.decode bytes).mapError .malformedJson

/-- The bytes are the canonical ones of the value, and signed by a publisher. -/
def authenticate (publisherKeys : ExtTreeMap String (List UInt8)) (signed : Signed α)
    (bytes : List UInt8) : Except MembershipError Unit := do
  let canonical ← (codec.encode signed).mapError .serialization
  rejectIf (canonical ≠ bytes) .nonCanonicalEncoding
  let message ← (codec.signingBytes signed).mapError .serialization
  verifySignature lib publisherKeys signed.publisherKeyId message signed.signature

end Validation

/-! ## Bindings -/

structure VerifiedPeerBinding where
  nodeId : String
  bootId : String
  keyId : String
  spkiSha256 : String
  peerEndpoint : String
  serverName : String
  validUntil : Int

structure VerifiedCheckpoint where
  checkpoint : MembershipCheckpoint
  publisherKeyId : String
  signedBytes : List UInt8

structure VerifiedMembership where
  record : MembershipRecord
  publisherKeyId : String
  signedBytes : List UInt8
  activationSkew : Int

namespace VerifiedMembership

variable (lib : Library) (self : VerifiedMembership)

def activated (notBefore now : Int) : Bool :=
  notBefore ≤ (lib.checkedAdd now self.activationSkew).getD now

def keyWindowOpen (key : RelayKey) (now : Int) : Bool :=
  self.activated lib key.notBefore now && now ≤ key.expiresAt

/-- The first key of the record that is in use and has the presented digest. -/
def matchingKey (presentedSpkiSha256 : String) (now : Int) : Option RelayKey :=
  self.record.keys.find? fun key =>
    !key.revoked && self.keyWindowOpen lib key now && key.spkiSha256 == presentedSpkiSha256

def bindPeer (nodeId bootId presentedSpkiSha256 : String) (now : Int) :
    Except MembershipError VerifiedPeerBinding := do
  validateIdentifier "node id" nodeId
  validateIdentifier "boot id" bootId
  rejectIf (nodeId ≠ self.record.nodeId) .peerNodeMismatch
  rejectIf (isSpkiDigest presentedSpkiSha256 = false) .peerKeyMismatch
  rejectIf (self.activated lib self.record.notBefore now = false) .notYetValid
  rejectIf (self.record.expiresAt ≤ now) .expired
  let key ← orReject (self.matchingKey lib presentedSpkiSha256 now) .peerKeyMismatch
  return {
    nodeId := self.record.nodeId, bootId := bootId, keyId := key.keyId
    spkiSha256 := key.spkiSha256, peerEndpoint := self.record.peerEndpoint
    serverName := self.record.serverName
    validUntil := if self.record.expiresAt < key.expiresAt then self.record.expiresAt
      else key.expiresAt }

end VerifiedMembership

/-! ## The verifier -/

/-- A version with what is known of it; a fence is a version alone. -/
structure Retained (α : Type) where
  version : Nat
  signedBytes : Option (List UInt8)
  verified : Option α

structure MembershipVerifier where
  policy : MembershipPolicy
  publisherKeys : ExtTreeMap String (List UInt8)
  highestMemberships : ExtTreeMap String (Retained VerifiedMembership)
  highestCheckpoint : Option (Retained VerifiedCheckpoint)
  lastCheckpointNonce : Option String

namespace MembershipVerifier

def collectKeys (keys : ExtTreeMap String (List UInt8)) :
    List (String × List UInt8) → Except MembershipError (ExtTreeMap String (List UInt8))
  | [] => .ok keys
  | (keyId, publicKey) :: trusted => do
    validateIdentifier "publisher key id" keyId
    rejectIf (keyId ∈ keys) (.duplicatePublisherKey keyId)
    collectKeys (keys.insert keyId publicKey) trusted

def new (policy : MembershipPolicy) (trusted : List (String × List UInt8)) :
    Except MembershipError MembershipVerifier := do
  policy.validate
  let keys ← collectKeys ∅ trusted
  rejectIf (keys.size = 0 ∨ maxAuthorizedNodes < keys.size)
    (.invalidPolicy "at least one and at most 32 publisher keys are required")
  return ⟨policy, keys, ∅, none, none⟩

variable (lib : Library) (self : MembershipVerifier)

def checkNewer (version : Nat) (bytes : List UInt8) : Except MembershipError Unit :=
  match self.highestCheckpoint with
  | some previous => do
    rejectIf (version < previous.version) (.checkpointVersionRollback previous.version version)
    rejectIf (version = previous.version ∧ previous.signedBytes = some bytes) .checkpointReplay
    rejectIf (version = previous.version) (.checkpointEqualVersionConflict version)
  | none => .ok ()

def verifyCheckpoint (bytes : List UInt8) (expectedNonce : String) (now : Int) :
    Except MembershipError (VerifiedCheckpoint × MembershipVerifier) := do
  let signed ← decodeSigned lib.checkpoints bytes
  validateCheckpointShape lib signed.body self.policy expectedNonce now
    self.policy.maxRecordLifetime self.policy.maxClockSkew
  authenticate lib lib.checkpoints self.publisherKeys signed bytes
  rejectIf (self.lastCheckpointNonce = some expectedNonce) .checkpointReplay
  self.checkNewer signed.body.checkpointVersion bytes
  let verified : VerifiedCheckpoint := ⟨signed.body, signed.publisherKeyId, bytes⟩
  return (verified, { self with
    highestCheckpoint := some ⟨signed.body.checkpointVersion, some bytes, some verified⟩
    lastCheckpointNonce := some expectedNonce })

def freshCheckpoint (now : Int) : Except MembershipError VerifiedCheckpoint := do
  let retained ← orReject (self.highestCheckpoint) .checkpointRequired
  let verified ← orReject (retained.verified) .checkpointRequired
  validateWindow lib verified.checkpoint.issuedAt verified.checkpoint.notBefore
    verified.checkpoint.expiresAt now self.policy.maxRecordLifetime self.policy.maxClockSkew
  return verified

/-- The least version of a node that the checkpoint lets pass. -/
def minimumVersion (checkpoint : VerifiedCheckpoint) (nodeId : String) :
    Except MembershipError Nat :=
  orReject checkpoint.checkpoint.minimumVersions[nodeId]? (.nodeNotInCheckpoint nodeId)

/-- The versions decide whether an authentic record is retained. -/
def retainMembership (verified : VerifiedMembership) :
    Except MembershipError (VerifiedMembership × MembershipVerifier) :=
  let nodeId := verified.record.nodeId
  let version := verified.record.recordVersion
  let inserted := { self with highestMemberships :=
    self.highestMemberships.insert nodeId ⟨version, some verified.signedBytes, some verified⟩ }
  match self.highestMemberships[nodeId]? with
  | some previous =>
    if version < previous.version then
      .error (.versionRollback nodeId previous.version version)
    else if version = previous.version then
      match previous.verified with
      | some accepted =>
        if previous.signedBytes = some verified.signedBytes then .ok (accepted, self)
        else .error (.equalVersionConflict nodeId version)
      | none => .error (.equalVersionConflict nodeId version)
    else .ok (verified, inserted)
  | none =>
    if maxAuthorizedNodes ≤ self.highestMemberships.size then
      .error (.nodeLimit maxAuthorizedNodes)
    else .ok (verified, inserted)

def verifyMembership (bytes : List UInt8) (now : Int) :
    Except MembershipError (VerifiedMembership × MembershipVerifier) := do
  let checkpoint ← self.freshCheckpoint lib now
  let signed ← decodeSigned lib.memberships bytes
  validateMembershipShape lib signed.body self.policy now self.policy.maxRecordLifetime
    self.policy.maxClockSkew
  let minimum ← minimumVersion checkpoint signed.body.nodeId
  rejectIf (signed.body.recordVersion < minimum)
    (.versionBelowCheckpoint signed.body.nodeId minimum signed.body.recordVersion)
  authenticate lib lib.memberships self.publisherKeys signed bytes
  self.retainMembership ⟨signed.body, signed.publisherKeyId, bytes, self.policy.maxClockSkew⟩

def bindPeer (nodeId bootId presentedSpkiSha256 : String) (now : Int) :
    Except MembershipError VerifiedPeerBinding := do
  validateIdentifier "node id" nodeId
  let checkpoint ← self.freshCheckpoint lib now
  let minimum ← minimumVersion checkpoint nodeId
  let retained ← orReject (self.highestMemberships[nodeId]?) (.nodeNotInCheckpoint nodeId)
  let verified ← orReject (retained.verified) .checkpointRequired
  rejectIf (retained.version < minimum)
    (.versionBelowCheckpoint nodeId minimum retained.version)
  validateMembershipShape lib verified.record self.policy now self.policy.maxRecordLifetime
    self.policy.maxClockSkew
  let binding ← verified.bindPeer lib nodeId bootId presentedSpkiSha256 now
  return if checkpoint.checkpoint.expiresAt < binding.validUntil then
    { binding with validUntil := checkpoint.checkpoint.expiresAt }
  else binding

/-- The newest checkpoint, unless only its version is known. -/
def newestCheckpoint : Option VerifiedCheckpoint := self.highestCheckpoint.bind (·.verified)

def currentRecord (nodeId : String) : Option VerifiedMembership :=
  self.highestMemberships[nodeId]?.bind (·.verified)

end MembershipVerifier

/-! ## When a binding is in time -/

theorem rejectIf_eq_ok {c : Prop} [Decidable c] {error : MembershipError} {u : Unit} :
    rejectIf c error = .ok u ↔ ¬ c := by
  unfold rejectIf
  by_cases h : c <;> simp [h]

theorem orReject_eq_ok {α : Type} {o : Option α} {error : MembershipError} {a : α} :
    orReject o error = .ok a ↔ o = some a := by
  cases o <;> simp [orReject]

variable {lib : Library} {v : MembershipVerifier} {nodeId bootId spki : String} {now : Int}
  {c : VerifiedCheckpoint} {m : VerifiedMembership} {key : RelayKey} {b : VerifiedPeerBinding}

theorem freshCheckpoint_eq_ok (h : v.freshCheckpoint lib now = .ok c) :
    v.newestCheckpoint = some c := by
  simp only [MembershipVerifier.freshCheckpoint, except_bind_eq_ok, orReject_eq_ok] at h
  obtain ⟨r, hr, c', hc, -, -, heq⟩ := h
  cases heq
  rw [MembershipVerifier.newestCheckpoint, hr]
  exact hc

structure Binds (lib : Library) (v : MembershipVerifier) (nodeId bootId spki : String) (now : Int)
    (c : VerifiedCheckpoint) (m : VerifiedMembership) (key : RelayKey)
    (b : VerifiedPeerBinding) : Prop where
  checkpoint : v.newestCheckpoint = some c
  record : v.currentRecord nodeId = some m
  unexpired : now < m.record.expiresAt
  matched : m.matchingKey lib spki now = some key
  eq : b = ⟨m.record.nodeId, bootId, key.keyId, key.spkiSha256, m.record.peerEndpoint,
    m.record.serverName, min (min m.record.expiresAt key.expiresAt) c.checkpoint.expiresAt⟩

theorem bindPeer_eq_ok (h : v.bindPeer lib nodeId bootId spki now = .ok b) :
    ∃ c m key, Binds lib v nodeId bootId spki now c m key b := by
  simp only [MembershipVerifier.bindPeer, MembershipVerifier.minimumVersion,
    VerifiedMembership.bindPeer, except_bind_eq_ok, orReject_eq_ok, rejectIf_eq_ok] at h
  obtain ⟨-, -, c, hc, minimum, hminimum, r, hr, m, hm, -, hversion, -, -, b', hb', heq⟩ := h
  obtain ⟨-, -, -, -, -, hnode, -, -, -, -, -, hbefore, key, hkey, heq'⟩ := hb'
  cases heq
  cases heq'
  have hrecord : v.currentRecord nodeId = some m := by
    rw [MembershipVerifier.currentRecord, hr]
    exact hm
  refine ⟨c, m, key, freshCheckpoint_eq_ok hc, hrecord, Int.lt_of_not_ge hbefore, hkey, ?_⟩
  have hmin (a b : Int) : (if a < b then a else b) = min a b := by omega
  by_cases hlt : c.checkpoint.expiresAt < min m.record.expiresAt key.expiresAt
  · simp only [hmin, if_pos hlt, Int.min_eq_right (Int.le_of_lt hlt)]
  · simp only [hmin, if_neg hlt, Int.min_eq_left (Int.not_lt.1 hlt)]

/-- The newest checkpoint has not expired, and neither does the key that matches just now. -/
def MembershipVerifier.InTime (lib : Library) (v : MembershipVerifier) (nodeId spki : String)
    (now : Int) : Prop :=
  (∀ c ∈ v.newestCheckpoint, now < c.checkpoint.expiresAt) ∧
    ∀ m ∈ v.currentRecord nodeId, ∀ key ∈ m.matchingKey lib spki now, now ≠ key.expiresAt

/-- A checkpoint is honoured for the clock skew past its expiry and a key at the instant of
its own, so a binding may be over when it is made. -/
theorem binding_unexpired_iff (h : v.bindPeer lib nodeId bootId spki now = .ok b) :
    now < b.validUntil ↔ v.InTime lib nodeId spki now := by
  obtain ⟨c, m, key, hb⟩ := bindPeer_eq_ok h
  have hopen : now ≤ key.expiresAt := by
    have hmatched := List.find?_some hb.matched
    simp only [VerifiedMembership.keyWindowOpen, Bool.and_eq_true, decide_eq_true_eq] at hmatched
    exact hmatched.1.2.2
  have hrecord := hb.unexpired
  rw [MembershipVerifier.InTime, hb.checkpoint, hb.record, hb.eq]
  simp only [Option.mem_some_iff, forall_eq', hb.matched]
  omega

def demoNonce : String := "0123456789abcdef"

def demoDigest : String := String.ofList (List.replicate 64 '0')

/-- A library to run the model with: every text is this checkpoint, or this record. -/
def demoLibrary : Library where
  checkpoints := ⟨fun _ => .ok ⟨⟨1, "d", "i", 1, demoNonce,
    (∅ : ExtTreeMap String Nat).insert "n" 1, 0, 0, 60 * second⟩, "p", ""⟩,
    fun _ => .ok [], fun _ => .ok []⟩
  memberships := ⟨fun _ => .ok ⟨⟨1, "d", "i", "n", 1, ["relay_peer"], "10.0.0.1:8443", "10.0.0.1",
    [⟨"k", demoDigest, 0, 90 * second, false⟩], 10 * second, 10 * second, 70 * second⟩, "p", ""⟩,
    fun _ => .ok [], fun _ => .ok []⟩
  decodeBase64 _ := some (List.replicate 64 0)
  encodeBase64 _ := ""
  verifyEd25519 _ _ _ := true
  firstInstant := -100 * second
  lastInstant := 100 * second

def demoPolicy : MembershipPolicy where
  deploymentId := "d"
  deploymentIncarnation := "i"
  endpointPolicy := ⟨.ok (), fun _ _ => .ok ()⟩
  maxRecordLifetime := 60 * second
  maxClockSkew := 5 * second

/-- A verifier with a checkpoint until 60 seconds and a record until 70. -/
def demoVerifier : Except MembershipError MembershipVerifier := do
  let v ← MembershipVerifier.new demoPolicy [("p", [])]
  let (_, v) ← v.verifyCheckpoint demoLibrary [] demoNonce 0
  let (_, v) ← v.verifyMembership demoLibrary [] (20 * second)
  return v

def demoBinding (now : Int) : Except MembershipError VerifiedPeerBinding :=
  demoVerifier >>= fun v => v.bindPeer demoLibrary "n" "b" demoDigest now

theorem demoBinding_eq_ok (now validUntil : Int)
    (h : (demoBinding now).map (·.validUntil) = .ok validUntil) :
    ∃ v b, demoVerifier = .ok v ∧ v.bindPeer demoLibrary "n" "b" demoDigest now = .ok b ∧
      b.validUntil = validUntil := by
  obtain ⟨b, hrun, hvalid⟩ := except_map_eq_ok.1 h
  obtain ⟨v, hv, hbind⟩ := except_bind_eq_ok.1 hrun
  exact ⟨v, b, hv, hbind, hvalid⟩

theorem binding_unexpired_before_checkpoint :
    ∃ v b, demoVerifier = .ok v ∧
      v.bindPeer demoLibrary "n" "b" demoDigest (30 * second) = .ok b ∧
      v.InTime demoLibrary "n" demoDigest (30 * second) := by
  obtain ⟨v, b, hv, hbind, hvalid⟩ :=
    demoBinding_eq_ok (30 * second) (60 * second) (by decide +kernel)
  refine ⟨v, b, hv, hbind, (binding_unexpired_iff hbind).1 ?_⟩
  rw [hvalid]
  decide

/-- Two seconds past the checkpoint's expiry a peer is bound until that expiry. -/
theorem binding_expired_past_checkpoint :
    ∃ v b, demoVerifier = .ok v ∧
      v.bindPeer demoLibrary "n" "b" demoDigest (62 * second) = .ok b ∧
      ¬ 62 * second < b.validUntil := by
  obtain ⟨v, b, hv, hbind, hvalid⟩ :=
    demoBinding_eq_ok (62 * second) (60 * second) (by decide +kernel)
  refine ⟨v, b, hv, hbind, ?_⟩
  rw [hvalid]
  decide

end AgentUplink.Cluster
