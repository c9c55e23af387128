/-
Everything an operation can do to the machine.

`Move now s t` lists the changes of state there are, each with what the source
has checked before it makes the change. `s` is the state once the time of the
call has been observed. The operations are read once, in the next module, to
show that each of them makes a move; every invariant is then proved by going
through the moves.
-/
import AgentUplink.Lib.Weakest
import AgentUplink.Rotation.Operations

namespace AgentUplink

open Machine Fallible

/-! ## Facts behind a passed check -/

/-- What a validated identity says about the carrier it replaces. -/
structure RotationState.Names (s : RotationState) (identity : RotationAttemptIdentity)
    (oldGeneration : Nat) (oldConnectionId : String) : Prop where
  oldGeneration : identity.oldGeneration = oldGeneration
  oldConnectionId : identity.oldConnectionId = oldConnectionId
  advances : identity.oldGeneration < identity.newGeneration
  aboveWatermark : s.generationHighWatermark < identity.newGeneration
  fresh : identity.newConnectionId ≠ identity.oldConnectionId

structure AttemptState.New (a : AttemptState) (identity : RotationAttemptIdentity) (now : Nat)
    (config : RotationConfig) (cap : Option Nat) : Prop where
  eq : a = { identity, startedAtMs := now, handshakeDeadlineMs := a.handshakeDeadlineMs,
             overlapDeadlineMs := a.overlapDeadlineMs }
  handshake_le : a.handshakeDeadlineMs ≤ now + config.handshakeTimeoutMs
  overlap_le : a.overlapDeadlineMs ≤ now + config.overlapTimeoutMs
  cap_le : ∀ c, cap = some c → a.handshakeDeadlineMs ≤ c ∧ a.overlapDeadlineMs ≤ c
  lt_overlap : now < a.overlapDeadlineMs

/-- What a fence snapshot recorded for a direction is. -/
structure FenceOf (roster : StreamRoster) (d : Direction) (f : FenceSnapshot) : Prop where
  snapshotId : f.snapshotId = roster.snapshotId
  streamIds : f.entries.map StreamFence.streamId = roster.streamIds
  direction : ∀ e ∈ f.entries, e.direction = d

/-- What a drain proof recorded for a direction proves about its fences. -/
structure ProofOf [Sha256] (roster : StreamRoster) (d : Direction) (f : FenceSnapshot)
    (proof : DrainProof) : Prop where
  snapshotId : proof.snapshotId = roster.snapshotId
  direction : proof.direction = d
  digest : f.digest = .ok proof.fenceDigest
  acks : validateAckCursors f proof = .ok ()

theorem names_of_validate {s : RotationState} {identity : RotationAttemptIdentity}
    {generation : Nat} {connectionId : String}
    (h : s.validateAttemptIdentity identity generation connectionId = .ok ()) :
    s.Names identity generation connectionId := by
  simp only [RotationState.validateAttemptIdentity, except_bind_eq_ok, ite_error_eq_ok] at h
  obtain ⟨_, _, _, _, _, _, _, _, _, _, _, hcarrier, hgeneration, hwatermark, hfresh, _⟩ := h
  rw [not_or, not_not, not_not] at hcarrier
  exact ⟨hcarrier.1, hcarrier.2, not_le.1 hgeneration, not_le.1 hwatermark, hfresh⟩

theorem new_of_newWithDeadline {now : Nat} {identity : RotationAttemptIdentity}
    {config : RotationConfig} {cap : Option Nat} {a : AttemptState}
    (h : AttemptState.newWithDeadline identity now config cap = .ok a) :
    a.New identity now config cap := by
  unfold AttemptState.newWithDeadline at h
  split at h
  · next handshake overlap hhandshake hoverlap =>
    obtain ⟨-, rfl⟩ := checkedAdd_eq_some.1 hhandshake
    obtain ⟨-, rfl⟩ := checkedAdd_eq_some.1 hoverlap
    obtain ⟨hlate, rfl⟩ := ite_error_ok.1 h
    cases cap with
    | none => exact ⟨rfl, le_refl _, le_refl _, by simp, not_le.1 hlate⟩
    | some c =>
      refine ⟨rfl, min_le_left _ _, min_le_left _ _, ?_, not_le.1 hlate⟩
      intro c' hc
      cases hc
      exact ⟨min_le_right _ _, min_le_right _ _⟩
  · cases h

theorem digest_of_digestForSnapshot [Sha256] {f : FenceSnapshot} {digest : String}
    (h : digestForSnapshot f = .ok digest) : f.digest = .ok digest := by
  unfold digestForSnapshot at h
  cases hd : f.digest with
  | error e =>
    rw [hd] at h
    cases h
  | ok d =>
    rw [hd] at h
    cases h
    rfl

/-! ## Moves -/

structure Starts (now : Nat) (s : RotationState) (identity : RotationAttemptIdentity)
    (cap : Option Nat) (t : RotationState) : Prop where
  phase : s.phase = .active
  names : s.Names identity s.activeGeneration s.activeConnectionId
  unused : identity.newConnectionId ∉ s.usedConnectionIds
  room : s.usedConnectionIds.card < maxConnectionIdHistory
  new : ∃ a : AttemptState, a.New identity now s.config cap ∧
    t = (s.claimed identity.newConnectionId).started a

structure Recovers (now : Nat) (s : RotationState) (identity : RotationAttemptIdentity)
    (roster : StreamRoster) (reason : RecoveryReason) (deadline : Nat) (t : RotationState) :
    Prop where
  phase : s.phase = .active ∨ s.phase = .recovering
  names : s.Names identity s.recoveryAnchor.1 s.recoveryAnchor.2
  rosterOk : validateRoster roster s.config.maxRosterEntries = .ok ()
  inTime : s.validateRecoveryDeadline now deadline = .ok deadline
  released : s.allocatedConnections = ∅
  attempts : s.recoveryAttempts < maxRecoveryAttempts
  unused : identity.newConnectionId ∉ s.usedConnectionIds
  room : s.usedConnectionIds.card < maxConnectionIdHistory
  new : ∃ a : AttemptState, a.New identity now s.config (some deadline) ∧
    t = (s.claimed identity.newConnectionId).recoveryBegun
      { a with isRecoveryAttempt := true, roster := some roster, recoveryReason := some reason }
      deadline

structure Commits (now : Nat) (s : RotationState) (identity : RotationAttemptIdentity)
    (t : RotationState) : Prop where
  phase : s.phase = .committing
  sent : ∃ a, s.attempt = some a ∧ a.identity = identity ∧ now < a.overlapDeadlineMs ∧
    a.drained.full = true ∧ t = s.withAttempt { a with commitSent := true }

/-- The socket of a recovery candidate is reserved. -/
structure Reserves (now : Nat) (s t : RotationState) : Prop where
  phase : s.phase = .recovering
  released : s.allocatedConnections = ∅
  episode : s.recoveryEpisodeDeadline ≠ none
  reserved : ∃ a, s.attempt = some a ∧ a.isRecoveryAttempt = true ∧ now < a.overlapDeadlineMs ∧
    t = { s.withAttempt { a with
        recoverySocketReserved := true, recoverySocketEverReserved := true } with
      allocatedConnections := insert a.identity.newConnectionId s.allocatedConnections }

/-- A recovery candidate takes over. -/
structure Reconciles (now : Nat) (s : RotationState) (identity : RotationAttemptIdentity)
    (t : RotationState) : Prop where
  phase : s.phase = .recovering
  episode : s.recoveryEpisodeDeadline ≠ none
  carriers : s.allocatedConnections.card = 1
  allocated : identity.newConnectionId ∈ s.allocatedConnections
  attempt : ∃ a, s.attempt = some a ∧ a.identity = identity ∧ a.isRecoveryAttempt = true ∧
    now < a.overlapDeadlineMs
  eq : t = s.activated identity.newGeneration identity.newConnectionId

/-- An attempt that has been begun, the time of the call and the deadline given with it. -/
inductive Begun
  | scheduled (identity : RotationAttemptIdentity) (now : Nat) (cap : Option Nat)
  | recovery (identity : RotationAttemptIdentity) (now deadline : Nat)

def Begun.identity : Begun → RotationAttemptIdentity
  | scheduled identity _ _ => identity
  | recovery identity _ _ => identity

/-- One change of state, with what was checked before it and the attempt it begins. -/
inductive Move [Sha256] (now : Nat) (s : RotationState) :
    Option Begun → RotationState → Prop
  | stay : Move now s none s
  | close : Move now s none s.shut
  | exhaust (hphase : s.phase = .active ∨ s.phase = .recovering) : Move now s none s.exhausted
  /-- An attempt reaches its overlap deadline. -/
  | expire {a : AttemptState} (ha : s.attempt = some a) (hnow : a.overlapDeadlineMs ≤ now) :
      Move now s none (s.recovering .deadline)
  | lose (reason : RecoveryReason) (hphase : s.phase ≠ .closed) :
      Move now s none (s.recovering reason)
  /-- The candidate was not ready by the handshake deadline. -/
  | expireHandshake {a : AttemptState} (ha : s.attempt = some a) (hphase : s.phase = .preparing)
      (hnow : a.handshakeDeadlineMs ≤ now) (hbefore : now < a.overlapDeadlineMs) :
      Move now s none { s with phase := .aborting }
  | start {identity : RotationAttemptIdentity} {cap : Option Nat} {t : RotationState}
      (h : Starts now s identity cap t) : Move now s (some (.scheduled identity now cap)) t
  /-- An identifier is used up by an attempt that finds it allocated already. -/
  | waste {connectionId : String} (hmem : connectionId ∈ s.allocatedConnections)
      (hunused : connectionId ∉ s.usedConnectionIds) : Move now s none (s.claimed connectionId)
  | ready {a : AttemptState} (ha : s.attempt = some a) (hphase : s.phase = .preparing)
      (hbefore : now < a.overlapDeadlineMs) :
      Move now s none (s.withAttempt { a with candidateReady := true })
  | quiesce {a : AttemptState} {roster : StreamRoster} (ha : s.attempt = some a)
      (hphase : s.phase = .preparing) (hbefore : now < a.overlapDeadlineMs)
      (hroster : validateRoster roster s.config.maxRosterEntries = .ok ()) :
      Move now s none { s.withAttempt { a with roster := some roster } with phase := .quiescing }
  | freeze {a : AttemptState} {roster : StreamRoster} {f : FenceSnapshot} {d : Direction}
      (ha : s.attempt = some a) (hphase : s.phase = .quiescing)
      (hbefore : now < a.overlapDeadlineMs) (hroster : a.roster = some roster)
      (hf : FenceOf roster d f) (hnone : a.frozen.get d = none) :
      Move now s none { s.withAttempt { a with frozen := a.frozen.set d (some f) } with
        phase := if (a.frozen.set d (some f)).full then .draining else s.phase }
  | drain {a : AttemptState} {roster : StreamRoster} {f : FenceSnapshot} {d : Direction}
      {proof : DrainProof} (ha : s.attempt = some a) (hphase : s.phase = .draining)
      (hbefore : now < a.overlapDeadlineMs) (hroster : a.roster = some roster)
      (hf : a.frozen.get d = some f) (hproof : ProofOf roster d f proof)
      (hnone : a.drained.get d = none) :
      Move now s none { s.withAttempt { a with drained := a.drained.set d (some proof) } with
        phase := if (a.drained.set d (some proof)).full then .committing else s.phase }
  | commit {identity : RotationAttemptIdentity} {t : RotationState}
      (h : Commits now s identity t) : Move now s none t
  | accept {a : AttemptState} (ha : s.attempt = some a) (hphase : s.phase = .committing)
      (hbefore : now < a.overlapDeadlineMs) (hsent : a.commitSent = true) :
      Move now s none { s.withAttempt { a with commitAccepted := true } with phase := .retiring }
  | retire {a : AttemptState} (ha : s.attempt = some a) (hphase : s.phase = .retiring)
      (hbefore : now < a.overlapDeadlineMs) : Move now s none
      (s.withAttempt { a with retireSent := true })
  /-- The old carrier is closed by one side. -/
  | oldClosing {a : AttemptState} {closed : Closures} (forced : Bool) (ha : s.attempt = some a)
      (hphase : s.phase = .retiring) :
      Move now s none { s.withAttempt { a with oldSocketClosed := closed } with
        deadlineForcedRetirement := forced }
  /-- The old carrier is gone and the candidate takes over. -/
  | takeOver {a : AttemptState} (forced missing : Bool) (ha : s.attempt = some a)
      (hphase : s.phase = .retiring) :
      Move now s none { (s.released a.identity.oldConnectionId).activated
        a.identity.newGeneration a.identity.newConnectionId with
        deadlineForcedRetirement := forced, connectorRetirementMissing := missing }
  | forced {a : AttemptState} (ha : s.attempt = some a) (hphase : s.phase = .retiring) :
      Move now s none { s with deadlineForcedRetirement := true }
  | abort {a : AttemptState} {reason : RecoveryReason} (ha : s.attempt = some a)
      (hphase : s.phase = .preparing ∨ s.phase = .quiescing ∨ s.phase = .draining)
      (hbefore : now < a.overlapDeadlineMs)
      (hcommit : a.commitSent = false ∧ a.commitAccepted = false) :
      Move now s none
      { s.withAttempt { a with recoveryReason := some reason } with phase := .aborting }
  /-- The candidate is closed by one side, in time or after the deadline. -/
  | candidateClosing {a : AttemptState} {closed : Closures} (ha : s.attempt = some a)
      (hphase : s.phase = .aborting ∨ s.phase = .recovering)
      (hbefore : s.phase = .aborting → now < a.overlapDeadlineMs) :
      Move now s none (s.withAttempt { a with candidateSocketClosed := closed })
  | candidateClosingLate {a : AttemptState} {closed : Closures} (ha : s.attempt = some a)
      (hphase : s.phase = .aborting ∨ s.phase = .recovering)
      (hnow : a.overlapDeadlineMs ≤ now) :
      Move now s none
      ((s.withAttempt { a with candidateSocketClosed := closed }).recovering .deadline)
  | candidateLost {a : AttemptState} (closed : Closures) (ha : s.attempt = some a)
      (hphase : s.phase = .recovering)
      (hreserved : a.isRecoveryAttempt → a.recoverySocketReserved) :
      Move now s none ((s.released a.identity.newConnectionId).withAttempt
        { a with
          candidateSocketClosed := closed
          recoverySocketReserved :=
            if a.isRecoveryAttempt then false else a.recoverySocketReserved })
  /-- The candidate of an aborted attempt is gone after the deadline. -/
  | abortedLate {a : AttemptState} {closed : Closures} (ha : s.attempt = some a)
      (hphase : s.phase = .aborting) (hnow : a.overlapDeadlineMs ≤ now) :
      Move now s none (((s.released a.identity.newConnectionId).withAttempt
        { a with candidateSocketClosed := closed }).recovering .deadline)
  /-- The candidate of an aborted attempt is gone in time. -/
  | aborted {a : AttemptState} (ha : s.attempt = some a) (hphase : s.phase = .aborting)
      (hbefore : now < a.overlapDeadlineMs) :
      Move now s none ((s.released a.identity.newConnectionId).activated
        s.activeGeneration s.activeConnectionId)
  | recover {identity : RotationAttemptIdentity} {roster : StreamRoster} {reason : RecoveryReason}
      {deadline : Nat} {t : RotationState} (h : Recovers now s identity roster reason deadline t) :
      Move now s (some (.recovery identity now deadline)) t
  | reserve {t : RotationState} (h : Reserves now s t) : Move now s none t
  | release {connectionId : String} (hphase : s.phase = .recovering)
      (hmem : connectionId ∈ s.allocatedConnections) :
      Move now s none { s.released connectionId with
        attempt := s.attempt.map fun attempt =>
          if attempt.isRecoveryAttempt ∧ connectionId = attempt.identity.newConnectionId then
            { attempt with recoverySocketReserved := false }
          else attempt }
  | reconcile {identity : RotationAttemptIdentity} {t : RotationState}
      (h : Reconciles now s identity t) : Move now s none t

end AgentUplink
