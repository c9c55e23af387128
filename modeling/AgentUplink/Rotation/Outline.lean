/-
The outline of a move.

Most moves only record something in the attempt under way. What happens to the
carriers, to the generations and to the deadlines is the same for all of them, so
the invariants about these go through the few outlines below and not through all
the moves.
-/
import AgentUplink.Rotation.Runs

namespace AgentUplink

/-- What the whole life of an attempt leaves as it was. -/
structure AttemptState.Continues (a b : AttemptState) : Prop where
  identity : b.identity = a.identity
  startedAtMs : b.startedAtMs = a.startedAtMs
  handshakeDeadlineMs : b.handshakeDeadlineMs = a.handshakeDeadlineMs
  overlapDeadlineMs : b.overlapDeadlineMs = a.overlapDeadlineMs
  isRecoveryAttempt : b.isRecoveryAttempt = a.isRecoveryAttempt

theorem AttemptState.Continues.refl (a : AttemptState) : a.Continues a := ⟨rfl, rfl, rfl, rfl, rfl⟩

theorem AttemptState.Continues.trans {a b c : AttemptState} (hab : a.Continues b)
    (hbc : b.Continues c) : a.Continues c where
  identity := hbc.identity.trans hab.identity
  startedAtMs := hbc.startedAtMs.trans hab.startedAtMs
  handshakeDeadlineMs := hbc.handshakeDeadlineMs.trans hab.handshakeDeadlineMs
  overlapDeadlineMs := hbc.overlapDeadlineMs.trans hab.overlapDeadlineMs
  isRecoveryAttempt := hbc.isRecoveryAttempt.trans hab.isRecoveryAttempt

/-- What changes only when an attempt begins or ends. -/
structure RotationState.Settled (s t : RotationState) : Prop where
  config : t.config = s.config
  activeGeneration : t.activeGeneration = s.activeGeneration
  activeConnectionId : t.activeConnectionId = s.activeConnectionId
  generationHighWatermark : t.generationHighWatermark = s.generationHighWatermark
  usedConnectionIds : t.usedConnectionIds = s.usedConnectionIds
  recoveryEpisodeDeadline : t.recoveryEpisodeDeadline = s.recoveryEpisodeDeadline
  recoveryAttempts : t.recoveryAttempts = s.recoveryAttempts

/-- The phases an attempt goes through. Only before the commit decision can it be
aborted, and recovery does not lead back. -/
def RotationPhase.leadsTo : RotationPhase → RotationPhase → Bool
  | .preparing, .preparing | .preparing, .quiescing | .preparing, .aborting => true
  | .quiescing, .quiescing | .quiescing, .draining | .quiescing, .aborting => true
  | .draining, .draining | .draining, .committing | .draining, .aborting => true
  | .committing, .committing | .committing, .retiring => true
  | .retiring, .retiring => true
  | .aborting, .aborting => true
  | _, .recovering => true
  | _, _ => false

theorem RotationPhase.leadsTo_recovering (p : RotationPhase) : p.leadsTo .recovering = true := by
  cases p <;> rfl

theorem RotationPhase.eq_recovering_of_leadsTo {p q : RotationPhase} (h : p.leadsTo q = true)
    (hp : p = .recovering) : q = .recovering := by
  subst hp
  cases q <;> first | rfl | exact absurd h nofun

theorem RotationPhase.open_of_leadsTo {p q : RotationPhase} (h : p.leadsTo q = true) :
    q ≠ .active ∧ q ≠ .closed := by
  refine ⟨?_, ?_⟩ <;> (intro hq; subst hq; cases p <;> exact absurd h nofun)

/-- The attempt `a` under way in `s` goes on as `b` in `t`. -/
structure GoesOn (s t : RotationState) (a b : AttemptState) : Prop where
  before : s.attempt = some a
  after : t.attempt = some b
  same : a.Continues b
  settled : s.Settled t
  phase : s.phase.leadsTo t.phase = true

/-- A carrier is closed while the attempt goes on. -/
structure Releases (s t : RotationState) (a b : AttemptState) (connectionId : String) : Prop
    extends GoesOn s t a b where
  ends : t.phase = .recovering
  allocated : t.allocatedConnections = s.allocatedConnections.erase connectionId
  scheduled : a.isRecoveryAttempt = false → b.recoverySocketReserved = a.recoverySocketReserved
  recovery : a.isRecoveryAttempt = true → s.phase = .recovering → b.recoverySocketReserved =
    (a.recoverySocketReserved && connectionId ≠ a.identity.newConnectionId)

inductive Outline (now : Nat) (s : RotationState) : Option Begun → RotationState → Prop
  | stay : Outline now s none s
  | close (reason : Option RotationTerminalReason) :
      Outline now s none { s.shut with terminalReason := reason }
  /-- The carriers stay. -/
  | goOn {t : RotationState} {a b : AttemptState} (h : GoesOn s t a b)
      (hallocated : t.allocatedConnections = s.allocatedConnections)
      (hreserved : b.recoverySocketReserved = a.recoverySocketReserved) : Outline now s none t
  | release {t : RotationState} {a b : AttemptState} {connectionId : String}
      (h : Releases s t a b connectionId) : Outline now s none t
  /-- The active carrier is lost with no attempt under way, and later closed. -/
  | lose (hnone : s.attempt = none) (hphase : s.phase ≠ .closed) :
      Outline now s none { s with phase := .recovering }
  | free (connectionId : String) (hnone : s.attempt = none) (hphase : s.phase = .recovering) :
      Outline now s none (s.released connectionId)
  | start {identity : RotationAttemptIdentity} {cap : Option Nat} {t : RotationState}
      (h : Starts now s identity cap t) : Outline now s (some (.scheduled identity now cap)) t
  | waste {connectionId : String} (hmem : connectionId ∈ s.allocatedConnections)
      (hunused : connectionId ∉ s.usedConnectionIds) : Outline now s none (s.claimed connectionId)
  | takeOver {a : AttemptState} (forced missing : Bool) (ha : s.attempt = some a)
      (hphase : s.phase = .retiring) :
      Outline now s none { (s.released a.identity.oldConnectionId).activated
        a.identity.newGeneration a.identity.newConnectionId with
        deadlineForcedRetirement := forced, connectorRetirementMissing := missing }
  | aborted {a : AttemptState} (ha : s.attempt = some a) (hphase : s.phase = .aborting) :
      Outline now s none ((s.released a.identity.newConnectionId).activated
        s.activeGeneration s.activeConnectionId)
  | recover {identity : RotationAttemptIdentity} {roster : StreamRoster} {reason : RecoveryReason}
      {deadline : Nat} {t : RotationState} (h : Recovers now s identity roster reason deadline t) :
      Outline now s (some (.recovery identity now deadline)) t
  | reserve {t : RotationState} {a b : AttemptState} (h : GoesOn s t a b)
      (hreserve : Reserves now s t) : Outline now s none t
  | reconcile {identity : RotationAttemptIdentity} {generation : Nat} {connectionId : String}
      (h : Reconciles now s identity (s.activated generation connectionId)) :
      Outline now s none (s.activated generation connectionId)

section

variable {now : Nat} {s : RotationState} {a b : AttemptState}

section

variable (ha : s.attempt = some a)
include ha

/-- Something is recorded in the attempt, and the phase may change with it. -/
theorem outline_recorded {before : RotationPhase} (b : AttemptState) (hsame : a.Continues b)
    (hreserved : b.recoverySocketReserved = a.recoverySocketReserved) (hphase : s.phase = before)
    (phase : RotationPhase) (forced : Bool) (hleads : before.leadsTo phase = true) :
    Outline now s none
      { s.withAttempt b with phase := phase, deadlineForcedRetirement := forced } := by
  subst hphase
  exact .goOn ⟨ha, rfl, hsame, ⟨rfl, rfl, rfl, rfl, rfl, rfl, rfl⟩, hleads⟩ rfl hreserved

theorem outline_noted {before : RotationPhase} (b : AttemptState) (hsame : a.Continues b)
    (hreserved : b.recoverySocketReserved = a.recoverySocketReserved) (hphase : s.phase = before)
    (forced : Bool) (hleads : before.leadsTo before = true) :
    Outline now s none { s.withAttempt b with deadlineForcedRetirement := forced } := by
  subst hphase
  exact outline_recorded ha b hsame hreserved rfl s.phase forced hleads

theorem withAttempt_self : s.withAttempt a = s := by
  rw [RotationState.withAttempt, ← ha]

theorem recovering_of_attempt (reason : RecoveryReason) :
    s.recovering reason =
      { s.withAttempt { a with recoveryReason := some reason } with phase := .recovering } := by
  rw [RotationState.recovering, ha]
  rfl

end

theorem recovering_of_none (ha : s.attempt = none) (reason : RecoveryReason) :
    s.recovering reason = { s with phase := .recovering } := by
  rw [RotationState.recovering, ha, Option.map_none, ← ha]

theorem outline_expire (ha : s.attempt = some a) (reason : RecoveryReason) :
    Outline now s none (s.recovering reason) := by
  rw [recovering_of_attempt ha]
  exact outline_recorded ha { a with recoveryReason := some reason } ⟨rfl, rfl, rfl, rfl, rfl⟩ rfl
    rfl .recovering s.deadlineForcedRetirement s.phase.leadsTo_recovering

theorem outline_lose (hphase : s.phase ≠ .closed) (reason : RecoveryReason) :
    Outline now s none (s.recovering reason) := by
  cases ha : s.attempt with
  | none =>
    rw [recovering_of_none ha]
    exact .lose ha hphase
  | some a => exact outline_expire ha reason

theorem outline_candidateLost {closed : Closures} (ha : s.attempt = some a)
    (hphase : s.phase = .recovering) :
    Outline now s none ((s.released a.identity.newConnectionId).withAttempt
      { a with
        candidateSocketClosed := closed
        recoverySocketReserved :=
          if a.isRecoveryAttempt then false else a.recoverySocketReserved }) := by
  refine .release ⟨⟨ha, rfl, ⟨rfl, rfl, rfl, rfl, rfl⟩, ⟨rfl, rfl, rfl, rfl, rfl, rfl, rfl⟩, ?_⟩,
    hphase, rfl, ?_, ?_⟩
  · show s.phase.leadsTo s.phase = true
    rw [hphase]
    rfl
  · intro hscheduled
    simp [hscheduled]
  · intro hrecovery _
    simp [hrecovery]

theorem outline_release {connectionId : String} (hphase : s.phase = .recovering) :
    Outline now s none { s.released connectionId with
      attempt := s.attempt.map fun attempt =>
        if attempt.isRecoveryAttempt ∧ connectionId = attempt.identity.newConnectionId then
          { attempt with recoverySocketReserved := false }
        else attempt } := by
  have hleads : s.phase.leadsTo s.phase = true := by
    rw [hphase]
    rfl
  cases ha : s.attempt with
  | none =>
    have heq : { s.released connectionId with attempt := none } = s.released connectionId := by
      rw [← ha]
      rfl
    rw [Option.map_none, heq]
    exact .free connectionId ha hphase
  | some a =>
    rw [Option.map_some]
    by_cases hnew : a.isRecoveryAttempt ∧ connectionId = a.identity.newConnectionId
    · rw [if_pos hnew]
      refine .release ⟨⟨ha, rfl, ⟨rfl, rfl, rfl, rfl, rfl⟩, ⟨rfl, rfl, rfl, rfl, rfl, rfl, rfl⟩,
        hleads⟩, hphase, rfl, ?_, ?_⟩
      · intro hscheduled
        simp [hscheduled] at hnew
      · intro _ _
        simp [hnew.2]
    · rw [if_neg hnew]
      refine .release ⟨⟨ha, rfl, .refl a, ⟨rfl, rfl, rfl, rfl, rfl, rfl, rfl⟩, hleads⟩, hphase, rfl,
        fun _ => rfl, ?_⟩
      intro hrecovery _
      have hother : connectionId ≠ a.identity.newConnectionId := fun h => hnew ⟨hrecovery, h⟩
      simp [hother]

end

theorem Move.outline [Sha256] {now : Nat} {s t : RotationState} {begun : Option Begun}
    (h : Move now s begun t) : Outline now s begun t := by
  cases h with
  | stay => exact .stay
  | close => exact .close s.terminalReason
  | exhaust hphase => exact .close (some .connectionHistoryExhausted)
  | expire ha hnow => exact outline_expire ha .deadline
  | lose reason hphase => exact outline_lose hphase reason
  | @expireHandshake a ha hphase hnow hbefore =>
    have hkept : Outline now s none _ := outline_recorded ha a (.refl a) rfl hphase .aborting
      s.deadlineForcedRetirement rfl
    rw [withAttempt_self ha] at hkept
    exact hkept
  | start h => exact .start h
  | waste hmem hunused => exact .waste hmem hunused
  | @ready a ha hphase hbefore =>
    exact outline_noted ha { a with candidateReady := true } ⟨rfl, rfl, rfl, rfl, rfl⟩ rfl hphase
      s.deadlineForcedRetirement rfl
  | @quiesce a roster ha hphase hbefore hroster =>
    exact outline_recorded ha { a with roster := some roster } ⟨rfl, rfl, rfl, rfl, rfl⟩ rfl hphase
      .quiescing s.deadlineForcedRetirement rfl
  | @freeze a roster f d ha hphase hbefore hroster hf hnone =>
    refine outline_recorded ha { a with frozen := a.frozen.set d (some f) }
      ⟨rfl, rfl, rfl, rfl, rfl⟩ rfl hphase _ s.deadlineForcedRetirement ?_
    rw [hphase]
    split <;> rfl
  | @drain a roster f d proof ha hphase hbefore hroster hf hproof hnone =>
    refine outline_recorded ha { a with drained := a.drained.set d (some proof) }
      ⟨rfl, rfl, rfl, rfl, rfl⟩ rfl hphase _ s.deadlineForcedRetirement ?_
    rw [hphase]
    split <;> rfl
  | commit h =>
    obtain ⟨hphase, a, ha, -, -, -, rfl⟩ := h
    exact outline_noted ha { a with commitSent := true } ⟨rfl, rfl, rfl, rfl, rfl⟩ rfl hphase
      s.deadlineForcedRetirement rfl
  | @accept a ha hphase hbefore hsent =>
    exact outline_recorded ha { a with commitAccepted := true } ⟨rfl, rfl, rfl, rfl, rfl⟩ rfl hphase
      .retiring s.deadlineForcedRetirement rfl
  | @retire a ha hphase hbefore =>
    exact outline_noted ha { a with retireSent := true } ⟨rfl, rfl, rfl, rfl, rfl⟩ rfl hphase
      s.deadlineForcedRetirement rfl
  | @oldClosing a closed forced ha hphase =>
    exact outline_noted ha { a with oldSocketClosed := closed } ⟨rfl, rfl, rfl, rfl, rfl⟩ rfl hphase
      forced rfl
  | takeOver forced missing ha hphase => exact .takeOver forced missing ha hphase
  | @forced a ha hphase =>
    have hkept : Outline now s none _ := outline_noted ha a (.refl a) rfl hphase true rfl
    rw [withAttempt_self ha] at hkept
    exact hkept
  | @abort a reason ha hphase hbefore hcommit =>
    rcases hphase with hphase | hphase | hphase
    all_goals
      exact outline_recorded ha { a with recoveryReason := some reason } ⟨rfl, rfl, rfl, rfl, rfl⟩
        rfl hphase .aborting s.deadlineForcedRetirement rfl
  | @candidateClosing a closed ha hphase hbefore =>
    rcases hphase with hphase | hphase
    all_goals
      exact outline_noted ha { a with candidateSocketClosed := closed }
        ⟨rfl, rfl, rfl, rfl, rfl⟩ rfl hphase s.deadlineForcedRetirement rfl
  | @candidateClosingLate a closed ha hphase hnow =>
    exact outline_recorded ha
      { a with candidateSocketClosed := closed, recoveryReason := some .deadline }
      ⟨rfl, rfl, rfl, rfl, rfl⟩ rfl rfl .recovering s.deadlineForcedRetirement
      s.phase.leadsTo_recovering
  | candidateLost closed ha hphase hreserved => exact outline_candidateLost ha hphase
  | @abortedLate a closed ha hphase hnow =>
    refine .release ⟨⟨ha, rfl, ⟨rfl, rfl, rfl, rfl, rfl⟩, ⟨rfl, rfl, rfl, rfl, rfl, rfl, rfl⟩,
      s.phase.leadsTo_recovering⟩, rfl, rfl, fun _ => rfl, ?_⟩
    intro _ hrecovering
    exact nomatch hphase.symm.trans hrecovering
  | aborted ha hphase hbefore => exact .aborted ha hphase
  | recover h => exact .recover h
  | release hphase hmem => exact outline_release hphase
  | reserve h =>
    obtain ⟨a, ha, -, -, rfl⟩ := h.reserved
    refine .reserve ⟨ha, rfl, ⟨rfl, rfl, rfl, rfl, rfl⟩, ⟨rfl, rfl, rfl, rfl, rfl, rfl, rfl⟩, ?_⟩ h
    show s.phase.leadsTo s.phase = true
    rw [h.phase]
    rfl
  | reconcile h =>
    cases h.eq
    exact .reconcile h

end AgentUplink
