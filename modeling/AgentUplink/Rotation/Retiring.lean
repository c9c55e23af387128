/-
A committed handover at its overlap deadline.

In phase retiring the candidate has been accepted, and the deadline only forces the
old carrier out. Two operations still apply the rule for handovers that are not
committed: a retransmitted `retire`, and a `prepare` that coalesces with the attempt
under way. At or after the overlap deadline they leave the handover to recovery; no
other operation does, short of a lost transport or a close.
-/
import AgentUplink.Rotation.Deadlines

namespace AgentUplink

open Machine Fallible RotationState

/-- The handover stays committed: still retiring, or active on its generation. -/
def Keeps (a : AttemptState) (t : RotationState) : Prop :=
  t.phase = .retiring ∨ t.phase = .active ∧ t.activeGeneration = a.identity.newGeneration

/-- The time at which an operation asks whether the attempt `identity` is still in time
for a handover that is not committed. -/
def RotationState.Op.asksDeadline (identity : RotationAttemptIdentity) : Op → Option Nat
  | .retire named now | .prepare named now | .beginPrepare named now =>
    if named = identity then some now else none
  | .prepareWithDeadlineCap named now cap =>
    if named = identity ∧ now < cap then some now else none
  | _ => none

/-- The operation asks at or after the overlap deadline, with a clock that does not go
back. -/
def RotationState.Op.AsksLate (op : Op) (s : RotationState) (a : AttemptState) : Prop :=
  ∃ now, op.asksDeadline a.identity = some now ∧ s.checkClock now = .ok () ∧
    a.overlapDeadlineMs ≤ now

section

variable {α β : Type} {s : RotationState} {a : AttemptState} {now : Nat}

/-- However the computation ends, the handover stays committed. -/
def KeepsAll (a : AttemptState) (x : Rotation α) (s : RotationState) : Prop :=
  wp x s (fun _ t => Keeps a t) fun _ t => Keeps a t

def Demotes (x : Rotation α) (s : RotationState) : Prop :=
  wp x s (fun _ t => t.phase = .recovering) fun _ t => t.phase = .recovering

variable {f : Unit → Rotation α} {x : Rotation α}

theorem KeepsAll.map (h : KeepsAll a x s) (g : α → β) : KeepsAll a (g <$> x) s := by
  unfold KeepsAll
  rw [wp_map]
  exact h

theorem Demotes.map (h : Demotes x s) (g : α → β) : Demotes (g <$> x) s := by
  unfold Demotes
  rw [wp_map]
  exact h

@[simp] theorem observed_attempt : (s.observed now).attempt = s.attempt := rfl

@[simp] theorem observed_phase : (s.observed now).phase = s.phase := rfl

@[simp] theorem keeps_activated (connectionId : String) :
    Keeps a (s.activated a.identity.newGeneration connectionId) := .inr ⟨rfl, rfl⟩

variable (hphase : s.phase = .retiring) (ha : s.attempt = some a)

include hphase ha

variable (identity : RotationAttemptIdentity)

theorem oldSocketClosed_keeps (side : RotationSide) (evidence : ClosureEvidence) :
    KeepsAll a (oldSocketClosed identity side evidence now) s := by
  unfold KeepsAll oldSocketClosed
  simp only [wp_bind, wp_observeTime, wp_ensureAttempt, wp_expectAttempt, wp_refuseIf,
    wp_validated, forall_unit, wp_setAttempt, wp_modify, wp_ite, wp_pure, observed_attempt, ha]
  have hkept : Keeps a (s.observed now) := .inl hphase
  refine ⟨fun _ _ => .inl hphase, fun _ => ⟨fun _ _ => hkept, fun _ _ _ _ =>
    ⟨fun h => (by cases h), ?_⟩⟩⟩
  rintro b ⟨⟩
  refine ⟨fun _ => hkept, fun _ => ⟨fun _ _ => hkept, fun _ => ⟨fun _ => hkept, fun _ =>
    ⟨fun _ => hkept, fun _ => ⟨fun _ => ?_, fun _ => .inl hphase⟩⟩⟩⟩⟩
  exact keeps_activated _

theorem forceRetire_keeps : KeepsAll a (forceRetireWithoutConnectorEvidence identity now) s := by
  unfold KeepsAll forceRetireWithoutConnectorEvidence
  simp only [wp_bind, wp_observeTime, wp_ensureAttempt, wp_get, wp_expectAttempt, wp_refuseIf,
    wp_orRefuse, wp_modify, wp_assertSocketBound, observed_attempt, ha]
  have hkept : Keeps a (s.observed now) := .inl hphase
  refine ⟨fun _ _ => .inl hphase, fun _ => ⟨fun _ _ => hkept, fun _ _ _ _ =>
    ⟨fun h => (by cases h), ?_⟩⟩⟩
  rintro b ⟨⟩
  exact ⟨fun _ => hkept, fun _ => ⟨fun _ => hkept, fun _ => ⟨fun _ => hkept, fun _ _ =>
    ⟨fun _ => hkept, fun _ => ⟨fun _ => .inr ⟨rfl, rfl⟩, fun _ => .inr ⟨rfl, rfl⟩⟩⟩⟩⟩⟩

theorem tick_keeps : KeepsAll a (tick now) s := by
  unfold KeepsAll tick
  rw [wp_bind, wp_get, ha]
  cases s.checkClock now with
  | error e => exact .inl hphase
  | ok _ =>
    unfold advance
    simp only [wp_bind, wp_modify, wp_get, wp_ite, wp_setPhase, wp_pure]
    exact ⟨fun _ => ⟨fun h => absurd (h.1.symm.trans hphase) (by decide), fun _ => .inl hphase⟩,
      fun _ => ⟨fun _ => .inl hphase, fun h => absurd hphase h⟩⟩

/-- Short of the deadline, or for another attempt, a retransmission changes no phase. -/
theorem retire_keeps
    (h : a.identity = identity → s.checkClock now = .ok () → now < a.overlapDeadlineMs) :
    KeepsAll a (retire identity now) s := by
  unfold KeepsAll retire
  simp only [wp_bind, wp_observeTime, wp_ensureAttempt, wp_checkDeadline, wp_expectAttempt,
    wp_refuseIf, wp_setAttempt, observed_attempt, ha]
  have hkept : Keeps a (s.observed now) := .inl hphase
  refine ⟨fun _ _ => .inl hphase, fun hclock => ⟨fun _ _ => hkept, ?_⟩⟩
  rintro b - ⟨⟩ hid
  refine ⟨fun h => (by cases h), ?_⟩
  rintro b ⟨⟩
  refine ⟨fun hlate => absurd hlate (not_le.2 (h hid hclock)), fun _ =>
    ⟨fun h => (by cases h), ?_⟩⟩
  rintro b ⟨⟩
  exact ⟨fun _ => hkept, fun _ => .inl hphase⟩

theorem retire_demotes (hclock : s.checkClock now = .ok ()) (hlate : a.overlapDeadlineMs ≤ now) :
    Demotes (retire a.identity now) s := by
  unfold Demotes retire
  have hensure : (s.observed now).ensureAttempt a.identity .retiring = .ok () := by
    simp [RotationState.ensureAttempt, hphase, ha]
  simp only [wp_bind, wp_observeTime, wp_ensureAttempt, wp_checkDeadline, wp_expire, hclock,
    hensure, observed_attempt, ha]
  refine ⟨fun _ h => (by cases h), fun _ => ⟨fun _ h => (by cases h), ?_⟩⟩
  rintro b - ⟨⟩ -
  refine ⟨fun h => (by cases h), ?_⟩
  rintro b ⟨⟩
  exact ⟨fun _ => ⟨fun _ => rfl, fun _ => rfl⟩, fun h => absurd hlate (not_le.2 h)⟩

/-- Short of the deadline a `prepare` coalesces; for another attempt it is refused. -/
theorem prepareAfterObserved_keeps (cap : Option Nat)
    (h : a.identity = identity → now < a.overlapDeadlineMs) :
    KeepsAll a (prepareAfterObserved identity now cap) s := by
  have hkept : Keeps a s := .inl hphase
  unfold KeepsAll prepareAfterObserved prepareAgain
  simp only [wp_bind, wp_get, wp_refuseIf, wp_ite]
  refine ⟨fun _ => hkept, fun _ => ⟨fun _ => ?_, fun hactive => ?_⟩⟩
  · by_cases hid : a.identity = identity
    · simp only [RotationState.matchingDeadline, ha, hid, if_true, wp_ite, wp_pure, wp_refuse]
      exact ⟨fun hlate => absurd hlate (not_le.2 (h hid)), fun _ =>
        ⟨fun _ => hkept, fun _ => hkept⟩⟩
    · simp only [RotationState.matchingDeadline, ha, hid, if_false, wp_refuse]
      exact hkept
  · cases hphase.symm.trans (not_not.1 hactive)

theorem prepareAfterObserved_demotes (cap : Option Nat) (hlate : a.overlapDeadlineMs ≤ now) :
    Demotes (prepareAfterObserved a.identity now cap) s := by
  unfold Demotes prepareAfterObserved prepareAgain
  simp only [wp_bind, wp_get, wp_refuseIf, wp_ite]
  refine ⟨fun hclosed => ?_, fun _ => ⟨fun _ => ?_, fun hactive => ?_⟩⟩
  · cases hphase.symm.trans hclosed
  · simp only [RotationState.matchingDeadline, ha, if_true, wp_ite, wp_expire]
    exact ⟨fun _ => ⟨fun _ => rfl, fun _ => rfl⟩, fun h => absurd hlate h⟩
  · cases hphase.symm.trans (not_not.1 hactive)

omit ha in
theorem keeps_observed (h : s.checkClock now = .ok () → KeepsAll a (f ()) (s.observed now)) :
    KeepsAll a (observeTime now >>= f) s := by
  unfold KeepsAll
  rw [wp_bind, wp_observeTime]
  exact ⟨fun _ _ => .inl hphase, h⟩

omit ha in
theorem keeps_other_phase {identity : RotationAttemptIdentity} {expected : RotationPhase}
    (hne : expected ≠ .retiring) :
    KeepsAll a (observeTime now >>= fun _ => ensureAttempt identity expected >>= f) s := by
  refine keeps_observed hphase fun _ => ?_
  unfold KeepsAll
  rw [wp_bind, wp_ensureAttempt]
  exact ⟨fun _ _ => .inl hphase, fun _ h => absurd (h.symm.trans hphase) hne⟩

omit ha in
theorem keeps_refused {c : RotationState → Prop} [∀ u, Decidable (c u)]
    {e : RotationState → RotationError} {f : RotationState → Unit → Rotation α}
    (hc : c (s.observed now)) :
    KeepsAll a (observeTime now >>= fun _ => get >>= fun u => refuseIf (c u) (e u) >>= f u) s := by
  refine keeps_observed hphase fun _ => ?_
  unfold KeepsAll
  rw [wp_bind, wp_get, wp_bind, wp_refuseIf]
  exact ⟨fun _ => .inl hphase, fun h => absurd hc h⟩

omit ha in
theorem beginRecovery_keeps (identity : RotationAttemptIdentity) (roster : StreamRoster)
    (reason : RecoveryReason) (deadline : Nat) :
    KeepsAll a (beginRecovery identity roster now reason deadline) s := by
  refine keeps_observed hphase fun _ => ?_
  unfold KeepsAll
  rw [wp_bind, wp_get, wp_bind, wp_refuseIf]
  refine ⟨fun _ => .inl hphase, fun _ => ?_⟩
  rw [wp_bind, wp_refuseIf]
  exact ⟨fun _ => .inl hphase, fun h => absurd (by simp [hphase]) h⟩

omit hphase ha in
theorem demotes_observed (hclock : s.checkClock now = .ok ())
    (h : Demotes (f ()) (s.observed now)) : Demotes (observeTime now >>= f) s := by
  unfold Demotes
  rw [wp_bind, wp_observeTime, hclock]
  exact ⟨nofun, fun _ => h⟩

theorem prepareWithDeadlineCap_keeps (identity : RotationAttemptIdentity) (cap : Nat)
    (h : a.identity = identity → now < cap → s.checkClock now = .ok () →
      now < a.overlapDeadlineMs) : KeepsAll a (prepareWithDeadlineCap identity now cap) s := by
  refine keeps_observed hphase fun hclock => ?_
  unfold KeepsAll
  rw [wp_bind, wp_refuseIf]
  refine ⟨fun _ => .inl hphase, fun hcap => ?_⟩
  exact prepareAfterObserved_keeps (s := s.observed now) hphase ha identity (some cap)
    fun hid => h hid (not_le.1 hcap) hclock

theorem prepareWithDeadlineCap_demotes {cap : Nat} (hcap : now < cap)
    (hclock : s.checkClock now = .ok ()) (hlate : a.overlapDeadlineMs ≤ now) :
    Demotes (prepareWithDeadlineCap a.identity now cap) s := by
  refine demotes_observed hclock ?_
  unfold Demotes
  rw [wp_bind, wp_refuseIf]
  refine ⟨fun h => absurd hcap (not_lt.2 h), fun _ => ?_⟩
  exact prepareAfterObserved_demotes (s := s.observed now) hphase ha (some cap) hlate

end

/-! ## Every operation -/

section

variable [Sha256] {s : RotationState} {a : AttemptState}

theorem KeepsAll.next {op : Op} (h : KeepsAll a op.exec s) : Keeps a (op.next s) := wp_stateOf h

theorem Demotes.next {op : Op} (h : Demotes op.exec s) : (op.next s).phase = .recovering :=
  wp_stateOf h

theorem demotes_of_asksLate {op : Op} (hphase : s.phase = .retiring) (ha : s.attempt = some a)
    (h : op.AsksLate s a) : (op.next s).phase = .recovering := by
  obtain ⟨now, hasks, hclock, hlate⟩ := h
  refine Demotes.next ?_
  cases op with
  | retire =>
    obtain ⟨rfl, ⟨⟩⟩ := Option.ite_none_right_eq_some.1 hasks
    exact (retire_demotes hphase ha hclock hlate).map _
  | prepare | beginPrepare =>
    obtain ⟨rfl, ⟨⟩⟩ := Option.ite_none_right_eq_some.1 hasks
    exact (demotes_observed hclock
      (prepareAfterObserved_demotes (s := s.observed now) hphase ha none hlate)).map _
  | prepareWithDeadlineCap =>
    obtain ⟨⟨rfl, hcap⟩, ⟨⟩⟩ := Option.ite_none_right_eq_some.1 hasks
    exact (prepareWithDeadlineCap_demotes hphase ha hcap hclock hlate).map _
  | _ => cases hasks

theorem keeps_of_not_asksLate {op : Op} (hphase : s.phase = .retiring) (ha : s.attempt = some a)
    (hlost : ∀ identity now reason, op ≠ .transportLost identity now reason) (hclose : op ≠ .close)
    (h : ¬ op.AsksLate s a) : Keeps a (op.next s) := by
  have hbefore {now : Nat} (hasks : op.asksDeadline a.identity = some now)
      (hclock : s.checkClock now = .ok ()) : now < a.overlapDeadlineMs :=
    not_le.1 fun hlate => h ⟨now, hasks, hclock, hlate⟩
  refine KeepsAll.next ?_
  cases op with
  | prepare identity now | beginPrepare identity now =>
    refine (keeps_observed hphase fun hclock => ?_).map _
    refine prepareAfterObserved_keeps (s := s.observed now) hphase ha identity none
      fun hid => hbefore ?_ hclock
    exact if_pos hid.symm
  | prepareWithDeadlineCap identity now cap =>
    refine (prepareWithDeadlineCap_keeps hphase ha identity cap fun hid hcap hclock =>
      hbefore ?_ hclock).map _
    exact if_pos ⟨hid.symm, hcap⟩
  | retire identity now =>
    refine (retire_keeps hphase ha identity fun hid hclock => hbefore ?_ hclock).map _
    exact if_pos hid.symm
  | oldSocketClosed identity side evidence now | retired identity side evidence now =>
    exact (oldSocketClosed_keeps hphase ha identity side evidence).map _
  | forceRetireWithoutConnectorEvidence identity now =>
    exact (forceRetire_keeps hphase ha identity).map _
  | tick now => exact (tick_keeps hphase ha).map _
  | transportLost identity now reason => exact absurd rfl (hlost identity now reason)
  | close => exact absurd rfl hclose
  | missingRetirementDeadlineMs =>
    unfold KeepsAll Op.exec missingRetirementDeadlineMs
    simp only [wp_map, wp_bind, wp_get, wp_ite, wp_pure]
    exact ⟨fun _ => .inl hphase, fun _ => .inl hphase⟩
  -- every other operation is refused in this phase
  | candidateReady | quiesce | frozen | drained | commit | committed | reconcileValidated =>
    exact (keeps_other_phase hphase (by decide)).map _
  | drainSet =>
    unfold KeepsAll Op.exec drainSet
    rw [wp_map, wp_bind, wp_ensureAttempt]
    exact ⟨fun _ _ => .inl hphase, fun _ h => absurd (h.symm.trans hphase) (by decide)⟩
  | abort | candidateClosed | aborted | reserveRecoverySocket | closeForRecovery
  | releaseRecoverySocket => exact (keeps_refused hphase (by simp [hphase])).map _
  | beginRecovery | recover => exact (beginRecovery_keeps hphase _ _ _ _).map _

end

/-- In phase retiring an operation other than a lost transport or a close keeps the
handover committed exactly when it is not a `retire` or a `prepare` for the attempt under
way at or after its overlap deadline. -/
theorem retiring_kept_iff [Sha256] {s : RotationState} (h : Reachable s)
    (hphase : s.phase = .retiring) (op : Op)
    (hlost : ∀ identity now reason, op ≠ .transportLost identity now reason)
    (hclose : op ≠ .close) :
    ∃ a, s.attempt = some a ∧
      (((op.next s).phase = .retiring ∨
          (op.next s).phase = .active ∧ (op.next s).activeGeneration = a.identity.newGeneration) ↔
        ¬ op.AsksLate s a) := by
  obtain ⟨a, ha⟩ := h.accounted.attempt_of_phase (by rw [hphase]; decide) (by rw [hphase]; decide)
    (by rw [hphase]; decide)
  refine ⟨a, ha, fun hkept hlate => ?_, keeps_of_not_asksLate hphase ha hlost hclose⟩
  have hrecovering := demotes_of_asksLate hphase ha hlate
  rw [hrecovering] at hkept
  simp at hkept

def demoAccepted : List Op := demoDrain ++ [.commit demoIdentity 7, .committed demoIdentity 8]

set_option maxRecDepth 4000 in
/-- A `retire` sent in time keeps the handover committed. -/
theorem retiring_kept_iff_in_time :
    (demoRun demoAccepted).phase = .retiring ∧
      ∃ a, (demoRun demoAccepted).attempt = some a ∧
        (((@Op.next zeroDigest (.retire demoIdentity 9) (demoRun demoAccepted)).phase = .retiring ∨
          (@Op.next zeroDigest (.retire demoIdentity 9) (demoRun demoAccepted)).phase = .active ∧
          (@Op.next zeroDigest (.retire demoIdentity 9) (demoRun demoAccepted)).activeGeneration =
            a.identity.newGeneration) ↔
          ¬ Op.AsksLate (.retire demoIdentity 9) (demoRun demoAccepted) a) :=
  ⟨by decide, @retiring_kept_iff zeroDigest _ (demo_reachable _) (by decide) _ nofun nofun⟩

set_option maxRecDepth 4000 in
/-- A retransmitted `retire` at the overlap deadline demotes a committed handover. -/
theorem retiring_demoted :
    @Reachable zeroDigest (demoRun demoAccepted) ∧
      (demoRun demoAccepted).phase = .retiring ∧
      (@Op.next zeroDigest (.retire demoIdentity 30000) (demoRun demoAccepted)).phase =
        .recovering :=
  ⟨demo_reachable _, by decide, by decide⟩

end AgentUplink
