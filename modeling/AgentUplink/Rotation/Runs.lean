/-
Runs of the rotation machine.

A run is any sequence of public operations with any arguments, whatever they
answer. Each operation changes the state by a move at the time it was given, so
a property that every move keeps holds in every reachable state.
-/
import AgentUplink.Lib.Trace
import AgentUplink.Rotation.Steps

namespace AgentUplink

open Machine Fallible RotationState

namespace RotationState

inductive Op
  | prepare (identity : RotationAttemptIdentity) (now : Nat)
  | prepareWithDeadlineCap (identity : RotationAttemptIdentity) (now deadlineCapMs : Nat)
  | beginPrepare (identity : RotationAttemptIdentity) (now : Nat)
  | candidateReady (identity : RotationAttemptIdentity) (now : Nat)
  | quiesce (identity : RotationAttemptIdentity) (roster : StreamRoster) (now : Nat)
  | frozen (identity : RotationAttemptIdentity) (fences : FenceSnapshot) (direction : Direction)
      (now : Nat)
  | drained (identity : RotationAttemptIdentity) (proof : DrainProof) (now : Nat)
  | drainSet (identity : RotationAttemptIdentity)
  | commit (identity : RotationAttemptIdentity) (now : Nat)
  | committed (identity : RotationAttemptIdentity) (now : Nat)
  | retire (identity : RotationAttemptIdentity) (now : Nat)
  | oldSocketClosed (identity : RotationAttemptIdentity) (side : RotationSide)
      (evidence : ClosureEvidence) (now : Nat)
  | retired (identity : RotationAttemptIdentity) (side : RotationSide)
      (evidence : ClosureEvidence) (now : Nat)
  | missingRetirementDeadlineMs
  | forceRetireWithoutConnectorEvidence (identity : RotationAttemptIdentity) (now : Nat)
  | abort (identity : RotationAttemptIdentity) (now : Nat) (reason : RecoveryReason)
  | candidateClosed (identity : RotationAttemptIdentity) (side : RotationSide)
      (evidence : ClosureEvidence) (now : Nat)
  | aborted (identity : RotationAttemptIdentity) (side : RotationSide)
      (evidence : ClosureEvidence) (now : Nat)
  | transportLost (identity : RotationAttemptIdentity) (now : Nat) (reason : RecoveryReason)
  | beginRecovery (identity : RotationAttemptIdentity) (roster : StreamRoster) (now : Nat)
      (reason : RecoveryReason) (episodeDeadlineMs : Nat)
  | recover (identity : RotationAttemptIdentity) (roster : StreamRoster) (now : Nat)
      (reason : RecoveryReason) (episodeDeadlineMs : Nat)
  | reserveRecoverySocket (now : Nat)
  | closeForRecovery (connectionId : String) (evidence : ClosureEvidence) (now : Nat)
  | releaseRecoverySocket (connectionId : String) (evidence : ClosureEvidence) (now : Nat)
  | reconcileValidated (identity : RotationAttemptIdentity) (verdicts : List ValidatedRecovery)
      (now : Nat)
  | close
  | tick (now : Nat)

inductive Answer
  | done
  | prepared (result : PrepareResult)
  | drains (set : DrainSet)
  | deadline (deadlineMs : Option Nat)
  | report (report : RecoveryReport)
  | phase (phase : RotationPhase)

namespace Op

def exec [Sha256] : Op → Rotation Answer
  | prepare identity now => .prepared <$> AgentUplink.prepare identity now
  | prepareWithDeadlineCap identity now cap =>
    .prepared <$> AgentUplink.prepareWithDeadlineCap identity now cap
  | beginPrepare identity now => .prepared <$> AgentUplink.beginPrepare identity now
  | candidateReady identity now => (fun _ => .done) <$> AgentUplink.candidateReady identity now
  | quiesce identity roster now => (fun _ => .done) <$> AgentUplink.quiesce identity roster now
  | frozen identity fences direction now =>
    (fun _ => .done) <$> AgentUplink.frozen identity fences direction now
  | drained identity proof now => (fun _ => .done) <$> AgentUplink.drained identity proof now
  | drainSet identity => .drains <$> AgentUplink.drainSet identity
  | commit identity now => (fun _ => .done) <$> AgentUplink.commit identity now
  | committed identity now => (fun _ => .done) <$> AgentUplink.committed identity now
  | retire identity now => (fun _ => .done) <$> AgentUplink.retire identity now
  | oldSocketClosed identity side evidence now =>
    (fun _ => .done) <$> AgentUplink.oldSocketClosed identity side evidence now
  | retired identity side evidence now =>
    (fun _ => .done) <$> AgentUplink.retired identity side evidence now
  | missingRetirementDeadlineMs => .deadline <$> AgentUplink.missingRetirementDeadlineMs
  | forceRetireWithoutConnectorEvidence identity now =>
    (fun _ => .done) <$> AgentUplink.forceRetireWithoutConnectorEvidence identity now
  | abort identity now reason => (fun _ => .done) <$> AgentUplink.abort identity now reason
  | candidateClosed identity side evidence now =>
    (fun _ => .done) <$> AgentUplink.candidateClosed identity side evidence now
  | aborted identity side evidence now =>
    (fun _ => .done) <$> AgentUplink.aborted identity side evidence now
  | transportLost identity now reason =>
    (fun _ => .done) <$> AgentUplink.transportLost identity now reason
  | beginRecovery identity roster now reason deadline =>
    (fun _ => .done) <$> AgentUplink.beginRecovery identity roster now reason deadline
  | recover identity roster now reason deadline =>
    (fun _ => .done) <$> AgentUplink.recover identity roster now reason deadline
  | reserveRecoverySocket now => (fun _ => .done) <$> AgentUplink.reserveRecoverySocket now
  | closeForRecovery connectionId evidence now =>
    (fun _ => .done) <$> AgentUplink.closeForRecovery connectionId evidence now
  | releaseRecoverySocket connectionId evidence now =>
    (fun _ => .done) <$> AgentUplink.releaseRecoverySocket connectionId evidence now
  | reconcileValidated identity verdicts now =>
    .report <$> AgentUplink.reconcileValidated identity verdicts now
  | close => (fun _ => .done) <$> AgentUplink.close
  | tick now => .phase <$> AgentUplink.tick now

/-- The time an operation is given; a read and a close are given none. -/
def time : Op → Option Nat
  | prepare _ now | prepareWithDeadlineCap _ now _ | beginPrepare _ now | candidateReady _ now
  | quiesce _ _ now | frozen _ _ _ now | drained _ _ now | commit _ now | committed _ now
  | retire _ now | oldSocketClosed _ _ _ now | retired _ _ _ now
  | forceRetireWithoutConnectorEvidence _ now | abort _ now _ | candidateClosed _ _ _ now
  | aborted _ _ _ now | transportLost _ now _ | beginRecovery _ _ now _ _ | recover _ _ now _ _
  | reserveRecoverySocket now | closeForRecovery _ _ now | releaseRecoverySocket _ _ now
  | reconcileValidated _ _ now | tick now => some now
  | drainSet _ | missingRetirementDeadlineMs | close => none

/-- The attempt an operation begins when it answers this. -/
def begins : Op → Answer → Option Begun
  | prepare identity now, .prepared .started => some (.scheduled identity now none)
  | beginPrepare identity now, .prepared .started => some (.scheduled identity now none)
  | prepareWithDeadlineCap identity now cap, .prepared .started =>
    some (.scheduled identity now (some cap))
  | beginRecovery identity _ now _ deadline, _ => some (.recovery identity now deadline)
  | recover identity _ now _ deadline, _ => some (.recovery identity now deadline)
  | _, _ => none

/-- The attempt an operation begins from a state, if it succeeds in that. -/
def begun [Sha256] (op : Op) (s : RotationState) : Option Begun :=
  match op.exec.run s with
  | .ok answer _ => op.begins answer
  | .error _ _ => none

def next [Sha256] (op : Op) (s : RotationState) : RotationState := stateOf (op.exec.run s)

end Op

/-! ## Changes -/

/-- What an operation given this time may do to the state, and the attempt it begins. -/
inductive Change [Sha256] (s : RotationState) : Option Nat → Option Begun → RotationState → Prop
  | same (time : Option Nat) : Change s time none s
  | shut : Change s none none s.shut
  | move {now : Nat} {begun : Option Begun} {t : RotationState} (hclock : s.checkClock now = .ok ())
      (h : Move now (s.observed now) begun t) : Change s (some now) begun t

end RotationState

section

variable [Sha256] {now : Nat} {s : RotationState} {α : Type} {x : Rotation α}

/-- The computation makes a change, which begins what its answer says, or fails. -/
def RotationState.Changes (x : Rotation α) (time : Option Nat) (begins : α → Option Begun)
    (s : RotationState) : Prop :=
  wp x s (fun v t => Change s time (begins v) t) (Failure s time)

variable {begins : Answer → Option Begun} {g : α → Answer}

theorem RotationState.Changes.map {time : Option Nat}
    (h : Changes x time (fun v => begins (g v)) s) :
    Changes (g <$> x) time begins s := by
  unfold Changes
  rw [wp_map]
  exact h

theorem Failure.change {time : Option Nat} {e : Fault} {t : RotationState}
    (h : Failure s time e t) : Change s time none t := by
  cases h with
  | refused => exact .same _
  | observed htime hclock h =>
    subst htime
    exact .move hclock h.move

theorem Observes.changes {post : RotationState → α → RotationState → Prop} (h : Observes now x post)
    (hpost : ∀ {s v t}, post s v t → Move now s (begins (g v)) t) :
    Changes (g <$> x) (some now) begins s :=
  Changes.map (wp_mono (h s) (fun _ _ ht => .move ht.1 (hpost ht.2)) fun _ _ ht => ht)

theorem prepare_changes {identity : RotationAttemptIdentity} {cap : Option Nat}
    {x : Rotation PrepareResult} (h : Observes now x (Prepares now identity cap))
    (hstarted : begins (.prepared .started) = some (.scheduled identity now cap))
    (hcoalesced : begins (.prepared .coalesced) = none) :
    Changes (Answer.prepared <$> x) (some now) begins s := by
  refine h.changes fun {s v t} ht => ?_
  rcases ht with ⟨rfl, ht⟩ | ⟨rfl, rfl⟩
  · rw [hstarted]
    exact .start ht
  · rw [hcoalesced]
    exact .stay

theorem drainSet_changes (identity : RotationAttemptIdentity) :
    Changes (drainSet identity) none (fun _ => none) s := by
  unfold Changes drainSet
  simp only [wp_bind, wp_ensureAttempt, wp_expectAttempt, wp_orRefuse, wp_pure]
  refine ⟨fun e he => .refused (exhausts_of_plain he), fun a _ ha _ =>
    ⟨fun hnone => ?_, fun b _ => ?_⟩⟩
  · cases hnone.symm.trans ha
  · exact ⟨fun _ => .refused rfl, fun _ _ => ⟨fun _ => .refused rfl, fun _ _ => .same _⟩⟩

theorem missingRetirementDeadlineMs_changes :
    Changes missingRetirementDeadlineMs none (fun _ => none) s := by
  unfold Changes missingRetirementDeadlineMs
  simp only [wp_bind, wp_get, wp_ite, wp_pure]
  exact ⟨fun _ => .same _, fun _ => .same _⟩

theorem RotationState.Op.exec_changes (op : Op) (s : RotationState) :
    Changes op.exec op.time op.begins s := by
  cases op with
  | prepare identity now | beginPrepare identity now =>
    exact prepare_changes (prepare_observes identity) rfl rfl
  | prepareWithDeadlineCap identity now cap =>
    exact prepare_changes (prepareWithDeadlineCap_observes identity cap) rfl rfl
  | candidateReady identity now => exact (candidateReady_moves identity).changes id
  | quiesce identity roster now => exact (quiesce_moves identity roster).changes id
  | frozen identity fences direction now =>
    exact (frozen_moves identity fences direction).changes id
  | drained identity proof now => exact (drained_moves identity proof).changes id
  | drainSet identity => exact Changes.map (drainSet_changes identity)
  | commit identity now => exact (commit_observes identity).changes .commit
  | committed identity now => exact (committed_moves identity).changes id
  | retire identity now => exact (retire_moves identity).changes id
  | oldSocketClosed identity side evidence now | retired identity side evidence now =>
    exact (oldSocketClosed_moves identity side evidence).changes id
  | missingRetirementDeadlineMs => exact Changes.map missingRetirementDeadlineMs_changes
  | forceRetireWithoutConnectorEvidence identity now =>
    exact (forceRetire_moves identity).changes id
  | abort identity now reason => exact (abort_moves identity reason).changes id
  | candidateClosed identity side evidence now | aborted identity side evidence now =>
    exact (candidateClosed_moves identity side evidence).changes id
  | transportLost identity now reason => exact (transportLost_moves identity reason).changes id
  | beginRecovery identity roster now reason deadline
  | recover identity roster now reason deadline =>
    exact (beginRecovery_observes identity roster reason deadline).changes .recover
  | reserveRecoverySocket now => exact reserveRecoverySocket_observes.changes .reserve
  | closeForRecovery connectionId evidence now | releaseRecoverySocket connectionId evidence now =>
    exact (closeForRecovery_moves connectionId evidence).changes id
  | reconcileValidated identity verdicts now =>
    exact (reconcileValidated_observes identity verdicts).changes .reconcile
  | close => exact Change.shut
  | tick now =>
    refine Changes.map (wp_mono (tick_moves now s) (fun _ t ht => ?_) fun _ _ ht => ht)
    rcases ht with rfl | ⟨hclock, hmove⟩
    · exact .same _
    · exact .move hclock hmove

theorem RotationState.Op.next_change (op : Op) (s : RotationState) :
    Change s op.time (op.begun s) (op.next s) := by
  have h := op.exec_changes s
  unfold Op.begun Op.next
  cases hrun : op.exec.run s with
  | ok answer t =>
    have ht := wp_of_ok h hrun
    exact ht
  | error e t => exact (wp_of_error h hrun).change

end

/-! ## Reachable states -/

namespace RotationState

def Opened (s : RotationState) : Prop :=
  ∃ sessionId ownerId epoch generation connectionId config,
    RotationState.new sessionId ownerId epoch generation connectionId config = .ok s

def run [Sha256] (s : RotationState) (ops : List Op) : RotationState :=
  Trace.run Op.next s ops

def Reachable [Sha256] (s : RotationState) : Prop := ∃ s₀ ops, Opened s₀ ∧ s₀.run ops = s

section

variable [Sha256] {s : RotationState}

/-- A property that does not depend on the clock and that every move keeps. -/
structure Invariant (inv : RotationState → Prop) : Prop where
  observed : ∀ {s : RotationState} (now : Nat), inv s → inv (s.observed now)
  move : ∀ {now : Nat} {s t : RotationState} {begun : Option Begun},
    inv s → Move now s begun t → inv t

variable {inv : RotationState → Prop}

theorem Invariant.change (h : Invariant inv) (hs : inv s) {time : Option Nat} {begun : Option Begun}
    {t : RotationState} (hchange : Change s time begun t) : inv t := by
  cases hchange with
  | same => exact hs
  | shut => exact h.move hs (@Move.close _ 0 s)
  | move hclock hmove => exact h.move (h.observed _ hs) hmove

theorem Invariant.run (h : Invariant inv) (hs : inv s) (ops : List Op) : inv (s.run ops) :=
  have hstep : ∀ (op : Op) (t : RotationState), inv t → inv (op.next t) :=
    fun op t ht => h.change ht (op.next_change t)
  Trace.run_invariant hstep hs ops

theorem Invariant.reachable (h : Invariant inv) (hnew : ∀ {s}, Opened s → inv s)
    (hs : Reachable s) : inv s := by
  obtain ⟨s₀, ops, hopened, rfl⟩ := hs
  exact h.run (hnew hopened) ops

theorem Reachable.run (h : Reachable s) (ops : List Op) : Reachable (s.run ops) := by
  obtain ⟨s₀, before, hopened, rfl⟩ := h
  exact ⟨s₀, before ++ ops, hopened, Trace.run_append s₀ before ops⟩

end

structure Fresh (s : RotationState) : Prop where
  phase : s.phase = .active
  attempt : s.attempt = none
  allocated : s.allocatedConnections = {s.activeConnectionId}
  used : s.usedConnectionIds = {s.activeConnectionId}
  watermark : s.generationHighWatermark = s.activeGeneration
  episode : s.recoveryEpisodeDeadline = none
  attempts : s.recoveryAttempts = 0

theorem Opened.fresh {s : RotationState} (h : Opened s) : s.Fresh := by
  obtain ⟨_, _, _, _, _, _, h⟩ := h
  simp only [RotationState.new, except_bind_eq_ok, ite_error_eq_ok] at h
  obtain ⟨_, _, _, _, _, _, _, _, _, _, h⟩ := h
  cases h
  exact ⟨rfl, rfl, rfl, rfl, rfl, rfl, rfl⟩

end RotationState

/-! ## A concrete handover -/

@[reducible] def zeroDigest : Sha256 := ⟨fun _ => [0]⟩

def demoMachine : RotationState where
  config := {}
  phase := .active
  sessionId := "session"
  ownerId := "owner"
  epoch := 1
  activeGeneration := 1
  activeConnectionId := "carrier-1"
  generationHighWatermark := 1
  attempt := none
  allocatedConnections := {"carrier-1"}
  usedConnectionIds := {"carrier-1"}
  recoveryEpisodeDeadline := none
  recoveryAttempts := 0
  deadlineForcedRetirement := false
  connectorRetirementMissing := false
  lastTimeMs := none
  terminalReason := none

theorem demoMachine_opened : Opened demoMachine := ⟨"session", "owner", 1, 1, "carrier-1", {}, rfl⟩

def demoIdentity : RotationAttemptIdentity where
  sessionId := "session"
  epoch := 1
  ownerId := "owner"
  rotationId := "rotation-1"
  oldGeneration := 1
  newGeneration := 2
  oldConnectionId := "carrier-1"
  newConnectionId := "carrier-2"

def demoFence (d : Direction) : FenceSnapshot := ⟨"snapshot-1", [⟨7, d, 3⟩]⟩

def demoProof (d : Direction) : DrainProof := ⟨"snapshot-1", "00", d, [⟨7, 3⟩]⟩

/-- An attempt is prepared, frozen and drained. -/
def demoDrain : List Op :=
  [.prepare demoIdentity 0, .candidateReady demoIdentity 1,
    .quiesce demoIdentity ⟨"snapshot-1", [7]⟩ 2,
    .frozen demoIdentity (demoFence .relayToConnector) .relayToConnector 3,
    .frozen demoIdentity (demoFence .connectorToRelay) .connectorToRelay 4,
    .drained demoIdentity (demoProof .relayToConnector) 5,
    .drained demoIdentity (demoProof .connectorToRelay) 6]

/-- The candidate is accepted and the old carrier closed by both sides. -/
def demoRetire : List Op :=
  [.committed demoIdentity 8, .retire demoIdentity 9,
    .oldSocketClosed demoIdentity .owner ⟨"carrier-1", true, true⟩ 10,
    .oldSocketClosed demoIdentity .connector ⟨"carrier-1", true, true⟩ 11]

/-- The active carrier is lost and a recovery candidate takes over. -/
def demoRecovery : List Op :=
  [.transportLost demoIdentity 0 .oldTransportLost,
    .closeForRecovery "carrier-1" ⟨"carrier-1", true, true⟩ 1,
    .beginRecovery demoIdentity ⟨"snapshot-1", [7]⟩ 2 .oldTransportLost 20000,
    .reserveRecoverySocket 3, .reconcileValidated demoIdentity [⟨7, [], [], true⟩] 4]

abbrev demoRun (ops : List Op) : RotationState := @RotationState.run zeroDigest demoMachine ops

theorem demo_reachable (ops : List Op) : @Reachable zeroDigest (demoRun ops) :=
  ⟨demoMachine, ops, demoMachine_opened, rfl⟩

end AgentUplink
