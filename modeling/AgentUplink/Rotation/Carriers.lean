/-
The carriers the machine accounts for.

The allocated connections are never more than two, the socket count computed from
the phase agrees with them, and no operation panics.
-/
import AgentUplink.Rotation.Outline

namespace AgentUplink

open Machine Fallible RotationState Finset

/-- The connections an attempt accounts for. A scheduled attempt holds both carriers
until recovery closes them; a recovery attempt holds its candidate once reserved. -/
structure AttemptState.Holds (a : AttemptState) (phase : RotationPhase)
    (allocated : Finset String) : Prop where
  recovery : a.isRecoveryAttempt = true → phase = .recovering ∧
    allocated = if a.recoverySocketReserved then {a.identity.newConnectionId} else ∅
  scheduled : a.isRecoveryAttempt = false → a.recoverySocketReserved = false ∧
    allocated ⊆ {a.identity.oldConnectionId, a.identity.newConnectionId} ∧
    (phase ≠ .recovering → allocated = {a.identity.oldConnectionId, a.identity.newConnectionId})

/-- The connections held with no attempt under way. -/
def RotationState.Idle (s : RotationState) : Prop :=
  match s.phase with
  | .active => s.allocatedConnections = {s.activeConnectionId}
  | .recovering => s.allocatedConnections ⊆ {s.activeConnectionId}
  | .closed => s.allocatedConnections = ∅
  | _ => False

structure RotationState.Accounted (s : RotationState) : Prop where
  used : s.allocatedConnections ⊆ s.usedConnectionIds
  history : s.usedConnectionIds.card ≤ maxConnectionIdHistory
  idle : s.attempt = none → s.Idle
  open_ : ∀ a, s.attempt = some a → s.phase ≠ .active ∧ s.phase ≠ .closed
  fresh : ∀ a, s.attempt = some a → a.identity.newConnectionId ≠ a.identity.oldConnectionId ∧
    a.identity.newConnectionId ∈ s.usedConnectionIds
  /-- A scheduled attempt replaces the active carrier. -/
  replaces : ∀ a, s.attempt = some a → a.isRecoveryAttempt = false →
    a.identity.oldConnectionId = s.activeConnectionId
  holds : ∀ a, s.attempt = some a → a.Holds s.phase s.allocatedConnections

namespace RotationState.Accounted

variable {s t : RotationState} {a b : AttemptState} {now : Nat}

theorem observed (h : s.Accounted) (now : Nat) : (s.observed now).Accounted :=
  ⟨h.used, h.history, h.idle, h.open_, h.fresh, h.replaces, h.holds⟩

theorem of_idle (hused : t.allocatedConnections ⊆ t.usedConnectionIds)
    (hhistory : t.usedConnectionIds.card ≤ maxConnectionIdHistory) (hnone : t.attempt = none)
    (hidle : t.Idle) : t.Accounted where
  used := hused
  history := hhistory
  idle _ := hidle
  open_ _ ha := nomatch hnone.symm.trans ha
  fresh _ ha := nomatch hnone.symm.trans ha
  replaces _ ha := nomatch hnone.symm.trans ha
  holds _ ha := nomatch hnone.symm.trans ha

theorem of_attempt (hused : t.allocatedConnections ⊆ t.usedConnectionIds)
    (hhistory : t.usedConnectionIds.card ≤ maxConnectionIdHistory) (hb : t.attempt = some b)
    (hopen : t.phase ≠ .active ∧ t.phase ≠ .closed)
    (hfresh : b.identity.newConnectionId ≠ b.identity.oldConnectionId ∧
      b.identity.newConnectionId ∈ t.usedConnectionIds)
    (hreplaces : b.isRecoveryAttempt = false → b.identity.oldConnectionId = t.activeConnectionId)
    (hholds : b.Holds t.phase t.allocatedConnections) : t.Accounted where
  used := hused
  history := hhistory
  idle hnone := nomatch hb.symm.trans hnone
  open_ _ _ := hopen
  fresh a ha := by
    cases hb.symm.trans ha
    exact hfresh
  replaces a ha := by
    cases hb.symm.trans ha
    exact hreplaces
  holds a ha := by
    cases hb.symm.trans ha
    exact hholds

section

variable (h : s.Accounted)
include h

theorem goesOn (hgo : GoesOn s t a b) (hsubset : t.allocatedConnections ⊆ s.allocatedConnections)
    (hholds : b.Holds t.phase t.allocatedConnections) : t.Accounted := by
  obtain ⟨ha, hb, hsame, hsettled, hleads⟩ := hgo
  refine of_attempt ?_ ?_ hb (RotationPhase.open_of_leadsTo hleads) ?_ ?_ hholds
  · rw [hsettled.usedConnectionIds]
    exact hsubset.trans h.used
  · rw [hsettled.usedConnectionIds]
    exact h.history
  · rw [hsame.identity, hsettled.usedConnectionIds]
    exact h.fresh a ha
  · rw [hsame.identity, hsame.isRecoveryAttempt, hsettled.activeConnectionId]
    exact h.replaces a ha

theorem goOn (hgo : GoesOn s t a b) (hallocated : t.allocatedConnections = s.allocatedConnections)
    (hreserved : b.recoverySocketReserved = a.recoverySocketReserved) : t.Accounted := by
  refine h.goesOn hgo hallocated.subset ?_
  have hholds := h.holds a hgo.before
  rw [hallocated]
  refine ⟨fun hrecovery => ?_, fun hscheduled => ?_⟩
  · rw [hgo.same.isRecoveryAttempt] at hrecovery
    obtain ⟨hphase, heq⟩ := hholds.recovery hrecovery
    rw [hreserved, hgo.same.identity]
    exact ⟨RotationPhase.eq_recovering_of_leadsTo hgo.phase hphase, heq⟩
  · rw [hgo.same.isRecoveryAttempt] at hscheduled
    obtain ⟨hres, hsubset, heq⟩ := hholds.scheduled hscheduled
    rw [hreserved, hgo.same.identity]
    exact ⟨hres, hsubset, fun hphase =>
      heq (mt (RotationPhase.eq_recovering_of_leadsTo hgo.phase) hphase)⟩

theorem release {connectionId : String} (hrelease : Releases s t a b connectionId) :
    t.Accounted := by
  obtain ⟨hgo, hphase, hallocated, hscheduled, hrecovery⟩ := hrelease
  have hsubset : t.allocatedConnections ⊆ s.allocatedConnections := by
    rw [hallocated]
    exact erase_subset _ _
  refine h.goesOn hgo hsubset ?_
  have hholds := h.holds a hgo.before
  refine ⟨fun hr => ?_, fun hs => ?_⟩
  · rw [hgo.same.isRecoveryAttempt] at hr
    obtain ⟨hrecovering, heq⟩ := hholds.recovery hr
    refine ⟨hphase, ?_⟩
    rw [hallocated, heq, hrecovery hr hrecovering, hgo.same.identity]
    by_cases hnew : connectionId = a.identity.newConnectionId
    · subst hnew
      cases a.recoverySocketReserved <;> simp
    · cases a.recoverySocketReserved <;> simp [hnew, erase_eq_of_notMem]
  · rw [hgo.same.isRecoveryAttempt] at hs
    obtain ⟨hres, hsub, -⟩ := hholds.scheduled hs
    rw [hscheduled hs, hgo.same.identity]
    exact ⟨hres, hsubset.trans hsub, fun hne => absurd hphase hne⟩

theorem isScheduled (ha : s.attempt = some a) (hphase : s.phase ≠ .recovering) :
    a.isRecoveryAttempt = false :=
  Bool.eq_false_iff.2 fun hrecovery => hphase ((h.holds a ha).recovery hrecovery).1

theorem both (ha : s.attempt = some a) (hphase : s.phase ≠ .recovering) :
    s.allocatedConnections = {a.identity.oldConnectionId, a.identity.newConnectionId} :=
  ((h.holds a ha).scheduled (h.isScheduled ha hphase)).2.2 hphase

end

variable {identity : RotationAttemptIdentity}

section

variable (h : s.Accounted)
include h

theorem start {cap : Option Nat} (hstart : Starts now s identity cap t) : t.Accounted := by
  obtain ⟨hphase, hnames, hunused, hroom, b, hnew, rfl⟩ := hstart
  have hnone : s.attempt = none := by
    cases ha : s.attempt with
    | none => rfl
    | some a => exact absurd hphase (h.open_ a ha).1
  have hidle : s.allocatedConnections = {s.activeConnectionId} := by
    have hidle := h.idle hnone
    rwa [RotationState.Idle, hphase] at hidle
  have hidentity : b.identity = identity := by rw [hnew.eq]
  have hscheduled : b.isRecoveryAttempt = false := by rw [hnew.eq]
  have hreserved : b.recoverySocketReserved = false := by rw [hnew.eq]
  have hpair : insert b.identity.newConnectionId s.allocatedConnections =
      {b.identity.oldConnectionId, b.identity.newConnectionId} := by
    rw [hidle, hidentity, hnames.oldConnectionId, pair_comm]
  refine of_attempt ?_ ?_ rfl ⟨nofun, nofun⟩ ?_ ?_ ?_
  · show insert b.identity.newConnectionId s.allocatedConnections ⊆
      insert identity.newConnectionId s.usedConnectionIds
    rw [hidentity]
    exact insert_subset_insert _ h.used
  · show (insert identity.newConnectionId s.usedConnectionIds).card ≤ _
    rw [card_insert_of_notMem hunused]
    exact hroom
  · rw [hidentity]
    exact ⟨hnames.fresh, mem_insert_self _ _⟩
  · intro _
    rw [hidentity]
    exact hnames.oldConnectionId
  · refine ⟨fun hrecovery => (nomatch hscheduled.symm.trans hrecovery), fun _ => ?_⟩
    exact ⟨hreserved, hpair.subset, fun _ => hpair⟩

theorem recover {roster : StreamRoster} {reason : RecoveryReason} {deadline : Nat}
    (hrecover : Recovers now s identity roster reason deadline t) : t.Accounted := by
  obtain ⟨-, hnames, -, -, hreleased, -, hunused, hroom, b, hnew, rfl⟩ := hrecover
  have hidentity : b.identity = identity := by rw [hnew.eq]
  have hreserved : b.recoverySocketReserved = false := by rw [hnew.eq]
  refine of_attempt ?_ ?_ rfl ⟨nofun, nofun⟩ ?_ nofun ?_
  · exact h.used.trans (subset_insert _ _)
  · show (insert identity.newConnectionId s.usedConnectionIds).card ≤ _
    rw [card_insert_of_notMem hunused]
    exact hroom
  · rw [hidentity]
    exact ⟨hnames.fresh, mem_insert_self _ _⟩
  · refine ⟨fun _ => ⟨rfl, ?_⟩, nofun⟩
    rw [hreserved]
    exact hreleased

theorem reserve (hreserve : Reserves now s t) : t.Accounted := by
  obtain ⟨hphase, hreleased, -, a, ha, hrecovery, -, rfl⟩ := hreserve
  have hinsert : insert a.identity.newConnectionId s.allocatedConnections =
      {a.identity.newConnectionId} := by
    rw [hreleased]
    rfl
  refine of_attempt ?_ h.history rfl ?_ (h.fresh a ha) (h.replaces a ha) ?_
  · exact insert_subset (h.fresh a ha).2 h.used
  · exact h.open_ a ha
  · exact ⟨fun _ => ⟨hphase, hinsert⟩, fun hs => nomatch hs.symm.trans hrecovery⟩

theorem reconcile (hreconcile : Reconciles now s identity t) : t.Accounted := by
  obtain ⟨-, -, hcard, hmem, -, rfl⟩ := hreconcile
  refine of_idle h.used h.history rfl ?_
  obtain ⟨c, hc⟩ := card_eq_one.1 hcard
  show s.allocatedConnections = {identity.newConnectionId}
  rw [hc] at hmem ⊢
  rw [mem_singleton.1 hmem]

theorem takeOver (forced missing : Bool) (ha : s.attempt = some a) (hphase : s.phase = .retiring) :
    RotationState.Accounted { (s.released a.identity.oldConnectionId).activated
      a.identity.newGeneration a.identity.newConnectionId with
      deadlineForcedRetirement := forced, connectorRetirementMissing := missing } := by
  have hboth := h.both ha (by rw [hphase]; decide)
  have hne := (h.fresh a ha).1
  refine of_idle ((erase_subset _ _).trans h.used) h.history rfl ?_
  show s.allocatedConnections.erase a.identity.oldConnectionId = {a.identity.newConnectionId}
  rw [hboth, erase_insert]
  simpa using hne.symm

theorem aborted (ha : s.attempt = some a) (hphase : s.phase = .aborting) :
    ((s.released a.identity.newConnectionId).activated
      s.activeGeneration s.activeConnectionId).Accounted := by
  have hrecovering : s.phase ≠ .recovering := by
    rw [hphase]
    decide
  have hboth := h.both ha hrecovering
  have hne := (h.fresh a ha).1
  refine of_idle ((erase_subset _ _).trans h.used) h.history rfl ?_
  show s.allocatedConnections.erase a.identity.newConnectionId = {s.activeConnectionId}
  rw [hboth, pair_comm, erase_insert, h.replaces a ha (h.isScheduled ha hrecovering)]
  simpa using hne

theorem idle_subset (hnone : s.attempt = none) :
    s.allocatedConnections ⊆ {s.activeConnectionId} := by
  have hidle := h.idle hnone
  unfold RotationState.Idle at hidle
  split at hidle
  · exact hidle.subset
  · exact hidle
  · rw [hidle]
    exact empty_subset _
  · exact hidle.elim

theorem outline {begun : Option Begun} (hstep : Outline now s begun t) : t.Accounted := by
  cases hstep with
  | stay => exact h
  | close reason => exact of_idle (empty_subset _) h.history rfl rfl
  | goOn hgo hallocated hreserved => exact h.goOn hgo hallocated hreserved
  | release hrelease => exact h.release hrelease
  | lose hnone hphase => exact of_idle h.used h.history hnone (h.idle_subset hnone)
  | free connectionId hnone hphase =>
    have hsubset := erase_subset connectionId s.allocatedConnections
    refine of_idle (hsubset.trans h.used) h.history hnone ?_
    rw [RotationState.Idle, show (s.released connectionId).phase = .recovering from hphase]
    exact hsubset.trans (h.idle_subset hnone)
  | start hstart => exact h.start hstart
  | waste hmem hunused => exact absurd (h.used hmem) hunused
  | takeOver forced missing ha hphase => exact h.takeOver forced missing ha hphase
  | aborted ha hphase => exact h.aborted ha hphase
  | recover hrecover => exact h.recover hrecover
  | reserve _ hreserve => exact h.reserve hreserve
  | reconcile hreconcile => exact h.reconcile hreconcile

end

end RotationState.Accounted

section

variable [Sha256] {s : RotationState}

theorem accounted_invariant : Invariant RotationState.Accounted where
  observed now h := h.observed now
  move h hmove := h.outline hmove.outline

omit [Sha256] in
theorem RotationState.Opened.accounted (h : Opened s) : s.Accounted := by
  obtain ⟨hphase, hnone, hallocated, hused, -, -, -⟩ := h.fresh
  refine .of_idle ?_ ?_ hnone ?_
  · rw [hallocated, hused]
  · rw [hused, card_singleton]
    decide
  · rw [RotationState.Idle, hphase]
    exact hallocated

theorem RotationState.Reachable.accounted (h : Reachable s) : s.Accounted :=
  accounted_invariant.reachable Opened.accounted h

end

/-! ## What the accounts say -/

namespace RotationState.Accounted

variable {s : RotationState} {a : AttemptState}

section

variable (h : s.Accounted)
include h

theorem card_le : s.allocatedConnections.card ≤ maxDataSockets := by
  cases ha : s.attempt with
  | none => exact (card_le_card (h.idle_subset ha)).trans (by simp [maxDataSockets])
  | some a =>
    cases hr : a.isRecoveryAttempt with
    | true =>
      rw [((h.holds a ha).recovery hr).2]
      split <;> simp [maxDataSockets]
    | false =>
      exact (card_le_card ((h.holds a ha).scheduled hr).2.1).trans card_le_two

/-- Only a steady, a recovering or a closed machine has no attempt. -/
theorem attempt_of_phase (hactive : s.phase ≠ .active)
    (hrecovering : s.phase ≠ .recovering) (hclosed : s.phase ≠ .closed) :
    ∃ a, s.attempt = some a := by
  cases ha : s.attempt with
  | some a => exact ⟨a, rfl⟩
  | none =>
    have hidle := h.idle ha
    unfold RotationState.Idle at hidle
    split at hidle
    · next hphase => exact absurd hphase hactive
    · next hphase => exact absurd hphase hrecovering
    · next hphase => exact absurd hphase hclosed
    · exact hidle.elim

theorem active (hphase : s.phase = .active) :
    s.allocatedConnections = {s.activeConnectionId} ∧ s.attempt = none := by
  cases ha : s.attempt with
  | none =>
    have hidle := h.idle ha
    rw [RotationState.Idle, hphase] at hidle
    exact ⟨hidle, rfl⟩
  | some a => exact absurd hphase (h.open_ a ha).1

theorem socketCount_eq (hclosed : s.phase ≠ .closed) :
    s.socketCount = 1 + s.allocatedConnections.card := by
  have hpair (hactive : s.phase ≠ .active) (hrecovering : s.phase ≠ .recovering) :
      s.allocatedConnections.card = 2 := by
    obtain ⟨a, ha⟩ := h.attempt_of_phase hactive hrecovering hclosed
    rw [h.both ha hrecovering]
    exact card_pair (h.fresh a ha).1.symm
  cases hphase : s.phase with
  | closed => exact absurd hphase hclosed
  | active =>
    rw [(h.active hphase).1, card_singleton, socketCount, hphase]
    rfl
  | recovering =>
    have hlt : s.allocatedConnections.card < 2 ^ 8 := lt_of_le_of_lt h.card_le (by decide)
    rw [socketCount, hphase]
    exact congrArg (1 + ·) (Nat.mod_eq_of_lt hlt)
  | preparing | quiescing | draining | committing | retiring | aborting =>
    rw [hpair (by rw [hphase]; decide) (by rw [hphase]; decide), socketCount, hphase]
    rfl

theorem reserved_iff (ha : s.attempt = some a) :
    a.recoverySocketReserved = true ↔
      a.isRecoveryAttempt = true ∧ a.identity.newConnectionId ∈ s.allocatedConnections := by
  cases hr : a.isRecoveryAttempt with
  | true =>
    rw [((h.holds a ha).recovery hr).2]
    cases a.recoverySocketReserved <;> simp
  | false => simp [((h.holds a ha).scheduled hr).1]

end

end RotationState.Accounted

section

variable {s : RotationState}

theorem ne_notAllocated {α : Type} {r : Except RotationError α} [hr : Plainly r] {e : RotationError}
    (he : r = .error e) : e ≠ .connectionNotAllocated := by
  rintro rfl
  exact hr.of_error _ he

theorem candidateClosed_allocated (h : s.Accounted) (identity : RotationAttemptIdentity)
    (side : RotationSide) (evidence : ClosureEvidence) (now : Nat) :
    wp (candidateClosed identity side evidence now) s (fun _ _ => True)
      fun e _ => e ≠ .refused .connectionNotAllocated := by
  unfold candidateClosed candidateGone
  simp only [wp_bind, wp_observeTime, wp_get, wp_refuseIf, wp_ensureAttempt, wp_expectAttempt,
    wp_validated, wp_setAttempt, wp_ite, wp_modify, wp_enterRecoveryInPlace, wp_pure, ne_eq,
    Fault.refused.injEq, reduceCtorEq, not_false_eq_true, implies_true, and_true, true_and,
    forall_unit]
  refine ⟨fun _ => ne_notAllocated, fun _ _ => ⟨fun _ => ne_notAllocated, fun _ _ ha _ b hb =>
    ⟨fun _ => ne_notAllocated, fun _ _ _ hreserved _ hrecovering hrecovery hmem => ?_⟩⟩⟩
  refine absurd ((h.reserved_iff hb).1 ?_).2 hmem
  by_contra hopen
  exact hreserved ⟨hrecovering, hrecovery, Bool.eq_false_iff.2 hopen⟩

end

/-- In every reachable state at most two connections are allocated, all of them
claimed and of these never more than 256; the socket count is the control socket and
the allocated connections; the phase says which connections these are; and no
operation panics or finds that a candidate it has released was not allocated. -/
theorem carriers_accounted [Sha256] {s : RotationState} (h : Reachable s) :
    (s.allocatedConnections.card ≤ 2 ∧ s.allocatedConnections ⊆ s.usedConnectionIds ∧
      s.usedConnectionIds.card ≤ 256) ∧
    ((s.phase = .closed → s.socketCount = 0) ∧
      (s.phase ≠ .closed → s.socketCount = 1 + s.allocatedConnections.card) ∧
      s.socketCount ≤ 3) ∧
    (s.phase = .active → s.allocatedConnections = {s.activeConnectionId} ∧ s.attempt = none) ∧
    (s.phase ∈ [.preparing, .quiescing, .draining, .committing, .retiring, .aborting] →
      ∃ a, s.attempt = some a ∧
        s.allocatedConnections = {a.identity.oldConnectionId, a.identity.newConnectionId}) ∧
    (∀ a, s.attempt = some a →
      (a.recoverySocketReserved = true ↔
        a.isRecoveryAttempt = true ∧ a.identity.newConnectionId ∈ s.allocatedConnections)) ∧
    (∀ (op : Op) (panic : Panic) (t : RotationState), op.exec.run s ≠ .error (.panicked panic) t) ∧
    (∀ (identity : RotationAttemptIdentity) (side : RotationSide) (evidence : ClosureEvidence)
      (now : Nat) (t : RotationState),
      (candidateClosed identity side evidence now).run s ≠
        .error (.refused .connectionNotAllocated) t) := by
  have hs := h.accounted
  have hzero : s.phase = .closed → s.socketCount = 0 := fun hphase => by
    rw [RotationState.socketCount, hphase]
  refine ⟨⟨hs.card_le, hs.used, hs.history⟩, ⟨hzero, hs.socketCount_eq, ?_⟩, hs.active, ?_,
    fun a ha => hs.reserved_iff ha, ?_, ?_⟩
  · by_cases hclosed : s.phase = .closed
    · rw [hzero hclosed]
      decide
    · rw [hs.socketCount_eq hclosed]
      exact Nat.add_le_add_left hs.card_le 1
  · intro hphase
    obtain ⟨a, ha⟩ := hs.attempt_of_phase (fun h => by simp [h] at hphase)
      (fun h => by simp [h] at hphase) (fun h => by simp [h] at hphase)
    exact ⟨a, ha, hs.both ha fun h => by simp [h] at hphase⟩
  · intro op panic t hrun
    cases wp_of_error (op.exec_changes s) hrun with
    | observed _ _ h =>
      cases h with
      | panic hcard => exact absurd hs.card_le (not_le.2 hcard)
  · intro identity side evidence now t hrun
    exact wp_of_error (candidateClosed_allocated hs identity side evidence now) hrun rfl

set_option maxRecDepth 4000 in
/-- A machine that is handing over accounts for both carriers. -/
theorem carriers_accounted_draining :
    (demoRun demoDrain).phase = .committing ∧
      ∃ a, (demoRun demoDrain).attempt = some a ∧
        (demoRun demoDrain).allocatedConnections =
          {a.identity.oldConnectionId, a.identity.newConnectionId} :=
  ⟨by decide, (@carriers_accounted zeroDigest _ (demo_reachable demoDrain)).2.2.2.1 (by decide)⟩

/-! ## Operations that fail -/

def RotationError.ofDeadline : RotationError → Bool
  | deadlineExpired _ _ | handshakeDeadlineExpired _ _ | recoveryDeadlineExpired _ _ => true
  | _ => false

/-- The phase moves as the deadlines of the attempt say. -/
inductive PhaseExpires (s t : RotationState) (time : Option Nat) : Prop
  | stays (hphase : t.phase = s.phase)
  | recovers {a : AttemptState} {now : Nat} (ha : s.attempt = some a) (htime : time = some now)
      (hnow : a.overlapDeadlineMs ≤ now) (hphase : t.phase = .recovering)
  | aborts {a : AttemptState} {now : Nat} (ha : s.attempt = some a) (htime : time = some now)
      (hnow : a.handshakeDeadlineMs ≤ now) (hbefore : now < a.overlapDeadlineMs)
      (hpreparing : s.phase = .preparing) (hphase : t.phase = .aborting)

/-- An operation that is refused has moved the phase as the deadlines say, has closed the
machine because its history is full, or has changed nothing but the time. -/
theorem refused_operation_keeps [Sha256] {s t : RotationState} {op : Op} {e : RotationError}
    (h : Reachable s) (hrun : op.exec.run s = .error (.refused e) t) :
    (e.ofDeadline = true → PhaseExpires s t op.time ∧
      t.activeGeneration = s.activeGeneration ∧ t.activeConnectionId = s.activeConnectionId ∧
      t.generationHighWatermark = s.generationHighWatermark ∧
      t.usedConnectionIds = s.usedConnectionIds) ∧
    (∀ maximum, e = .connectionHistoryExhausted maximum → t.phase = .closed) ∧
    (e.ofDeadline = false → (∀ maximum, e ≠ .connectionHistoryExhausted maximum) →
      t = { s with lastTimeMs := t.lastTimeMs }) := by
  have hs := h.accounted
  cases wp_of_error (op.exec_changes s) hrun with
  | refused he =>
    refine ⟨fun _ => ⟨.stays rfl, rfl, rfl, rfl, rfl⟩, ?_, fun _ _ => rfl⟩
    rintro _ rfl
    cases he
  | observed htime _ hfails =>
    cases hfails with
    | refuse he =>
      refine ⟨fun _ => ⟨.stays rfl, rfl, rfl, rfl, rfl⟩, ?_, fun _ _ => rfl⟩
      rintro _ rfl
      cases he
    | expire ha hnow =>
      refine ⟨fun _ => ⟨.recovers ha htime hnow rfl, rfl, rfl, rfl, rfl⟩, ?_, ?_⟩ <;>
        simp [RotationError.ofDeadline]
    | expireHandshake ha hphase hnow hbefore =>
      refine ⟨fun _ => ⟨.aborts ha htime hnow hbefore hphase rfl, rfl, rfl, rfl, rfl⟩, ?_, ?_⟩ <;>
        simp [RotationError.ofDeadline]
    | exhaust =>
      refine ⟨?_, fun _ _ => rfl, ?_⟩ <;> simp [RotationError.ofDeadline]
    | waste hmem hunused => exact absurd (hs.used hmem) hunused
    | unallocated ha _ hreserved hmem =>
      exact absurd ((hs.reserved_iff ha).1 hreserved).2 hmem

def lowProof : DrainProof := ⟨"snapshot-1", "00", .connectorToRelay, [⟨7, 2⟩]⟩

set_option maxRecDepth 4000 in
/-- A proof below its fence is refused and the evidence so far stays; a commit past the
deadline is refused and the attempt is given to recovery. -/
theorem refused_operation_keeps_draining :
    (∃ t, (@Op.exec zeroDigest (.drained demoIdentity lowProof 6)).run
          (demoRun (demoDrain.take 6)) = .error (.refused (.ackBelowFence 7 3 2)) t ∧
      t = { demoRun (demoDrain.take 6) with lastTimeMs := t.lastTimeMs }) ∧
    ∃ t, (@Op.exec zeroDigest (.commit demoIdentity 1000000)).run (demoRun demoDrain) =
        .error (.refused (.deadlineExpired 1000000 30000)) t ∧ t.phase = .recovering ∧
      PhaseExpires (demoRun demoDrain) t (some 1000000) :=
  ⟨⟨_, rfl, (@refused_operation_keeps zeroDigest _ _ (.drained demoIdentity lowProof 6)
      (.ackBelowFence 7 3 2) (demo_reachable (demoDrain.take 6)) rfl).2.2 rfl (by simp)⟩,
    _, rfl, rfl, ((@refused_operation_keeps zeroDigest _ _ (.commit demoIdentity 1000000)
      (.deadlineExpired 1000000 30000) (demo_reachable demoDrain) rfl).1 rfl).1⟩

/-! ## How the machine goes on -/

/-- The phases that may follow one another. -/
def RotationPhase.follows : RotationPhase → RotationPhase → Bool
  | .closed, q => q = .closed
  | _, .closed => true
  | .active, q => q ∈ [.active, .preparing, .recovering]
  | p, .active => p ∈ [.retiring, .aborting, .recovering]
  | p, q => p = q || p.leadsTo q

/-- The traffic leaves its carrier only for the candidate of an attempt that is done. -/
def RotationState.GoesTo (s t : RotationState) : Prop :=
  s.phase.follows t.phase = true ∧
    (t.activeConnectionId = s.activeConnectionId ∧ t.activeGeneration = s.activeGeneration ∨
      ∃ a, s.attempt = some a ∧
        (s.phase = .retiring ∨ s.phase = .recovering ∧ a.isRecoveryAttempt = true) ∧
        t.phase = .active ∧ t.activeConnectionId = a.identity.newConnectionId ∧
        t.activeGeneration = a.identity.newGeneration)

theorem RotationState.goesTo_self (s : RotationState) : s.GoesTo s :=
  ⟨by cases s.phase <;> rfl, .inl ⟨rfl, rfl⟩⟩

theorem Outline.goesTo {now : Nat} {s t : RotationState} {begun : Option Begun}
    (h : Outline now s begun t) (hs : s.Accounted) : s.GoesTo t := by
  have hgoes {a b : AttemptState} (hg : GoesOn s t a b) : s.GoesTo t := by
    refine ⟨?_, .inl ⟨hg.settled.activeConnectionId, hg.settled.activeGeneration⟩⟩
    have hopen := hs.open_ a hg.before
    have hleads := hg.phase
    revert hopen hleads
    cases s.phase <;> cases t.phase <;> decide
  cases h with
  | stay => exact s.goesTo_self
  | close => exact ⟨by cases hphase : s.phase <;> rfl, .inl ⟨rfl, rfl⟩⟩
  | goOn hg | reserve hg => exact hgoes hg
  | release hr => exact hgoes hr.toGoesOn
  | lose _ hphase =>
    refine ⟨?_, .inl ⟨rfl, rfl⟩⟩
    show s.phase.follows .recovering = true
    revert hphase
    cases s.phase <;> decide
  | free | waste => exact ⟨s.goesTo_self.1, .inl ⟨rfl, rfl⟩⟩
  | start hstart =>
    obtain ⟨a, -, rfl⟩ := hstart.new
    exact ⟨hstart.phase ▸ rfl, .inl ⟨rfl, rfl⟩⟩
  | takeOver forced missing ha hphase =>
    exact ⟨hphase ▸ rfl, .inr ⟨_, ha, .inl hphase, rfl, rfl, rfl⟩⟩
  | aborted ha hphase => exact ⟨hphase ▸ rfl, .inl ⟨rfl, rfl⟩⟩
  | recover hrecover =>
    obtain ⟨a, -, rfl⟩ := hrecover.new
    exact ⟨hrecover.phase.elim (· ▸ rfl) (· ▸ rfl), .inl ⟨rfl, rfl⟩⟩
  | reconcile hr =>
    obtain ⟨a, ha, rfl, hrecovery, -⟩ := hr.attempt
    rw [hr.eq]
    exact ⟨hr.phase ▸ rfl, .inr ⟨a, ha, .inr ⟨hr.phase, hrecovery⟩, rfl, rfl, rfl⟩⟩

/-- Whatever is called, and whether or not it is refused. -/
theorem traffic_moves_by_handover [Sha256] {s : RotationState} (h : Reachable s) (op : Op) :
    s.GoesTo (op.next s) := by
  have hchange := op.next_change s
  generalize op.time = time, op.begun s = begun, op.next s = t at hchange ⊢
  cases hchange with
  | same => exact s.goesTo_self
  | shut => exact (@Outline.close 0 s none).goesTo h.accounted
  | move _ hmove => exact hmove.outline.goesTo (h.accounted.observed _)

/-- Both sides have closed the old carrier but for the connector's word, and it comes. -/
theorem traffic_moves_by_handover_retired :
    let s := demoRun (demoDrain ++ .commit demoIdentity 7 :: demoRetire.take 3)
    let op := Op.oldSocketClosed demoIdentity .connector ⟨"carrier-1", true, true⟩ 11
    s.phase = .retiring ∧ s.activeConnectionId = "carrier-1" ∧
      (@Op.next zeroDigest op s).activeConnectionId = "carrier-2" ∧
      s.GoesTo (@Op.next zeroDigest op s) :=
  ⟨rfl, rfl, rfl, @traffic_moves_by_handover zeroDigest _ (demo_reachable _) _⟩

end AgentUplink
