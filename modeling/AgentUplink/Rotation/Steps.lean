/-
Every operation makes a move.

The rules below run the shared steps of the operations symbolically. With them
each operation reduces to its branches, and what is left is to name the move of
each branch. An operation panics only if more data sockets are allocated than
the machine ever allows.
-/
import AgentUplink.Rotation.Moves

namespace AgentUplink

open Machine Fallible

/-! ## Rules for the shared steps -/

section Rules

@[simp] theorem forall_unit {p : Unit → Prop} : (∀ u, p u) ↔ p () := ⟨fun h => h (), fun h _ => h⟩

variable {α : Type} {s : RotationState} {post : α → RotationState → Prop}
  {fail : Fault → RotationState → Prop}

@[simp] theorem wp_refuse (e : RotationError) :
    wp (refuse e : Rotation α) s post fail ↔ fail (.refused e) s := Iff.rfl

@[simp] theorem wp_orRefuse (o : Option α) (e : RotationError) :
    wp (orRefuse o e) s post fail ↔ (o = none → fail (.refused e) s) ∧ ∀ a, o = some a → post a s :=
  wp_orFail o _

@[simp] theorem wp_validated (r : Except RotationError α) :
    wp (validated r) s post fail ↔
      (∀ e, r = .error e → fail (.refused e) s) ∧ ∀ a, r = .ok a → post a s := by
  unfold validated
  rw [wp_check]
  cases r <;> simp [Except.mapError]

@[simp] theorem wp_expectAttempt {post : AttemptState → RotationState → Prop} :
    wp expectAttempt s post fail ↔
      (s.attempt = none → fail (.panicked .phaseChecked) s) ∧
        ∀ a, s.attempt = some a → post a s := by
  unfold expectAttempt
  simp

variable {post : Unit → RotationState → Prop}

@[simp] theorem wp_refuseIf (c : Prop) [Decidable c] (e : RotationError) :
    wp (refuseIf c e) s post fail ↔ (c → fail (.refused e) s) ∧ (¬ c → post () s) :=
  wp_failIf c _

@[simp] theorem wp_setAttempt (a : AttemptState) :
    wp (setAttempt a) s post fail ↔ post () (s.withAttempt a) := Iff.rfl

@[simp] theorem wp_setPhase (p : RotationPhase) :
    wp (setPhase p) s post fail ↔ post () { s with phase := p } := Iff.rfl

@[simp] theorem wp_observeTime (now : Nat) :
    wp (observeTime now) s post fail ↔
      (∀ e, s.checkClock now = .error e → fail (.refused e) s) ∧
        (s.checkClock now = .ok () → post () (s.observed now)) := by
  unfold observeTime
  simp

@[simp] theorem wp_ensureAttempt (identity : RotationAttemptIdentity) (expected : RotationPhase) :
    wp (ensureAttempt identity expected) s post fail ↔
      (∀ e, s.ensureAttempt identity expected = .error e → fail (.refused e) s) ∧
        ∀ a, s.phase = expected → s.attempt = some a → a.identity = identity → post () s := by
  unfold ensureAttempt
  simp only [wp_bind, wp_get, wp_validated, forall_unit]
  refine and_congr_right fun _ => ?_
  unfold RotationState.ensureAttempt
  by_cases hphase : s.phase = expected
  · cases ha : s.attempt with
    | none => simp [hphase]
    | some a => by_cases hid : a.identity = identity <;> simp [hphase, hid]
  · simp [hphase]

@[simp] theorem wp_enterRecoveryInPlace (reason : RecoveryReason) :
    wp (enterRecoveryInPlace reason) s post fail ↔
      (maxDataSockets < s.allocatedConnections.card →
        fail (.panicked .dataSocketBound) (s.recovering reason)) ∧
      (s.allocatedConnections.card ≤ maxDataSockets → post () (s.recovering reason)) := by
  unfold enterRecoveryInPlace debugAssert
  simp [RotationState.recovering]

@[simp] theorem wp_assertSocketBound :
    wp assertSocketBound s post fail ↔
      (maxTotalSockets < s.socketCount → fail (.panicked .socketBound) s) ∧
        (s.socketCount ≤ maxTotalSockets → post () s) := by
  unfold assertSocketBound debugAssert
  simp

@[simp] theorem wp_expire {post : α → RotationState → Prop} (now deadline : Nat) :
    wp (expire now deadline : Rotation α) s post fail ↔
      (maxDataSockets < s.allocatedConnections.card →
        fail (.panicked .dataSocketBound) (s.recovering .deadline)) ∧
      (s.allocatedConnections.card ≤ maxDataSockets →
        fail (.refused (.deadlineExpired now deadline)) (s.recovering .deadline)) := by
  unfold expire
  simp

@[simp] theorem wp_checkDeadline (now : Nat) :
    wp (checkDeadline now) s post fail ↔
      (s.attempt = none → fail (.refused .missingAttempt) s) ∧
      ∀ a, s.attempt = some a →
        (a.overlapDeadlineMs ≤ now → wp (expire now a.overlapDeadlineMs) s post fail) ∧
        (now < a.overlapDeadlineMs → post () s) := by
  unfold checkDeadline
  simp

@[simp] theorem wp_claimConnectionId (connectionId : String) :
    wp (claimConnectionId connectionId) s post fail ↔
      (connectionId ∈ s.usedConnectionIds → fail (.refused .connectionReuse) s) ∧
      (connectionId ∉ s.usedConnectionIds →
        (maxConnectionIdHistory ≤ s.usedConnectionIds.card →
          fail (.refused (.connectionHistoryExhausted maxConnectionIdHistory)) s.exhausted) ∧
        (s.usedConnectionIds.card < maxConnectionIdHistory →
          post () (s.claimed connectionId))) := by
  unfold claimConnectionId
  simp

end Rules

/-! ## Errors of the checks -/

/-- The errors that no check of a value gives. -/
@[simp] def RotationError.Plain : RotationError → Prop
  | connectionHistoryExhausted _ | connectionNotAllocated => False
  | _ => True

def RotationError.exhausts : RotationError → Bool
  | connectionHistoryExhausted _ => true
  | _ => false

section Plain

variable {s : RotationState} {now : Nat} {identity : RotationAttemptIdentity}

abbrev Plainly {α : Type} (r : Except RotationError α) : Prop := Errs RotationError.Plain r

theorem exhausts_of_plain {α : Type} {r : Except RotationError α} [hr : Plainly r]
    {e : RotationError} (he : r = .error e) : e.exhausts = false := by
  have := hr.of_error e he
  cases e <;> first | rfl | cases this

instance checkClock_plain : Plainly (s.checkClock now) := by
  unfold RotationState.checkClock
  split <;> simp

instance ensureAttempt_plain {expected : RotationPhase} :
    Plainly (s.ensureAttempt identity expected) := by
  unfold RotationState.ensureAttempt
  cases s.attempt <;> simp

instance validateIdentifier_plain {field value : String} :
    Plainly (validateIdentifier field value) := by
  simp [validateIdentifier]

instance validateRoster_plain {roster : StreamRoster} {maximum : Nat} :
    Plainly (validateRoster roster maximum) := by
  have hincreasing (seen : List UInt64) (previous : UInt64) (streamIds : List UInt64) :
      Plainly (validateIncreasing .duplicateRosterStream .rosterNotSorted seen previous
        streamIds) := by
    fun_induction validateIncreasing <;> simp_all
  simp [validateRoster, hincreasing]

variable {f : FenceSnapshot}

instance digestForSnapshot_plain [Sha256] : Plainly (digestForSnapshot f) := by
  unfold digestForSnapshot
  cases f.digest <;> simp [Except.mapError]

instance validateFenceSnapshot_plain [Sha256] {direction : Direction} {maximum : Nat} :
    Plainly (validateFenceSnapshot f direction maximum) := by
  have hentries (seen : List UInt64) (previous : UInt64) (entries : List StreamFence) :
      Plainly (validateFenceEntries direction seen previous entries) := by
    fun_induction validateFenceEntries <;> simp_all
  simp [validateFenceSnapshot, hentries, digestForSnapshot_plain]

instance validateAckCursors_plain {proof : DrainProof} : Plainly (validateAckCursors f proof) := by
  have hcollect (acks : List (UInt64 × Nat)) (rest : List StreamAck) :
      Plainly (collectAcks acks rest) := by
    fun_induction collectAcks <;> simp_all
  have hacks (acks : List (UInt64 × Nat)) (fences : List StreamFence) :
      Plainly (validateAcks acks fences) := by
    fun_induction validateAcks <;> simp_all
  simp [validateAckCursors, hcollect, hacks]

instance newWithDeadline_plain {config : RotationConfig} {cap : Option Nat} :
    Plainly (AttemptState.newWithDeadline identity now config cap) := by
  unfold AttemptState.newWithDeadline
  split <;> simp

instance validateAttemptIdentity_plain {generation : Nat} {connectionId : String} :
    Plainly (s.validateAttemptIdentity identity generation connectionId) := by
  simp [RotationState.validateAttemptIdentity, validateIdentifier_plain]

instance checkLost_plain : Plainly (s.checkLost identity) := by
  unfold RotationState.checkLost
  cases s.attempt <;> simp [validateAttemptIdentity_plain]

instance validateRecoveryDeadline_plain {proposed : Nat} :
    Plainly (s.validateRecoveryDeadline now proposed) := by
  unfold RotationState.validateRecoveryDeadline
  cases s.recoveryEpisodeDeadline <;> cases checkedAdd now s.config.recoveryTimeoutMs <;> simp

instance checkVerdicts_plain {seen : List UInt64} {verdicts : List ValidatedRecovery} :
    Plainly (checkVerdicts seen verdicts) := by
  have hranges (streamId : UInt64) (directions : List Direction) (ranges : List ReplayRange) :
      Plainly (checkRanges streamId directions ranges) := by
    fun_induction checkRanges <;> simp_all
  have hfailures (streamId : UInt64) (directions : List Direction)
      (failures : List RecoveryFailure) : Plainly (checkFailures streamId directions failures) := by
    fun_induction checkFailures <;> simp_all
  fun_induction checkVerdicts <;> simp_all

end Plain

/-! ## Bodies -/

/-- How a computation fails: it refuses and leaves the state as it was, or it has changed it.
A panic needs more data sockets than are ever allocated. -/
inductive Fails [Sha256] (now : Nat) (s : RotationState) : Fault → RotationState → Prop
  | refuse {e : RotationError} (he : e.exhausts = false) : Fails now s (.refused e) s
  | expire {a : AttemptState} (ha : s.attempt = some a) (hnow : a.overlapDeadlineMs ≤ now)
      (deadline : Nat) :
      Fails now s (.refused (.deadlineExpired now deadline)) (s.recovering .deadline)
  | expireHandshake {a : AttemptState} (ha : s.attempt = some a) (hphase : s.phase = .preparing)
      (hnow : a.handshakeDeadlineMs ≤ now) (hbefore : now < a.overlapDeadlineMs) :
      Fails now s (.refused (.handshakeDeadlineExpired now a.handshakeDeadlineMs))
        { s with phase := .aborting }
  | exhaust (hphase : s.phase = .active ∨ s.phase = .recovering) :
      Fails now s (.refused (.connectionHistoryExhausted maxConnectionIdHistory)) s.exhausted
  | waste {connectionId : String} (hmem : connectionId ∈ s.allocatedConnections)
      (hunused : connectionId ∉ s.usedConnectionIds) :
      Fails now s (.refused .connectionReuse) (s.claimed connectionId)
  | unallocated {a : AttemptState} {closed : Closures} (ha : s.attempt = some a)
      (hphase : s.phase = .recovering) (hreserved : a.recoverySocketReserved = true)
      (hmem : a.identity.newConnectionId ∉ s.allocatedConnections) :
      Fails now s (.refused .connectionNotAllocated)
        (s.withAttempt { a with candidateSocketClosed := closed })
  | panic {p : Panic} {t : RotationState} (hcard : maxDataSockets < s.allocatedConnections.card)
      (h : Move now s none t) : Fails now s (.panicked p) t

theorem Fails.move [Sha256] {now : Nat} {s t : RotationState} {e : Fault} (h : Fails now s e t) :
    Move now s none t := by
  cases h with
  | refuse => exact .stay
  | expire ha hnow => exact .expire ha hnow
  | expireHandshake ha hphase hnow hbefore => exact .expireHandshake ha hphase hnow hbefore
  | exhaust hphase => exact .exhaust hphase
  | waste hmem hunused => exact .waste hmem hunused
  | unallocated ha hphase =>
    refine .candidateClosing ha (.inr hphase) fun haborting => ?_
    cases hphase.symm.trans haborting
  | panic _ h => exact h

/-- The computation ends in `post` or fails. -/
def Makes [Sha256] {α : Type} (now : Nat) (x : Rotation α) (s : RotationState)
    (post : α → RotationState → Prop) : Prop :=
  wp x s post (Fails now s)

section Bodies

variable [Sha256] {now : Nat} {s : RotationState} {a : AttemptState} {α β : Type}
  {post : α → RotationState → Prop}

@[simp] theorem move_self : Move now s none s := .stay

variable {e : RotationError}

theorem makes_refuse (he : e.exhausts = false) : Makes now (refuse e : Rotation α) s post :=
  .refuse he

theorem makes_get {f : RotationState → Rotation α} (h : Makes now (f s) s post) :
    Makes now (get >>= f) s post := h

variable {f : Unit → Rotation α} {c : Prop}

theorem makes_refuseIf [Decidable c] (he : e.exhausts = false)
    (h : ¬ c → Makes now (f ()) s post) : Makes now (refuseIf c e >>= f) s post := by
  unfold Makes
  rw [wp_bind, wp_refuseIf]
  exact ⟨fun _ => .refuse he, h⟩

theorem fails_of_plain {r : Except RotationError β} [Plainly r] (he : r = .error e) :
    Fails now s (.refused e) s :=
  .refuse (exhausts_of_plain he)

theorem makes_validated {r : Except RotationError β} {f : β → Rotation α}
    [Plainly r] (h : ∀ b, r = .ok b → Makes now (f b) s post) :
    Makes now (validated r >>= f) s post := by
  unfold Makes
  rw [wp_bind, wp_validated]
  exact ⟨fun _ => fails_of_plain, h⟩

theorem makes_orRefuse {o : Option β} {f : β → Rotation α} (he : e.exhausts = false)
    (h : ∀ b, o = some b → Makes now (f b) s post) : Makes now (orRefuse o e >>= f) s post := by
  unfold Makes
  rw [wp_bind, wp_orRefuse]
  exact ⟨fun _ => .refuse he, h⟩

theorem makes_ite [Decidable c] {x y : Rotation α} (hx : c → Makes now x s post)
    (hy : ¬ c → Makes now y s post) : Makes now (if c then x else y) s post := by
  unfold Makes
  rw [wp_ite]
  exact ⟨hx, hy⟩

theorem makes_ensure {identity : RotationAttemptIdentity} {expected : RotationPhase}
    (h : ∀ a, s.phase = expected → s.attempt = some a → a.identity = identity →
      Makes now (f ()) s post) : Makes now (ensureAttempt identity expected >>= f) s post := by
  unfold Makes
  rw [wp_bind, wp_ensureAttempt]
  exact ⟨fun _ => fails_of_plain, h⟩

theorem makes_expect {f : AttemptState → Rotation α} (ha : s.attempt = some a)
    (h : Makes now (f a) s post) : Makes now (expectAttempt >>= f) s post := by
  unfold Makes
  rw [wp_bind, wp_expectAttempt, ha]
  refine ⟨fun hnone => (nomatch hnone), fun b hb => ?_⟩
  cases hb
  exact h

theorem makes_expire (ha : s.attempt = some a) (hnow : a.overlapDeadlineMs ≤ now) (deadline : Nat) :
    Makes now (expire now deadline : Rotation α) s post := by
  unfold Makes
  rw [wp_expire]
  exact ⟨fun hcard => .panic hcard (.expire ha hnow), fun _ => .expire ha hnow deadline⟩

theorem makes_deadline (ha : s.attempt = some a)
    (h : now < a.overlapDeadlineMs → Makes now (f ()) s post) :
    Makes now (checkDeadline now >>= f) s post := by
  unfold Makes
  rw [wp_bind, wp_checkDeadline, ha]
  refine ⟨fun hnone => (nomatch hnone), fun b hb => ?_⟩
  cases hb
  exact ⟨fun hnow => makes_expire ha hnow a.overlapDeadlineMs, h⟩

/-- A claim is refused, closes the machine or uses up an identifier. -/
theorem makes_claim {connectionId : String} (hphase : s.phase = .active ∨ s.phase = .recovering)
    (h : connectionId ∉ s.usedConnectionIds →
      s.usedConnectionIds.card < maxConnectionIdHistory →
        wp (f ()) (s.claimed connectionId) post (Fails now s)) :
    Makes now (claimConnectionId connectionId >>= f) s post := by
  unfold Makes
  rw [wp_bind, wp_claimConnectionId]
  exact ⟨fun _ => .refuse rfl, fun hunused =>
    ⟨fun _ => .exhaust hphase, h hunused⟩⟩

/-- Recovery is entered from a state that may differ in its attempt already. -/
theorem makes_enter {t : RotationState} {reason : RecoveryReason}
    (hmove : Move now s none (t.recovering reason))
    (hcard : t.allocatedConnections.card ≤ s.allocatedConnections.card) :
    wp (enterRecoveryInPlace reason) t (fun _ u => Move now s none u) (Fails now s) := by
  rw [wp_enterRecoveryInPlace]
  exact ⟨fun hlt => .panic (lt_of_lt_of_le hlt hcard) hmove, fun _ => hmove⟩

end Bodies

/-! ## Operations -/

/-- How an operation given this time fails. It is refused before it has observed the time, or
it fails after that. -/
inductive Failure [Sha256] (s : RotationState) (time : Option Nat) : Fault → RotationState → Prop
  | refused {e : RotationError} (he : e.exhausts = false) : Failure s time (.refused e) s
  | observed {now : Nat} {e : Fault} {t : RotationState} (htime : time = some now)
      (hclock : s.checkClock now = .ok ()) (h : Fails now (s.observed now) e t) :
      Failure s time e t

/-- Unless the clock went back, the operation observes its time and then ends in `post` or
fails. -/
def Observes [Sha256] {α : Type} (now : Nat) (x : Rotation α)
    (post : RotationState → α → RotationState → Prop) : Prop :=
  ∀ s : RotationState, wp x s
    (fun v t => s.checkClock now = .ok () ∧ post (s.observed now) v t) (Failure s (some now))

/-- The operation observes its time and makes a move, whatever it answers. -/
abbrev Moves [Sha256] {α : Type} (now : Nat) (x : Rotation α) : Prop :=
  Observes now x fun s _ t => Move now s none t

section Operations

variable [Sha256] {now : Nat} {s : RotationState} {α : Type}

theorem observes_of_makes {f : Unit → Rotation α} {post : RotationState → α → RotationState → Prop}
    (h : ∀ s, Makes now (f ()) s (post s)) : Observes now (observeTime now >>= f) post := by
  intro s
  rw [wp_bind, wp_observeTime]
  refine ⟨fun e he => .refused (exhausts_of_plain he), fun hclock => ?_⟩
  exact wp_mono (h (s.observed now)) (fun _ _ ht => ⟨hclock, ht⟩)
    fun _ _ ht => .observed rfl hclock ht

/-! ### Preparing -/

theorem startAttempt_makes {identity : RotationAttemptIdentity} {cap : Option Nat}
    (hphase : s.phase = .active) :
    Makes now (startAttempt identity now cap) s
      fun r t => r = .started ∧ Starts now s identity cap t := by
  refine makes_get <| makes_validated fun _ hnames => makes_refuseIf rfl fun _ =>
    makes_refuseIf rfl fun _ => makes_validated fun a hnew =>
      makes_claim (.inl hphase) fun hunused hroom => ?_
  simp only [wp_bind, wp_refuseIf, wp_modify, wp_assertSocketBound, wp_pure]
  refine ⟨fun hmem => .waste hmem hunused, fun _ =>
    ⟨fun hbound => ?_, fun _ => ?_⟩⟩
  · exact absurd hbound (lt_irrefl 3)
  · exact ⟨trivial, hphase, names_of_validate hnames, hunused, hroom, a,
      new_of_newWithDeadline hnew, rfl⟩

/-- What a request to prepare an attempt answers. -/
def Prepares (now : Nat) (identity : RotationAttemptIdentity) (cap : Option Nat)
    (s : RotationState) (r : PrepareResult) (t : RotationState) : Prop :=
  (r = .started ∧ Starts now s identity cap t) ∨ (r = .coalesced ∧ t = s)

variable (identity : RotationAttemptIdentity)

theorem prepareAgain_makes (cap : Option Nat) :
    Makes now (prepareAgain identity now) s (Prepares now identity cap s) := by
  refine makes_get ?_
  unfold RotationState.matchingDeadline
  cases ha : s.attempt with
  | none => exact makes_refuse rfl
  | some a =>
    by_cases hid : a.identity = identity
    · simp only [hid, if_true]
      exact makes_ite (fun hnow => makes_expire ha hnow _) fun _ =>
        makes_ite (fun _ => .inr ⟨rfl, rfl⟩) fun _ => makes_refuse rfl
    · simp only [hid, if_false]
      exact makes_refuse rfl

theorem prepareAfterObserved_makes (cap : Option Nat) :
    Makes now (prepareAfterObserved identity now cap) s (Prepares now identity cap s) :=
  makes_get <| makes_refuseIf rfl fun _ => makes_ite (fun _ => prepareAgain_makes identity cap)
    fun hphase => wp_mono (startAttempt_makes (not_not.1 hphase)) (fun _ _ ht => .inl ht)
      fun _ _ ht => ht

theorem prepare_observes : Observes now (prepare identity now) (Prepares now identity none) :=
  observes_of_makes fun _ => prepareAfterObserved_makes identity none

theorem prepareWithDeadlineCap_observes (cap : Nat) :
    Observes now (prepareWithDeadlineCap identity now cap) (Prepares now identity (some cap)) :=
  observes_of_makes fun _ => makes_refuseIf rfl fun _ =>
    prepareAfterObserved_makes identity (some cap)

theorem candidateReady_moves : Moves now (candidateReady identity now) := by
  refine observes_of_makes fun s => makes_ensure fun a hphase ha _ => makes_expect ha <|
    makes_ite (fun hnow => makes_expire ha hnow _) fun hbefore => ?_
  have hbefore := not_le.1 hbefore
  refine makes_ite (fun hnow => ?_) fun _ => ?_
  · exact .expireHandshake ha hphase hnow hbefore
  · exact .ready ha hphase hbefore

/-! ### Freezing and draining -/

theorem quiesce_moves (roster : StreamRoster) : Moves now (quiesce identity roster now) := by
  refine observes_of_makes fun s => makes_ensure fun a hphase ha _ => makes_expect ha <|
    makes_ite (fun hnow => makes_expire ha hnow _) fun hbefore => makes_get <|
      makes_refuseIf rfl fun _ => makes_validated fun _ hroster => makes_validated fun _ _ => ?_
  exact .quiesce ha hphase (not_le.1 hbefore) hroster

variable {a : AttemptState}

theorem makes_recorded {full : Bool} {phase : RotationPhase}
    (h : Move now s none { s.withAttempt a with phase := if full then phase else s.phase }) :
    Makes now (do setAttempt a; if full then setPhase phase else return ()) s
      (fun _ t => Move now s none t) := by
  show wp _ _ _ _
  simp only [wp_bind, wp_setAttempt, wp_ite, wp_setPhase, wp_pure]
  refine ⟨fun hfull => ?_, fun hopen => ?_⟩
  · rwa [if_pos hfull] at h
  · rw [if_neg hopen] at h
    exact h

theorem frozen_moves (f : FenceSnapshot) (d : Direction) : Moves now (frozen identity f d now) := by
  refine observes_of_makes fun s => makes_ensure fun a hphase ha _ => makes_deadline ha
    fun hbefore => makes_get <| makes_validated fun _ _ => makes_expect ha <|
      makes_orRefuse rfl fun roster hroster => makes_refuseIf rfl fun hid => makes_refuseIf rfl
        fun hdirection => makes_refuseIf rfl fun hmatch => ?_
  have hf : FenceOf roster d f := by
    refine ⟨not_not.1 hid, ?_, ?_⟩
    · simpa [fenceRosterMatches] using hmatch
    · simpa using hdirection
  unfold recordFence
  cases hold : a.frozen.get d with
  | some old => exact makes_ite (fun _ => Move.stay) fun _ => makes_refuse rfl
  | none =>
    refine makes_refuseIf rfl fun _ => ?_
    exact makes_recorded (Move.freeze ha hphase hbefore hroster hf hold)

theorem drained_moves (proof : DrainProof) : Moves now (drained identity proof now) := by
  refine observes_of_makes fun s => makes_ensure fun a hphase ha _ => makes_deadline ha
    fun hbefore => makes_get <| makes_expect ha <| makes_orRefuse rfl fun roster hroster =>
      makes_refuseIf rfl fun hid => makes_validated fun _ _ => makes_validated fun _ _ =>
        makes_orRefuse rfl fun f hf => makes_validated fun digest hdigest =>
          makes_refuseIf rfl fun heq => makes_refuseIf rfl fun _ =>
            makes_validated fun _ hacks => ?_
  have hproof : ProofOf roster proof.direction f proof := by
    refine ⟨not_not.1 hid, rfl, ?_, hacks⟩
    rw [not_not.1 heq]
    exact digest_of_digestForSnapshot hdigest
  unfold recordProof
  cases hold : a.drained.get proof.direction with
  | some old => exact makes_ite (fun _ => Move.stay) fun _ => makes_refuse rfl
  | none => exact makes_recorded (Move.drain ha hphase hbefore hroster hf hproof hold)

/-! ### Committing and retiring -/

theorem commit_observes :
    Observes now (commit identity now) fun s _ t => Commits now s identity t := by
  refine observes_of_makes fun s => makes_ensure fun a hphase ha hid => makes_deadline ha
    fun hbefore => makes_expect ha <| makes_refuseIf rfl fun hfull => makes_ite (fun hsent => ?_)
      fun _ => ?_
  all_goals
    refine ⟨hphase, a, ha, hid, hbefore, Bool.eq_true_of_not_eq_false hfull, ?_⟩
  · -- the decision was made before
    obtain ⟨⟩ := a
    subst hsent
    exact congrArg (fun o => { s with attempt := o }) ha
  · rfl

theorem committed_moves : Moves now (committed identity now) := by
  refine observes_of_makes fun s => makes_ensure fun a hphase ha _ => makes_deadline ha
    fun hbefore => makes_expect ha <| makes_refuseIf rfl fun hsent => ?_
  exact .accept ha hphase hbefore (Bool.eq_true_of_not_eq_false hsent)

theorem retire_moves : Moves now (retire identity now) := by
  refine observes_of_makes fun s => makes_ensure fun a hphase ha _ => makes_deadline ha
    fun hbefore => makes_expect ha <| makes_refuseIf rfl fun _ => ?_
  exact .retire ha hphase hbefore

theorem oldSocketClosed_moves (side : RotationSide) (evidence : ClosureEvidence) :
    Moves now (oldSocketClosed identity side evidence now) := by
  refine observes_of_makes fun s => makes_ensure fun a hphase ha _ => makes_expect ha <|
    makes_refuseIf rfl fun _ => makes_validated fun _ _ => makes_refuseIf rfl fun _ =>
      makes_refuseIf rfl fun _ => ?_
  show wp _ _ _ _
  simp only [wp_bind, wp_setAttempt, wp_modify, wp_ite, wp_pure]
  exact ⟨fun _ => .takeOver _ s.connectorRetirementMissing ha hphase,
    fun _ => .oldClosing _ ha hphase⟩

theorem forceRetire_moves : Moves now (forceRetireWithoutConnectorEvidence identity now) := by
  refine observes_of_makes fun s => makes_ensure fun a hphase ha _ => makes_get <|
    makes_expect ha <| makes_refuseIf rfl fun _ => makes_refuseIf rfl fun _ =>
      makes_orRefuse rfl fun _ _ => makes_refuseIf rfl fun _ => ?_
  show wp _ _ _ _
  simp only [wp_bind, wp_modify, wp_assertSocketBound]
  refine ⟨fun hbound => absurd hbound ?_, fun _ => .takeOver true true ha hphase⟩
  exact not_lt.2 (by decide : 2 ≤ 3)

/-! ### Aborting -/

theorem abort_moves (reason : RecoveryReason) : Moves now (abort identity now reason) := by
  refine observes_of_makes fun s => makes_get <| makes_refuseIf rfl fun hphase =>
    makes_ensure fun a _ ha _ => makes_deadline ha fun hbefore => makes_expect ha <|
      makes_refuseIf rfl fun hcommit => ?_
  refine .abort ha ?_ hbefore ?_
  · tauto
  · simpa using hcommit

theorem candidateGone_moves {closed : Closures} (ha : s.attempt = some a)
    (hphase : s.phase = .aborting ∨ s.phase = .recovering)
    (hreserved : ¬ (s.phase = .recovering ∧ a.isRecoveryAttempt = true ∧
      a.recoverySocketReserved = false)) :
    wp (candidateGone { a with candidateSocketClosed := closed } now)
      (s.withAttempt { a with candidateSocketClosed := closed })
      (fun _ t => Move now s none t) (Fails now s) := by
  have hgone : (s.released a.identity.newConnectionId).allocatedConnections.card ≤
      s.allocatedConnections.card := Finset.card_erase_le
  unfold candidateGone
  simp only [wp_bind, wp_get, wp_modify, wp_ite, wp_refuseIf, wp_setAttempt, wp_pure]
  have hreserved (hrecovering : s.phase = .recovering) (hrecovery : a.isRecoveryAttempt = true) :
      a.recoverySocketReserved = true := by
    by_contra hopen
    exact hreserved ⟨hrecovering, hrecovery, Bool.eq_false_iff.2 hopen⟩
  refine ⟨fun hrecovering => ⟨fun hrecovery => ⟨fun hmem => ?_, fun _ => ?_⟩,
    fun hscheduled => ?_⟩, fun haborting => ⟨fun hnow => ?_, fun hbefore => ?_⟩⟩
  · -- nothing was allocated, so nothing is released
    rw [RotationState.released, Finset.erase_eq_of_notMem hmem]
    exact .unallocated ha hrecovering (hreserved hrecovering hrecovery) hmem
  · have hmove : Move now s none _ := .candidateLost closed ha hrecovering (hreserved hrecovering)
    rw [if_pos hrecovery] at hmove
    exact hmove
  · have hmove : Move now s none _ :=
      .candidateLost closed ha hrecovering fun h => absurd h hscheduled
    rw [if_neg hscheduled] at hmove
    exact hmove
  · have haborting : s.phase = .aborting := by tauto
    exact makes_enter (.abortedLate ha haborting hnow) hgone
  · have haborting : s.phase = .aborting := by tauto
    exact .aborted ha haborting (not_le.1 hbefore)

theorem candidateClosed_moves (side : RotationSide) (evidence : ClosureEvidence) :
    Moves now (candidateClosed identity side evidence now) := by
  refine observes_of_makes fun s => makes_get <| makes_refuseIf rfl fun hphase =>
    makes_ensure fun a _ ha _ => makes_expect ha <| makes_validated fun _ _ =>
      makes_refuseIf rfl fun _ => makes_refuseIf rfl fun _ => makes_refuseIf rfl fun hreserved => ?_
  have hphase : s.phase = .aborting ∨ s.phase = .recovering := by tauto
  show wp _ _ _ _
  simp only [wp_bind, wp_setAttempt, wp_ite, wp_pure]
  refine ⟨fun _ => candidateGone_moves ha hphase hreserved, fun _ =>
    ⟨fun hnow => ?_, fun hbefore => ?_⟩⟩
  · exact makes_enter (.candidateClosingLate ha hphase hnow) (le_refl _)
  · exact .candidateClosing ha hphase fun _ => not_le.1 hbefore

/-! ### Recovery -/

theorem transportLost_moves (reason : RecoveryReason) :
    Moves now (transportLost identity now reason) := by
  refine observes_of_makes fun s => makes_get <| makes_validated fun _ hlost => ?_
  refine makes_enter (.lose reason fun hclosed => ?_) (le_refl _)
  rw [RotationState.checkLost, if_pos hclosed] at hlost
  cases hlost

omit [Sha256] in
theorem validateRecoveryDeadline_eq_ok {proposed deadline : Nat}
    (h : s.validateRecoveryDeadline now proposed = .ok deadline) : deadline = proposed ∧
      (s.recoveryEpisodeDeadline = some deadline ∨
        s.recoveryEpisodeDeadline = none ∧ deadline ≤ now + s.config.recoveryTimeoutMs) := by
  unfold RotationState.validateRecoveryDeadline at h
  cases hepisode : s.recoveryEpisodeDeadline with
  | some existing =>
    simp only [hepisode, ite_error_eq_ok] at h
    obtain ⟨hsame, -, hdeadline⟩ := h
    cases hdeadline
    exact ⟨(not_not.1 hsame).symm, .inl rfl⟩
  | none =>
    simp only [hepisode, ite_error_eq_ok] at h
    obtain ⟨-, h⟩ := h
    cases hadd : checkedAdd now s.config.recoveryTimeoutMs with
    | none =>
      rw [hadd] at h
      cases h
    | some maximum =>
      obtain ⟨-, rfl⟩ := checkedAdd_eq_some.1 hadd
      simp only [hadd, ite_error_eq_ok] at h
      obtain ⟨hle, hdeadline⟩ := h
      cases hdeadline
      exact ⟨rfl, .inr ⟨rfl, not_lt.1 hle⟩⟩

/-- A recovery that begins has passed every check, and no socket is open for it yet. -/
theorem beginRecovery_observes (identity : RotationAttemptIdentity) (roster : StreamRoster)
    (reason : RecoveryReason) (deadline : Nat) :
    Observes now (beginRecovery identity roster now reason deadline)
      fun s _ t => Recovers now s identity roster reason deadline t := by
  refine observes_of_makes fun s => makes_get <| makes_refuseIf rfl fun _ => makes_refuseIf rfl
    fun hphase => makes_validated fun _ hnames => makes_validated fun _ hroster =>
      makes_validated fun _ _ => makes_refuseIf rfl fun _ => makes_validated fun d hdeadline =>
        makes_refuseIf rfl fun hreleased => makes_refuseIf rfl fun hattempts =>
          makes_refuseIf rfl fun _ => makes_validated fun a hnew => makes_refuseIf rfl fun _ => ?_
  cases (validateRecoveryDeadline_eq_ok hdeadline).1
  have hphase : s.phase = .active ∨ s.phase = .recovering := by tauto
  have hreleased : s.allocatedConnections = ∅ := not_not.1 hreleased
  refine makes_claim hphase fun hunused hroom => ?_
  simp only [wp_bind, wp_modify, wp_assertSocketBound]
  refine ⟨fun hbound => absurd hbound ?_, fun _ => ?_⟩
  · show ¬ 3 < 1 + s.allocatedConnections.card % 2 ^ 8
    rw [hreleased, Finset.card_empty]
    decide
  · exact ⟨hphase, names_of_validate hnames, hroster, hdeadline, hreleased,
      not_le.1 hattempts, hunused, hroom, a, new_of_newWithDeadline hnew, rfl⟩

theorem reserveRecoverySocket_observes :
    Observes now (reserveRecoverySocket now) fun s _ t => Reserves now s t := by
  refine observes_of_makes fun s => makes_get <| makes_refuseIf rfl fun hphase => ?_
  cases ha : s.attempt with
  | none =>
    rw [Makes, wp_bind, wp_checkDeadline, ha]
    exact ⟨fun _ => .refuse rfl, fun a hsome => by cases hsome⟩
  | some a =>
    refine makes_deadline ha fun hbefore => makes_refuseIf rfl fun hreleased => makes_refuseIf rfl
      fun _ => makes_orRefuse rfl fun b hb => makes_refuseIf rfl fun hrecovery => makes_refuseIf rfl
        fun hepisode => makes_refuseIf rfl fun _ => makes_refuseIf rfl fun _ => ?_
    cases hb
    exact ⟨not_not.1 hphase, not_not.1 hreleased, hepisode, a, ha,
      Bool.eq_true_of_not_eq_false hrecovery, hbefore, rfl⟩

theorem closeForRecovery_moves (connectionId : String) (evidence : ClosureEvidence) :
    Moves now (closeForRecovery connectionId evidence now) := by
  refine observes_of_makes fun s => makes_get <| makes_refuseIf rfl fun hphase => makes_validated
    fun _ _ => makes_validated fun _ _ => makes_refuseIf rfl fun _ => makes_refuseIf rfl fun _ =>
      makes_refuseIf rfl fun hmem => ?_
  exact .release (not_not.1 hphase) (not_not.1 hmem)

theorem reconcileValidated_observes (identity : RotationAttemptIdentity)
    (verdicts : List ValidatedRecovery) :
    Observes now (reconcileValidated identity verdicts now)
      fun s _ t => Reconciles now s identity t := by
  refine observes_of_makes fun s => makes_ensure fun a hphase ha hid => makes_deadline ha
    fun hbefore => makes_get <| makes_refuseIf rfl fun _ => makes_orRefuse rfl fun b hb =>
      makes_refuseIf rfl fun hrecovery => makes_refuseIf rfl fun hepisode =>
        makes_refuseIf rfl fun _ => makes_refuseIf rfl fun hcarrier => makes_refuseIf rfl fun _ =>
          makes_orRefuse rfl fun _ _ => makes_validated fun _ _ => makes_refuseIf rfl fun _ => ?_
  cases ha.symm.trans hb
  rw [not_or, not_not, not_not] at hcarrier
  exact ⟨hphase, hepisode, hcarrier.1, hid ▸ hcarrier.2,
    ⟨a, ha, hid, Bool.eq_true_of_not_eq_false hrecovery, hbefore⟩, rfl⟩

/-! ### Time -/

theorem advance_makes (ha : s.attempt = some a) :
    Makes now (advance a now) s fun _ t => Move now s none t := by
  refine makes_get <| makes_ite (fun hbefore => makes_ite (fun hhandshake => ?_) fun _ => ?_)
    fun hnow => makes_ite (fun hretiring => ?_) fun _ => ?_
  · exact .expireHandshake ha hhandshake.1 hhandshake.2 hbefore
  · exact .stay
  · exact .forced ha hretiring
  · exact makes_enter (.expire ha (not_lt.1 hnow)) (le_refl _)

/-- A tick never refuses; one that goes backwards changes nothing. -/
theorem tick_moves (now : Nat) (s : RotationState) :
    wp (tick now) s
      (fun _ t => t = s ∨ s.checkClock now = .ok () ∧ Move now (s.observed now) none t)
      (Failure s (some now)) := by
  unfold tick
  rw [wp_bind, wp_get]
  cases hclock : s.checkClock now with
  | error e => exact .inl rfl
  | ok _ =>
    cases ha : s.attempt with
    | none => exact .inr ⟨rfl, .stay⟩
    | some a =>
      have hmade : Makes now (advance a now) (s.observed now) _ := advance_makes ha
      simp only [wp_bind, wp_modify, wp_get, wp_pure]
      exact wp_mono hmade (fun _ _ ht => .inr ⟨trivial, ht⟩) fun _ _ ht => .observed rfl hclock ht

end Operations

end AgentUplink
