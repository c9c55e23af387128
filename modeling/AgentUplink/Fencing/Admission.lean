/-
Who a connector's owner fence admits, over whole runs.

A run is any sequence of operations with any arguments and any clock values. Its
history lists the calls that succeeded. The invariant ties the state to the
history: the current fence is the last one accepted, the deadline counts from the
call that first accepted it, and the phase is `fenced` only if its own
acknowledgement was committed in time and nothing invalidated it since.
-/
import AgentUplink.Lib.Trace
import AgentUplink.Fencing.OwnerFence

namespace AgentUplink

open Machine Fallible List

namespace OwnerFenceState

/-! ## Runs -/

inductive Op
  | acceptFence (fence : OwnerFence) (acknowledgementId : String) (now : Nat)
  | acknowledgementSent (acknowledgement : OwnerFenced) (now : Nat)
  | invalidateOwner
  | authorize (ownerId : String) (epoch now : Nat)

/-- A call that succeeded. -/
inductive Event
  | accepted (fence : OwnerFence) (acknowledgement : OwnerFenced) (now : Nat)
  | committed (acknowledgement : OwnerFenced) (now : Nat)
  | invalidated
  | authorized (ownerId : String) (epoch : Nat)

def Op.exec : Op → Fencing Event
  | acceptFence fence acknowledgementId now =>
    (Event.accepted fence · now) <$> OwnerFenceState.acceptFence fence acknowledgementId now
  | acknowledgementSent acknowledgement now =>
    (fun _ => .committed acknowledgement now) <$>
      OwnerFenceState.acknowledgementSent acknowledgement now
  | invalidateOwner => (fun _ => .invalidated) <$> OwnerFenceState.invalidateOwner
  | authorize ownerId epoch now =>
    (fun _ => .authorized ownerId epoch) <$> OwnerFenceState.authorize ownerId epoch now

def Op.next (op : Op) (s : OwnerFenceState) : OwnerFenceState := stateOf (op.exec.run s)

def Op.note (op : Op) (s : OwnerFenceState) : Option Event :=
  match op.exec.run s with
  | .ok event _ => some event
  | .error _ _ => none

def run (s : OwnerFenceState) (ops : List Op) : OwnerFenceState := Trace.run Op.next s ops

section

variable (s : OwnerFenceState)

def history (ops : List Op) : List Event :=
  Trace.events Op.next Op.note s ops

/-! ## What one call does -/

def Allows (now : Nat) : Prop :=
  ∀ previous, s.lastNowMs = some previous → previous ≤ now

def observed (now : Nat) : OwnerFenceState :=
  { s with lastNowMs := some now }

def InTime (now : Nat) : Prop :=
  ∃ deadline, s.deadlineMs = some deadline ∧ now < deadline

def bound (fence : OwnerFence) (acknowledgement : OwnerFenced)
    (now : Nat) : OwnerFenceState :=
  { s with
    phase := .awaitingAcknowledgement
    currentFence := some fence
    acknowledgement := some acknowledgement
    deadlineMs := some (now + fence.remainingMs)
    lastNowMs := some now }

end

/-- The fence may be bound: it names a higher epoch than the current one. -/
structure Newer (s : OwnerFenceState) (fence : OwnerFence) : Prop where
  valid : fence.validate = .ok ()
  session : fence.sessionId = s.sessionId
  newer : ∀ current, s.currentFence = some current → current.epoch < fence.epoch

/-- What a call may do to the state, and the event it makes if it succeeds. -/
inductive Change (s : OwnerFenceState) : Option Event → OwnerFenceState → Prop
  | stay : Change s none s
  | observe (now : Nat) : Change s none (s.observed now)
  | expire (now : Nat) (hphase : s.phase = .awaitingAcknowledgement) :
      Change s none { s.observed now with phase := .expired }
  | accept {fence : OwnerFence} {now : Nat} (acknowledgementId : String) (h : s.Newer fence) :
      Change s (some (.accepted fence (.fromFence acknowledgementId fence) now))
        (s.bound fence (.fromFence acknowledgementId fence) now)
  | retry {fence : OwnerFence} {acknowledgement : OwnerFenced} {now : Nat}
      (hfence : ∃ current, s.currentFence = some current ∧
        fence = { current with sessionId := s.sessionId })
      (hphase : s.phase ≠ .invalidated) (hack : s.acknowledgement = some acknowledgement) :
      Change s (some (.accepted fence acknowledgement now)) (s.observed now)
  | commit {acknowledgement : OwnerFenced} {now : Nat}
      (hack : s.acknowledgement = some acknowledgement)
      (hphase : s.phase = .awaitingAcknowledgement) (hdeadline : s.InTime now) :
      Change s (some (.committed acknowledgement now))
        { s.observed now with phase := .fenced }
  | recommit {acknowledgement : OwnerFenced} {now : Nat}
      (hack : s.acknowledgement = some acknowledgement) (hphase : s.phase = .fenced) :
      Change s (some (.committed acknowledgement now)) (s.observed now)
  | invalidate : Change s (some .invalidated)
      { s with phase := .invalidated, acknowledgement := none }
  | authorize {current : OwnerFence} (now : Nat) (hfence : s.currentFence = some current)
      (hphase : s.phase = .fenced) :
      Change s (some (.authorized current.ownerId current.epoch)) (s.observed now)

section

variable {s : OwnerFenceState} {now : Nat}

variable {post : Unit → OwnerFenceState → Prop} {fail : OwnerFenceError → OwnerFenceState → Prop}

theorem wp_validated {r : Except ControlError Unit} :
    wp (validated r) s post fail ↔
      (∀ e, r = .error e → fail (.control e) s) ∧ (r = .ok () → post () s) := by
  unfold validated
  cases r with
  | error e => simp [Except.mapError]
  | ok u => exact ⟨fun h => ⟨nofun, fun _ => h⟩, fun h => h.2 rfl⟩

theorem wp_observeTime (hback : ∀ previous, s.lastNowMs = some previous → now < previous →
      fail (.clockWentBackwards previous now) s) (hpost : s.Allows now → post () (s.observed now)) :
    wp (observeTime now) s post fail := by
  unfold observeTime
  rw [wp_bind, wp_get]
  cases hlast : s.lastNowMs with
  | none =>
    refine hpost fun previous hprevious => ?_
    exact nomatch hlast.symm.trans hprevious
  | some previous =>
    rw [wp_bind, wp_failIf, wp_modify]
    refine ⟨hback previous hlast, fun hclock => hpost fun earlier hearlier => ?_⟩
    cases hlast.symm.trans hearlier
    exact Nat.le_of_not_lt hclock

theorem wp_pendingHandshake {missing : OwnerFenceError}
    (hmissing : s.deadlineMs = none → fail missing s)
    (hexpired : ∀ deadline, s.deadlineMs = some deadline → deadline ≤ now →
      fail (.deadlineExpired now deadline) { s with phase := .expired })
    (hpost : s.InTime now → post () s) : wp (pendingHandshake missing now) s post fail := by
  unfold pendingHandshake setPhase
  simp only [wp_bind, wp_get, wp_orFail, wp_ite, wp_modify, wp_throw, wp_pure]
  refine ⟨hmissing, fun deadline hdeadline => ⟨hexpired deadline hdeadline, fun h => ?_⟩⟩
  exact hpost ⟨deadline, hdeadline, lt_of_not_ge h⟩

/-- However the call ends, begun by now in `r`, what it did is a change; `event` is what its
answer makes. -/
def Changes {α : Type} (x : Fencing α) (event : α → Event) (s r : OwnerFenceState) : Prop :=
  wp x r (fun a t => Change s (some (event a)) t) fun _ t => Change s none t

section

variable {α : Type} {x : Fencing α} {event : α → Event} {r t : OwnerFenceState}
  (h : Changes x event s r)
include h

theorem Changes.ok {a : α} (hrun : x.run r = .ok a t) : Change s (some (event a)) t := by
  unfold Changes wp at h
  rwa [hrun] at h

theorem Changes.error {e : OwnerFenceError} (hrun : x.run r = .error e t) : Change s none t := by
  unfold Changes wp at h
  rwa [hrun] at h

end

theorem bindFence_changes {fence : OwnerFence} {acknowledgementId : String}
    (h : s.Newer fence) :
    Changes (bindFence fence acknowledgementId now) (.accepted fence · now) s (s.observed now) := by
  unfold Changes bindFence
  simp only [wp_bind, wp_orFail, wp_validated, wp_modify, wp_pure]
  refine ⟨fun _ => .observe now, fun deadline hdeadline => ⟨fun _ _ => .observe now, fun _ => ?_⟩⟩
  obtain ⟨-, rfl⟩ := checkedAdd_eq_some.1 hdeadline
  exact .accept acknowledgementId h

theorem retryFence_changes {current fence : OwnerFence} (hsession : fence.sessionId = s.sessionId)
    (hcurrent : s.currentFence = some current) (hepoch : fence.epoch = current.epoch) :
    Changes (retryFence current fence now) (.accepted fence · now) s (s.observed now) := by
  unfold Changes retryFence
  simp only [wp_bind, wp_get, wp_failIf]
  refine ⟨fun _ => .observe now, fun howner => ⟨fun _ => .observe now, fun hsame => ?_⟩⟩
  refine ⟨fun _ => .observe now, fun hvalid => ⟨fun _ => .observe now, fun _ => ?_⟩⟩
  simp only [not_or, not_not] at howner hsame
  have hfence : fence = { current with sessionId := s.sessionId } := by
    cases fence
    cases current
    simp_all
  have hanswer : Changes (orFail s.acknowledgement .acknowledgementRequired)
      (.accepted fence · now) s (s.observed now) := by
    refine (wp_orFail _ _).2 ⟨fun _ => .observe now, fun a ha => ?_⟩
    exact .retry ⟨current, hcurrent, hfence⟩ hvalid ha
  rw [wp_ite]
  refine ⟨fun hphase => ?_, fun _ => hanswer⟩
  rw [wp_bind]
  exact wp_pendingHandshake (fun _ => .observe now) (fun _ _ _ => .expire now hphase)
    fun _ => hanswer

theorem acceptFence_changes (fence : OwnerFence) (acknowledgementId : String) :
    Changes (acceptFence fence acknowledgementId now) (.accepted fence · now) s s := by
  unfold Changes acceptFence
  rw [wp_bind, wp_validated]
  refine ⟨fun _ _ => .stay, fun hvalid => ?_⟩
  rw [wp_bind]
  refine wp_observeTime (fun _ _ _ => .stay) fun _ => ?_
  simp only [wp_bind, wp_get, wp_failIf]
  refine ⟨fun _ => .observe now, fun hsession => ?_⟩
  have hsession : fence.sessionId = s.sessionId := not_not.1 hsession
  cases hcurrent : (s.observed now).currentFence with
  | none =>
    refine bindFence_changes ⟨hvalid, hsession, fun current h => ?_⟩
    cases hcurrent.symm.trans h
  | some current =>
    simp only [wp_bind, wp_failIf, wp_ite]
    refine ⟨fun _ => .observe now, fun hrollback => ⟨fun hepoch => ?_, fun hepoch => ?_⟩⟩
    · exact retryFence_changes hsession hcurrent hepoch
    · refine bindFence_changes ⟨hvalid, hsession, fun other h => ?_⟩
      cases hcurrent.symm.trans h
      omega

theorem acknowledgementSent_changes (acknowledgement : OwnerFenced) :
    Changes (acknowledgementSent acknowledgement now) (fun _ => .committed acknowledgement now)
      s s := by
  unfold Changes acknowledgementSent
  rw [wp_bind, wp_validated]
  refine ⟨fun _ _ => .stay, fun _ => ?_⟩
  rw [wp_bind]
  refine wp_observeTime (fun _ _ _ => .stay) fun _ => ?_
  simp only [wp_bind, wp_get, wp_orFail, wp_failIf]
  refine ⟨fun _ => .observe now, fun expected hexpected => ⟨fun _ => .observe now, fun hsame => ?_⟩⟩
  have hack : s.acknowledgement = some acknowledgement := not_not.1 hsame ▸ hexpected
  cases hphase : (s.observed now).phase with
  | fenced => exact .recommit hack hphase
  | awaitingAcknowledgement =>
    rw [wp_bind]
    refine wp_pendingHandshake (fun _ => .observe now) (fun _ _ _ => .expire now hphase)
      fun htime => ?_
    exact .commit hack hphase htime
  | unfenced | expired | invalidated => exact .observe now

theorem authorize_changes (ownerId : String) (epoch : Nat) :
    Changes (authorize ownerId epoch now) (fun _ => .authorized ownerId epoch) s s := by
  unfold Changes authorize
  simp only [wp_bind, wp_validated]
  refine ⟨fun _ _ => .stay, fun _ => ⟨fun _ _ => .stay, fun _ => ?_⟩⟩
  refine wp_observeTime (fun _ _ _ => .stay) fun _ => ?_
  simp only [wp_get, wp_orFail, wp_failIf]
  refine ⟨fun _ => .observe now, fun current hcurrent => ⟨fun _ => .observe now, fun hsame => ?_⟩⟩
  simp only [not_or, not_not] at hsame
  obtain ⟨rfl, rfl⟩ := hsame
  cases hphase : (s.observed now).phase with
  | fenced => exact .authorize now hcurrent hphase
  | awaitingAcknowledgement =>
    rw [wp_bind]
    exact wp_pendingHandshake (fun _ => .observe now) (fun _ _ _ => .expire now hphase)
      fun _ => .observe now
  | unfenced | expired | invalidated => exact .observe now

theorem Op.exec_changes (op : Op) : Changes op.exec id s s := by
  cases op with
  | acceptFence fence acknowledgementId now => exact (wp_map ..).2 (acceptFence_changes ..)
  | acknowledgementSent acknowledgement now => exact (wp_map ..).2 (acknowledgementSent_changes ..)
  | invalidateOwner => exact .invalidate
  | authorize ownerId epoch now => exact (wp_map ..).2 (authorize_changes ..)

theorem Op.change (op : Op) (s : OwnerFenceState) : Change s (op.note s) (op.next s) := by
  unfold Op.note Op.next
  cases hrun : op.exec.run s with
  | ok event t => exact op.exec_changes.ok hrun
  | error e t => exact op.exec_changes.error hrun

end

/-! ## The history behind a state -/

def Event.names : Event → Option (String × Nat)
  | accepted fence _ _ => some (fence.ownerId, fence.epoch)
  | authorized ownerId epoch => some (ownerId, epoch)
  | committed _ _ => none
  | invalidated => none

/-- Epochs do not go back, and an epoch has one owner. -/
def Event.Precedes (earlier later : Event) : Prop :=
  ∀ owner epoch owner' epoch', earlier.names = some (owner, epoch) →
    later.names = some (owner', epoch') → epoch ≤ epoch' ∧ (epoch = epoch' → owner = owner')

/-- `fence` is the last fence accepted: it was first accepted at `now`, with this
acknowledgement, and `since` is what succeeded after that. Repeats of it may be
among them. -/
structure Stands (seen : List Event) (fence : OwnerFence) (acknowledgement : OwnerFenced)
    (now : Nat) (since : List Event) : Prop where
  first : ∃ before, seen = before ++ .accepted fence acknowledgement now :: since ∧
    ∀ older ack time, .accepted older ack time ∈ before → older.epoch < fence.epoch
  last : ∀ later ack time, .accepted later ack time ∈ since → later = fence ∧ ack = acknowledgement
  exact : ∃ acknowledgementId, acknowledgement = .fromFence acknowledgementId fence

def CommittedInTime (fence : OwnerFence) (acknowledgement : OwnerFenced) (now : Nat)
    (since : List Event) : Prop :=
  ∃ time, .committed acknowledgement time ∈ since ∧ time < now + fence.remainingMs

/-- The history that an admission of this owner at this epoch rests on. -/
def Licensed (seen : List Event) (ownerId : String) (epoch : Nat) : Prop :=
  ∃ fence acknowledgement now since, Stands seen fence acknowledgement now since ∧
    fence.ownerId = ownerId ∧ fence.epoch = epoch ∧
    CommittedInTime fence acknowledgement now since ∧ .invalidated ∉ since

/-- What the history says about the current fence. -/
structure Backed (seen : List Event) (s : OwnerFenceState) (fence : OwnerFence)
    (acknowledgement : OwnerFenced) (now : Nat) (since : List Event) : Prop where
  stands : Stands seen fence acknowledgement now since
  checked : fence.validate = .ok ()
  session : fence.sessionId = s.sessionId
  deadline : s.deadlineMs = some (now + fence.remainingMs)
  begun : s.phase ≠ .unfenced
  valid : s.phase ≠ .invalidated → s.acknowledgement = some acknowledgement ∧ .invalidated ∉ since
  committed : s.phase = .fenced → CommittedInTime fence acknowledgement now since
  named : ∀ event ∈ seen, event.Precedes (.authorized fence.ownerId fence.epoch)

structure Tied (seen : List Event) (s : OwnerFenceState) : Prop where
  unbound : s.currentFence = none → s.acknowledgement = none ∧ ∀ event ∈ seen, event.names = none
  backed : ∀ fence, s.currentFence = some fence →
    ∃ acknowledgement now since, Backed seen s fence acknowledgement now since
  ordered : seen.Pairwise Event.Precedes

section

variable {seen more since : List Event} {s t : OwnerFenceState} {fence : OwnerFence}
  {acknowledgement : OwnerFenced} {now : Nat}

theorem Stands.append (h : Stands seen fence acknowledgement now since)
    (hmore : ∀ later ack time, .accepted later ack time ∈ more →
      later = fence ∧ ack = acknowledgement) :
    Stands (seen ++ more) fence acknowledgement now (since ++ more) where
  first := by
    obtain ⟨before, rfl, hbefore⟩ := h.first
    exact ⟨before, by simp, hbefore⟩
  last := by
    intro later ack time hmem
    rcases mem_append.1 hmem with hmem | hmem
    · exact h.last later ack time hmem
    · exact hmore later ack time hmem
  exact := h.exact

theorem CommittedInTime.append (h : CommittedInTime fence acknowledgement now since) :
    CommittedInTime fence acknowledgement now (since ++ more) := by
  obtain ⟨time, hmem, hlt⟩ := h
  exact ⟨time, mem_append_left _ hmem, hlt⟩

variable {time : Nat} {event other : Event} {sessionId : String} {ack : OwnerFenced}

theorem precedes_of_unnamed (h : event.names = none) : event.Precedes other := by
  intro owner epoch owner' epoch' hnames
  exact nomatch h.symm.trans hnames

theorem precedes_unnamed (h : other.names = none) : event.Precedes other := by
  intro owner epoch owner' epoch' _ hnames
  exact nomatch h.symm.trans hnames

/-- A call that makes no event keeps the history's account of the fence, if it only
records the time or lets the handshake expire. -/
theorem Tied.quiet (h : Tied seen s) (hsession : t.sessionId = s.sessionId)
    (hfence : t.currentFence = s.currentFence) (hack : t.acknowledgement = s.acknowledgement)
    (hdeadline : t.deadlineMs = s.deadlineMs)
    (hphase : t.phase = s.phase ∨ s.phase = .awaitingAcknowledgement ∧ t.phase = .expired) :
    Tied seen t where
  unbound := by
    rw [hfence, hack]
    exact h.unbound
  backed := by
    intro fence hcurrent
    rw [hfence] at hcurrent
    obtain ⟨acknowledgement, now, since, hb⟩ := h.backed fence hcurrent
    refine ⟨acknowledgement, now, since, hb.stands, hb.checked, hsession ▸ hb.session,
      hdeadline ▸ hb.deadline, ?_, ?_, ?_, hb.named⟩
    · rcases hphase with hphase | ⟨-, hphase⟩
      · exact hphase ▸ hb.begun
      · exact hphase ▸ nofun
    · intro hvalid
      rw [hack]
      refine hb.valid fun hs => ?_
      rcases hphase with hphase | ⟨hwait, -⟩
      · exact hvalid (hphase.trans hs)
      · exact nomatch hwait.symm.trans hs
    · intro hfenced
      rcases hphase with hphase | ⟨-, hphase⟩
      · exact hb.committed (hphase ▸ hfenced)
      · exact nomatch hphase.symm.trans hfenced
  ordered := h.ordered

theorem Tied.observed (h : Tied seen s) (now : Nat) : Tied seen (s.observed now) :=
  h.quiet rfl rfl rfl rfl (.inl rfl)

section

variable (h : Tied seen s)
include h

theorem Tied.extend
    (hbacked : ∀ fence acknowledgement now since, s.currentFence = some fence →
      Backed seen s fence acknowledgement now since →
        (∀ later ack time, event = .accepted later ack time →
          later = fence ∧ ack = acknowledgement) ∧
        (s.phase ≠ .invalidated → event ≠ .invalidated) ∧
        ∀ named, event.names = some named → named = (fence.ownerId, fence.epoch))
    (hnames : s.currentFence = none → event.names = none) : Tied (seen ++ [event]) s where
  unbound := by
    intro hnone
    obtain ⟨hack, hseen⟩ := h.unbound hnone
    exact ⟨hack, forall_mem_append.2 ⟨hseen, forall_mem_singleton.2 (hnames hnone)⟩⟩
  backed := by
    intro fence hcurrent
    obtain ⟨acknowledgement, now, since, hb⟩ := h.backed fence hcurrent
    obtain ⟨hsame, hvalid, hnamed⟩ := hbacked fence acknowledgement now since hcurrent hb
    refine ⟨acknowledgement, now, since ++ [event], hb.stands.append ?_, hb.checked, hb.session,
      hb.deadline, hb.begun, fun hphase => ⟨(hb.valid hphase).1, ?_⟩,
      fun hphase => (hb.committed hphase).append, ?_⟩
    · intro later ack time hmem
      exact hsame later ack time (mem_singleton.1 hmem).symm
    · intro hmem
      rcases mem_append.1 hmem with hmem | hmem
      · exact (hb.valid hphase).2 hmem
      · exact hvalid hphase (mem_singleton.1 hmem).symm
    · refine forall_mem_append.2 ⟨hb.named, forall_mem_singleton.2 ?_⟩
      intro owner epoch owner' epoch' howner howner'
      cases howner'
      cases hnamed _ howner
      exact ⟨le_refl _, fun _ => rfl⟩
  ordered := by
    refine pairwise_append.2 ⟨h.ordered, pairwise_singleton .., fun other hother =>
      forall_mem_singleton.2 ?_⟩
    cases hcurrent : s.currentFence with
    | none => exact precedes_unnamed (hnames hcurrent)
    | some fence =>
      obtain ⟨acknowledgement, now, since, hb⟩ := h.backed fence hcurrent
      intro owner epoch owner' epoch' howner howner'
      cases (hbacked fence acknowledgement now since hcurrent hb).2.2 _ howner'
      exact hb.named other hother owner epoch _ _ howner rfl

theorem Tied.accept (acknowledgementId : String) (hnewer : s.Newer fence) :
    Tied (seen ++ [.accepted fence (.fromFence acknowledgementId fence) now])
      (s.bound fence (.fromFence acknowledgementId fence) now) := by
  -- every name in the history so far has a smaller epoch
  have hbelow : ∀ event ∈ seen, ∀ owner epoch, event.names = some (owner, epoch) →
      epoch < fence.epoch := by
    intro event hmem owner epoch hnames
    cases hcurrent : s.currentFence with
    | none => exact nomatch ((h.unbound hcurrent).2 event hmem).symm.trans hnames
    | some current =>
      obtain ⟨acknowledgement, time, since, hb⟩ := h.backed current hcurrent
      have hle := (hb.named event hmem owner epoch _ _ hnames rfl).1
      exact lt_of_le_of_lt hle (hnewer.newer current hcurrent)
  have hprecedes : ∀ event ∈ seen, ∀ later : Event,
      later.names = some (fence.ownerId, fence.epoch) → event.Precedes later := by
    intro event hmem later hlater owner epoch owner' epoch' howner howner'
    cases hlater.symm.trans howner'
    have hlt := hbelow event hmem owner epoch howner
    exact ⟨le_of_lt hlt, fun heq => absurd heq (ne_of_lt hlt)⟩
  refine ⟨nofun, fun current hcurrent => ?_, ?_⟩
  · cases hcurrent
    refine ⟨_, now, [], ⟨⟨seen, rfl, fun older ack time hmem => ?_⟩, nofun, acknowledgementId, rfl⟩,
      hnewer.valid, hnewer.session, rfl, nofun, fun _ => ⟨rfl, nofun⟩, nofun, ?_⟩
    · exact hbelow _ hmem _ _ rfl
    · refine forall_mem_append.2 ⟨fun event hmem => hprecedes event hmem _ rfl,
        forall_mem_singleton.2 ?_⟩
      intro owner epoch owner' epoch' howner howner'
      cases howner
      cases howner'
      exact ⟨le_refl _, fun _ => rfl⟩
  · exact pairwise_append.2 ⟨h.ordered, pairwise_singleton .., fun event hmem =>
      forall_mem_singleton.2 (hprecedes event hmem _ rfl)⟩

theorem Tied.commit (hack : s.acknowledgement = some acknowledgement)
    (hphase : s.phase = .awaitingAcknowledgement) (htime : s.InTime now) :
    Tied (seen ++ [.committed acknowledgement now]) { s.observed now with phase := .fenced } := by
  have hextended : Tied (seen ++ [.committed acknowledgement now]) s :=
    h.extend (fun _ _ _ _ _ _ => ⟨nofun, fun _ => nofun, nofun⟩) fun _ => rfl
  refine ⟨hextended.unbound, fun fence hcurrent => ?_, hextended.ordered⟩
  obtain ⟨ack, time, since, hb⟩ := h.backed fence hcurrent
  have hvalid : s.phase ≠ .invalidated := by
    rw [hphase]
    exact nofun
  obtain ⟨hsame, hfree⟩ := hb.valid hvalid
  cases hack.symm.trans hsame
  obtain ⟨deadline, hdeadline, hlt⟩ := htime
  cases hb.deadline.symm.trans hdeadline
  refine ⟨acknowledgement, time, since ++ [.committed acknowledgement now],
    hb.stands.append (by simp), hb.checked, hb.session, hb.deadline, nofun,
    fun _ => ⟨hack, by simp [hfree]⟩, fun _ => ⟨now, by simp, hlt⟩, ?_⟩
  exact forall_mem_append.2 ⟨hb.named, forall_mem_singleton.2 (precedes_of_unnamed rfl)⟩

theorem Tied.invalidate :
    Tied (seen ++ [.invalidated]) { s with phase := .invalidated, acknowledgement := none } := by
  refine ⟨fun hnone => ⟨rfl, ?_⟩, fun fence hcurrent => ?_, ?_⟩
  · exact forall_mem_append.2 ⟨(h.unbound hnone).2, forall_mem_singleton.2 rfl⟩
  · obtain ⟨acknowledgement, now, since, hb⟩ := h.backed fence hcurrent
    refine ⟨acknowledgement, now, since ++ [.invalidated], hb.stands.append (by simp),
      hb.checked, hb.session, hb.deadline, nofun, fun hphase => absurd rfl hphase, nofun, ?_⟩
    exact forall_mem_append.2 ⟨hb.named, forall_mem_singleton.2 (precedes_of_unnamed rfl)⟩
  · exact pairwise_append.2 ⟨h.ordered, pairwise_singleton .., fun event _ =>
      forall_mem_singleton.2 (precedes_unnamed rfl)⟩

theorem Tied.change {event : Option Event} (hchange : Change s event t) :
    Tied (seen ++ event.toList) t := by
  cases hchange with
  | stay => simpa using h
  | observe now => simpa using h.observed now
  | expire now hphase =>
    rw [Option.toList_none, append_nil]
    exact h.quiet rfl rfl rfl rfl (.inr ⟨hphase, rfl⟩)
  | accept acknowledgementId hnewer => exact h.accept acknowledgementId hnewer
  | @retry fence acknowledgement now hfence hphase hack =>
    obtain ⟨current, hcurrent, rfl⟩ := hfence
    refine Tied.observed (h.extend (fun other ack time since hother hb => ?_) fun hnone => ?_) now
    · cases hcurrent.symm.trans hother
      have hsame : { current with sessionId := s.sessionId } = current := by
        rw [← hb.session]
      refine ⟨fun later ack' time' heq => ?_, fun _ => nofun, fun named heq => ?_⟩
      · cases heq
        exact ⟨hsame, Option.some.inj (hack.symm.trans (hb.valid hphase).1)⟩
      · cases heq
        rfl
    · exact nomatch hcurrent.symm.trans hnone
  | commit hack hphase htime => exact h.commit hack hphase htime
  | @recommit acknowledgement now hack hphase =>
    have hextended : Tied (seen ++ [.committed acknowledgement now]) s :=
      h.extend (fun _ _ _ _ _ _ => ⟨nofun, fun _ => nofun, nofun⟩) fun _ => rfl
    exact hextended.observed now
  | invalidate => exact h.invalidate
  | @authorize current now hcurrent hphase =>
    refine Tied.observed (h.extend (fun other ack time since hother hb => ?_) fun hnone => ?_) now
    · cases hcurrent.symm.trans hother
      refine ⟨nofun, fun _ => nofun, fun named heq => ?_⟩
      cases heq
      rfl
    · exact nomatch hcurrent.symm.trans hnone

end

theorem tied_new (hnew : new sessionId = .ok s) : Tied [] s := by
  unfold new at hnew
  cases hid : (validateId "session_id" sessionId).mapError OwnerFenceError.control with
  | error e =>
    rw [hid] at hnew
    exact nomatch hnew
  | ok u =>
    rw [hid] at hnew
    cases hnew
    refine ⟨fun _ => ⟨rfl, fun _ hmem => ?_⟩, fun _ hcurrent => ?_, .nil⟩
    · cases hmem
    · cases hcurrent

/-! ## Admission and retries -/

theorem Tied.licensed {ownerId : String} {epoch : Nat} (h : Tied seen s)
    (hok : (authorize ownerId epoch now).run s = .ok () t) : Licensed seen ownerId epoch := by
  have hchange : Change s (some (.authorized ownerId epoch)) t :=
    (authorize_changes ownerId epoch).ok hok
  generalize hevent : some (Event.authorized ownerId epoch) = event at hchange
  cases hchange with
  | authorize now hcurrent hphase =>
    cases hevent
    obtain ⟨acknowledgement, time, since, hb⟩ := h.backed _ hcurrent
    have hvalid : s.phase ≠ .invalidated := by
      rw [hphase]
      exact nofun
    exact ⟨_, acknowledgement, time, since, hb.stands, rfl, rfl, hb.committed hphase,
      (hb.valid hvalid).2⟩
  | _ => exact nomatch hevent

/-- A fence that was accepted before is never accepted as a new one. -/
theorem Tied.not_newer (h : Tied seen s) (hmem : .accepted fence acknowledgement time ∈ seen) :
    ¬ ∀ current, s.currentFence = some current → current.epoch < fence.epoch := by
  intro hnewer
  cases hcurrent : s.currentFence with
  | none => exact nomatch (h.unbound hcurrent).2 _ hmem
  | some current =>
    obtain ⟨ack, now, since, hb⟩ := h.backed current hcurrent
    have hle := (hb.named _ hmem _ _ _ _ rfl rfl).1
    exact absurd (hnewer current hcurrent) (not_lt.2 hle)

theorem Stands.acknowledgement_eq (h : Stands seen fence acknowledgement now since)
    (hmem : .accepted fence ack time ∈ seen) : ack = acknowledgement := by
  obtain ⟨before, rfl, hbefore⟩ := h.first
  rcases mem_append.1 hmem with hmem | hmem
  · exact absurd (hbefore _ _ _ hmem) (lt_irrefl _)
  · rcases mem_cons.1 hmem with heq | hmem
    · cases heq
      rfl
    · exact (h.last _ _ _ hmem).2

theorem Tied.retry_eq {acknowledgementId : String} (h : Tied seen s)
    (hmem : .accepted fence acknowledgement time ∈ seen)
    (hok : (acceptFence fence acknowledgementId now).run s = .ok ack t) :
    ack = acknowledgement ∧ t = s.observed now := by
  have hchange : Change s (some (.accepted fence ack now)) t :=
    (acceptFence_changes fence acknowledgementId).ok hok
  generalize hevent : some (Event.accepted fence ack now) = event at hchange
  cases hchange with
  | accept _ hnewer =>
    cases hevent
    exact absurd hnewer.newer (h.not_newer hmem)
  | retry hfence hphase hack =>
    cases hevent
    obtain ⟨current, hcurrent, rfl⟩ := hfence
    obtain ⟨first, begun, since, hb⟩ := h.backed current hcurrent
    have hsame : { current with sessionId := s.sessionId } = current := by
      rw [← hb.session]
    rw [hsame] at hmem
    have hfirst := hb.stands.acknowledgement_eq hmem
    exact ⟨(Option.some.inj (hack.symm.trans (hb.valid hphase).1)).trans hfirst.symm, rfl⟩
  | _ => exact nomatch hevent

theorem Tied.retry_deadline (h : Tied seen s) (hmem : .accepted fence acknowledgement time ∈ seen)
    (acknowledgementId : String) :
    (stateOf ((acceptFence fence acknowledgementId now).run s)).deadlineMs = s.deadlineMs := by
  cases hrun : (acceptFence fence acknowledgementId now).run s with
  | ok ack t =>
    rw [stateOf_ok, (h.retry_eq hmem hrun).2]
    rfl
  | error e t =>
    have hchange : Change s none t := (acceptFence_changes fence acknowledgementId).error hrun
    cases hchange with
    | stay | observe | expire => rfl

/-- The current fence may be repeated: its handshake is not over time. -/
def Repeatable (s : OwnerFenceState) (now : Nat) : Prop :=
  s.Allows now ∧ (s.phase = .fenced ∨ s.phase = .awaitingAcknowledgement ∧ s.InTime now)

theorem acceptFence_again (hb : Backed seen s fence acknowledgement now since)
    (hcurrent : s.currentFence = some fence) (acknowledgementId : String) (time : Nat) :
    wp (acceptFence fence acknowledgementId time) s (fun _ _ => s.Repeatable time)
      fun _ _ => ¬ s.Repeatable time := by
  unfold acceptFence
  rw [wp_bind, wp_validated]
  refine ⟨fun e he => (by cases hb.checked.symm.trans he), fun _ => ?_⟩
  rw [wp_bind]
  refine wp_observeTime (fun previous hprevious hlt hrep => ?_) fun hclock => ?_
  · exact absurd (hrep.1 previous hprevious) (not_le.2 hlt)
  simp only [wp_bind, wp_get, wp_failIf]
  refine ⟨fun hne => absurd hb.session hne, fun _ => ?_⟩
  have hsame : (s.observed time).currentFence = some fence := hcurrent
  rw [hsame]
  unfold retryFence
  simp only [wp_bind, wp_failIf, wp_ite, wp_get]
  refine ⟨fun hlt => absurd hlt (lt_irrefl _), fun _ =>
    ⟨fun _ => ?_, fun hne => absurd trivial hne⟩⟩
  refine ⟨fun hne => absurd rfl hne, fun _ => ⟨fun hne => ?_, fun _ => ?_⟩⟩
  · rcases hne with hne | hne | hne <;> exact absurd rfl hne
  have hfails {phase : OwnerFencePhase} (hphase : s.phase = phase) (hfenced : phase ≠ .fenced)
      (hawaiting : phase ≠ .awaitingAcknowledgement) : ¬ s.Repeatable time := by
    rintro ⟨-, h | ⟨h, -⟩⟩
    · exact hfenced (hphase.symm.trans h)
    · exact hawaiting (hphase.symm.trans h)
  refine ⟨fun hphase => hfails hphase (by decide) (by decide), fun hvalid =>
    ⟨fun hphase => hfails hphase (by decide) (by decide), fun hexpired => ?_⟩⟩
  have hack : (s.observed time).acknowledgement = some acknowledgement := (hb.valid hvalid).1
  rw [hack]
  refine ⟨fun hphase => ?_, fun hphase => ?_⟩
  · refine wp_pendingHandshake (fun hnone => ?_) (fun deadline hdeadline hle hrep => ?_)
      fun htime => ⟨hclock, .inr ⟨hphase, htime⟩⟩
    · cases hb.deadline.symm.trans hnone
    · rcases hrep.2 with h | ⟨-, deadline', hdeadline', hlt⟩
      · cases hphase.symm.trans h
      · cases hdeadline.symm.trans hdeadline'
        exact absurd hlt (not_lt.2 hle)
  · refine ⟨hclock, .inl ?_⟩
    cases hs : s.phase with
    | fenced => rfl
    | unfenced => exact absurd hs hb.begun
    | awaitingAcknowledgement => exact absurd hs hphase
    | expired => exact absurd hs hexpired
    | invalidated => exact absurd hs hvalid

theorem Tied.retry_iff (h : Tied seen s) (hcurrent : s.currentFence = some fence)
    (acknowledgementId : String) :
    (∃ ack t, (acceptFence fence acknowledgementId now).run s = .ok ack t) ↔ s.Repeatable now := by
  obtain ⟨acknowledgement, time, since, hb⟩ := h.backed fence hcurrent
  have hagain := acceptFence_again hb hcurrent acknowledgementId now
  constructor
  · rintro ⟨ack, t, hok⟩
    have hrep := wp_of_ok hagain hok
    exact hrep
  · intro hrep
    cases hrun : (acceptFence fence acknowledgementId now).run s with
    | ok ack t => exact ⟨ack, t, rfl⟩
    | error e t =>
      exact absurd hrep (wp_of_error hagain hrun)

end

/-- Whoever is admitted is the owner of the last fence accepted, acknowledged in time
and not invalidated since; admissions never go back in epoch and an epoch has one
owner; a repeated fence gets the acknowledgement it had and moves no deadline. -/
theorem stale_owner_never_admitted {sessionId : String} {s₀ : OwnerFenceState}
    (hnew : new sessionId = .ok s₀) (ops : List Op) :
    (∀ ownerId epoch now t, (authorize ownerId epoch now).run (s₀.run ops) = .ok () t →
      Licensed (s₀.history ops) ownerId epoch) ∧
    (s₀.history ops).Pairwise (fun earlier later => ∀ owner epoch owner' epoch',
      earlier = .authorized owner epoch → later = .authorized owner' epoch' →
        epoch ≤ epoch' ∧ (epoch = epoch' → owner = owner')) ∧
    ∀ fence acknowledgement time, .accepted fence acknowledgement time ∈ s₀.history ops →
      ∀ acknowledgementId now,
        (stateOf ((acceptFence fence acknowledgementId now).run (s₀.run ops))).deadlineMs =
          (s₀.run ops).deadlineMs ∧
        (∀ ack t, (acceptFence fence acknowledgementId now).run (s₀.run ops) = .ok ack t →
          ack = acknowledgement) ∧
        ((s₀.run ops).currentFence = some fence →
          ((∃ ack t, (acceptFence fence acknowledgementId now).run (s₀.run ops) = .ok ack t) ↔
            (s₀.run ops).Repeatable now)) := by
  have htied : Tied (s₀.history ops) (s₀.run ops) :=
    Trace.events_invariant (fun _ op s h => h.change (op.change s)) (tied_new hnew) ops
  refine ⟨fun ownerId epoch now t hok => htied.licensed hok, ?_, ?_⟩
  · refine htied.ordered.imp fun {earlier later} hprecedes owner epoch owner' epoch' he hl => ?_
    subst he hl
    exact hprecedes owner epoch owner' epoch' rfl rfl
  · intro fence acknowledgement time hmem acknowledgementId now
    exact ⟨htied.retry_deadline hmem acknowledgementId, fun ack t hok =>
      (htied.retry_eq hmem hok).1, fun hcurrent => htied.retry_iff hcurrent acknowledgementId⟩

def demoOwner : String := String.ofList (List.replicate 64 'a')

def demoFence : OwnerFence where
  messageId := "fence-1"
  sessionId := "session"
  epoch := 1
  ownerId := demoOwner
  nonce := "nonce-1"
  remainingMs := 20000

def demoOps : List Op :=
  [.acceptFence demoFence "ack-1" 100, .acceptFence demoFence "ack-other" 150,
    .acknowledgementSent (.fromFence "ack-1" demoFence) 200]

def demoState : OwnerFenceState where
  sessionId := "session"
  phase := .unfenced
  currentFence := none
  acknowledgement := none
  deadlineMs := none
  lastNowMs := none

set_option maxRecDepth 4000 in
/-- A fence, a repeat of it and its acknowledgement admit the owner, also long after the
handshake's deadline. -/
theorem stale_owner_never_admitted_latched :
    new "session" = .ok demoState ∧
      errorOf ((authorize demoOwner 1 30000).run (demoState.run demoOps)) = none ∧
      Licensed (demoState.history demoOps) demoOwner 1 := by
  have hnew : new "session" = .ok demoState := by decide
  have hok : errorOf ((authorize demoOwner 1 30000).run (demoState.run demoOps)) = none := by decide
  refine ⟨hnew, hok, ?_⟩
  cases hrun : (authorize demoOwner 1 30000).run (demoState.run demoOps) with
  | ok u t => exact (stale_owner_never_admitted hnew demoOps).1 _ _ _ t hrun
  | error e t =>
    rw [hrun] at hok
    exact nomatch hok

end OwnerFenceState

end AgentUplink
