/-
Deadlines are absolute.

An attempt keeps the deadlines it was begun with. Once its overlap deadline has
passed, a handover that is not committed can only be left to recovery or closed.
A recovery episode has one deadline and at most three candidates, and none of them
is reserved or activated once the deadline has passed.
-/
import AgentUplink.Rotation.Identity

namespace AgentUplink

open Machine Fallible List RotationState

namespace Begun

def now : Begun → Nat
  | scheduled _ now _ => now
  | recovery _ now _ => now

def cap : Begun → Option Nat
  | scheduled _ _ cap => cap
  | recovery _ _ deadline => some deadline

def episode : Begun → Option (Nat × Nat)
  | scheduled _ _ _ => none
  | recovery _ now deadline => some (now, deadline)

end Begun

section

variable {s t : RotationState} {a : AttemptState} {now : Nat} {begun : Option Begun}

/-! ## Deadlines of an attempt -/

structure AttemptState.Within (a : AttemptState) (config : RotationConfig) : Prop where
  handshake_le : a.handshakeDeadlineMs ≤ a.startedAtMs + config.handshakeTimeoutMs
  overlap_le : a.overlapDeadlineMs ≤ a.startedAtMs + config.overlapTimeoutMs

variable {config : RotationConfig} {seen : List (Nat × Nat)} {deadline : Nat}

theorem AttemptState.Within.continues {b : AttemptState} (h : a.Within config)
    (hsame : a.Continues b) : b.Within config := by
  refine ⟨?_, ?_⟩
  · rw [hsame.handshakeDeadlineMs, hsame.startedAtMs]
    exact h.handshake_le
  · rw [hsame.overlapDeadlineMs, hsame.startedAtMs]
    exact h.overlap_le

theorem Outline.config_eq (h : Outline now s begun t) : t.config = s.config := by
  cases h with
  | goOn h | release h | reserve h => exact h.settled.config
  | start h =>
    obtain ⟨-, -, -, -, a, -, rfl⟩ := h
    rfl
  | recover h =>
    obtain ⟨-, -, -, -, -, -, -, -, a, -, rfl⟩ := h
    rfl
  | stay | close | lose | free | waste | takeOver | aborted | reconcile => rfl

theorem Outline.begun_within {b : Begun} (h : Outline now s (some b) t) :
    ∃ a, t.attempt = some a ∧ a.identity = b.identity ∧ a.startedAtMs = b.now ∧
      a.Within s.config ∧
      ∀ c, b.cap = some c → a.handshakeDeadlineMs ≤ c ∧ a.overlapDeadlineMs ≤ c := by
  cases h with
  | start h =>
    obtain ⟨-, -, -, -, a, hnew, rfl⟩ := h
    have hstarted := congrArg AttemptState.startedAtMs hnew.eq
    refine ⟨a, rfl, congrArg AttemptState.identity hnew.eq, hstarted, ⟨?_, ?_⟩, hnew.cap_le⟩
    · rw [hstarted]
      exact hnew.handshake_le
    · rw [hstarted]
      exact hnew.overlap_le
  | recover h =>
    obtain ⟨-, -, -, -, -, -, -, -, a, hnew, rfl⟩ := h
    have hstarted := congrArg AttemptState.startedAtMs hnew.eq
    refine ⟨_, rfl, congrArg AttemptState.identity hnew.eq, hstarted, ⟨?_, ?_⟩, hnew.cap_le⟩
    · rw [hstarted]
      exact hnew.handshake_le
    · rw [hstarted]
      exact hnew.overlap_le

/-- The attempt `a` was under way, and while it is it stays related to what it was. -/
structure Since (r : AttemptState → AttemptState → Prop) (a : AttemptState) (s : RotationState) :
    Prop where
  claimed : a.identity.newConnectionId ∈ s.usedConnectionIds
  related : ∀ b, s.attempt = some b → b.identity = a.identity → r a b

theorem Outline.used_subset (h : Outline now s begun t) (hs : s.Accounted) :
    s.usedConnectionIds ⊆ t.usedConnectionIds := by
  cases begun with
  | none => rw [h.used_eq hs]
  | some b =>
    rw [h.begins.used]
    exact Finset.subset_insert _ _

variable {r : AttemptState → AttemptState → Prop}

theorem Since.refl (hs : s.Accounted) (ha : s.attempt = some a) (hr : r a a) : Since r a s := by
  refine ⟨(hs.fresh a ha).2, fun b hb _ => ?_⟩
  cases ha.symm.trans hb
  exact hr

theorem Since.outline (h : Since r a s) (hs : s.Accounted) (hstep : Outline now s begun t)
    (hr : begun = none → ∀ b c, s.attempt = some b → t.attempt = some c → b.Continues c →
      r a b → r a c) : Since r a t where
  claimed := hstep.used_subset hs h.claimed
  related c hc hid := by
    cases begun with
    | none =>
      obtain ⟨b, hb, hsame, -⟩ | ⟨_, hx, -⟩ := hstep.attempt_cases hc
      · exact hr rfl b c hb hc hsame (h.related b hb (hsame.identity.symm.trans hid))
      · cases hx
    | some x =>
      -- a later attempt has an identifier not used before
      obtain ⟨b, hb, hidentity⟩ := hstep.begins.attempt
      cases hb.symm.trans hc
      refine absurd h.claimed ?_
      rw [← hid, hidentity]
      exact hstep.begins.unused

/-! ## Past the overlap deadline -/

/-- A handover that is not committed goes nowhere past its deadline. -/
theorem Move.late [Sha256] (h : Move now s begun t) (ha : s.attempt = some a)
    (hlate : a.overlapDeadlineMs ≤ now)
    (hphase : s.phase ∈ [.preparing, .quiescing, .draining, .committing, .aborting]) :
    t.phase = s.phase ∨ t.phase = .recovering ∨ t.phase = .closed := by
  have hbefore {b : AttemptState} (hb : s.attempt = some b) (hlt : now < b.overlapDeadlineMs) :
      False := by
    cases ha.symm.trans hb
    exact absurd hlate (not_le.2 hlt)
  have hnot {p : RotationPhase} (hp : s.phase = p)
      (hother : p ∉ [.preparing, .quiescing, .draining, .committing, .aborting]) : False :=
    hother (hp ▸ hphase)
  cases h with
  | stay | waste | oldClosing | forced | release | candidateLost | candidateClosing =>
    exact .inl rfl
  | close | exhaust => exact .inr (.inr rfl)
  | expire | lose | candidateClosingLate | abortedLate => exact .inr (.inl rfl)
  | expireHandshake hb _ _ hlt | ready hb _ hlt | quiesce hb _ hlt | freeze hb _ hlt
  | drain hb _ hlt | accept hb _ hlt | retire hb _ hlt | abort hb _ hlt | aborted hb _ hlt =>
    exact (hbefore hb hlt).elim
  | start h | reserve h | reconcile h => exact (hnot h.phase (by decide)).elim
  | commit h =>
    obtain ⟨-, b, hb, -, hlt, -⟩ := h
    exact (hbefore hb hlt).elim
  | takeOver _ _ _ hretiring => exact (hnot hretiring (by decide)).elim
  | recover h =>
    obtain ⟨-, -, -, -, -, -, -, -, b, -, rfl⟩ := h
    exact .inr (.inl rfl)

/-! ## Recovery episodes -/

structure RotationState.Timed (s : RotationState) : Prop where
  active : s.phase = .active → s.recoveryEpisodeDeadline = none ∧ s.recoveryAttempts = 0
  within : ∀ a, s.attempt = some a → a.Within s.config
  episode : ∀ a, s.attempt = some a → a.isRecoveryAttempt = true →
    ∃ deadline, s.recoveryEpisodeDeadline = some deadline ∧ a.overlapDeadlineMs ≤ deadline

namespace RotationState.Timed

theorem observed (h : s.Timed) (now : Nat) : (s.observed now).Timed :=
  ⟨h.active, h.within, h.episode⟩

theorem active_outline (h : s.Timed) (hstep : Outline now s begun t) (hphase : t.phase = .active) :
    t.recoveryEpisodeDeadline = none ∧ t.recoveryAttempts = 0 := by
  cases hstep with
  | stay | free | waste => exact h.active hphase
  | takeOver | aborted | reconcile => exact ⟨rfl, rfl⟩
  | close | lose => exact nomatch hphase
  | goOn h | release h | reserve h =>
    exact absurd hphase (RotationPhase.open_of_leadsTo h.phase).1
  | start h =>
    obtain ⟨-, -, -, -, a, -, rfl⟩ := h
    exact nomatch hphase
  | recover h =>
    obtain ⟨-, -, -, -, -, -, -, -, a, -, rfl⟩ := h
    exact nomatch hphase

theorem episode_outline (h : s.Timed) (hstep : Outline now s begun t) {c : AttemptState}
    (hc : t.attempt = some c) (hrecovery : c.isRecoveryAttempt = true) :
    ∃ deadline, t.recoveryEpisodeDeadline = some deadline ∧ c.overlapDeadlineMs ≤ deadline := by
  obtain ⟨a, ha, hsame, -, hepisode⟩ | ⟨b, rfl, -⟩ := hstep.attempt_cases hc
  · rw [hsame.isRecoveryAttempt] at hrecovery
    rw [hepisode, hsame.overlapDeadlineMs]
    exact h.episode a ha hrecovery
  · obtain ⟨x, hx, -, -, -, hcap⟩ := hstep.begun_within
    cases hx.symm.trans hc
    cases hstep with
    | start hstart =>
      obtain ⟨-, -, -, -, a, hnew, rfl⟩ := hstart
      cases hc
      exact nomatch (congrArg AttemptState.isRecoveryAttempt hnew.eq).symm.trans hrecovery
    | @recover _ _ _ deadline _ hrecover =>
      obtain ⟨-, -, -, -, -, -, -, -, a, -, rfl⟩ := hrecover
      exact ⟨deadline, rfl, (hcap deadline rfl).2⟩

theorem outline (h : s.Timed) (hstep : Outline now s begun t) : t.Timed where
  active := h.active_outline hstep
  within c hc := by
    rw [hstep.config_eq]
    obtain ⟨a, ha, hsame, -⟩ | ⟨b, rfl, -⟩ := hstep.attempt_cases hc
    · exact (h.within a ha).continues hsame
    · obtain ⟨x, hx, -, -, hwithin, -⟩ := hstep.begun_within
      cases hx.symm.trans hc
      exact hwithin
  episode _ hc hrecovery := h.episode_outline hstep hc hrecovery

end RotationState.Timed

theorem RotationState.Opened.timed (h : Opened s) : s.Timed := by
  obtain ⟨-, hnone, -, -, -, hepisode, hattempts⟩ := h.fresh
  exact ⟨fun _ => ⟨hepisode, hattempts⟩, fun _ ha => (nomatch hnone.symm.trans ha),
    fun _ ha => (nomatch hnone.symm.trans ha)⟩

/-- The recoveries of an episode: no more than three, with one deadline that the first
of them was allowed to ask for. -/
structure Budgeted (config : RotationConfig) (seen : List (Nat × Nat)) : Prop where
  few : seen.length ≤ 3
  first : ∀ r, seen.head? = some r → r.2 ≤ r.1 + config.recoveryTimeoutMs
  same : ∀ r, seen.head? = some r → ∀ x ∈ seen, x.2 = r.2

/-- The recoveries begun since the machine was last active, against its counters. -/
structure Counted (seen : List (Nat × Nat)) (s : RotationState) : Prop where
  count : seen.length = s.recoveryAttempts
  deadline : ∀ r ∈ seen, s.recoveryEpisodeDeadline = some r.2
  none : seen = [] → s.recoveryEpisodeDeadline = none

theorem Outline.settled_cases (h : Outline now s begun t)
    (hnone : begun.bind Begun.episode = none) :
    t.phase = .active ∨ t.phase = .closed ∨
      (t.recoveryAttempts = s.recoveryAttempts ∧
        t.recoveryEpisodeDeadline = s.recoveryEpisodeDeadline) := by
  cases h with
  | stay | free | waste | lose => exact .inr (.inr ⟨rfl, rfl⟩)
  | close => exact .inr (.inl rfl)
  | goOn h | release h | reserve h =>
    exact .inr (.inr ⟨h.settled.recoveryAttempts, h.settled.recoveryEpisodeDeadline⟩)
  | takeOver | aborted | reconcile => exact .inl rfl
  | start h =>
    obtain ⟨-, -, -, -, a, -, rfl⟩ := h
    exact .inr (.inr ⟨rfl, rfl⟩)
  | recover h => exact nomatch hnone

/-- A recovery is begun within the budget of its episode. -/
theorem Counted.recover {identity : RotationAttemptIdentity} {roster : StreamRoster}
    {reason : RecoveryReason} (h : Counted seen s) (hb : Budgeted s.config seen)
    (hrecover : Recovers now s identity roster reason deadline t) :
    Budgeted s.config (seen ++ [(now, deadline)]) ∧ Counted (seen ++ [(now, deadline)]) t := by
  obtain ⟨-, -, -, hinTime, -, hattempts, -, -, a, -, rfl⟩ := hrecover
  have hlength : (seen ++ [(now, deadline)]).length = seen.length + 1 := length_append
  have hall : ∀ x ∈ seen ++ [(now, deadline)], x.2 = deadline := by
    refine forall_mem_append.2 ⟨fun x hx => ?_, forall_mem_singleton.2 rfl⟩
    rcases (validateRecoveryDeadline_eq_ok hinTime).2 with heq | ⟨heq, -⟩
    · exact Option.some.inj ((h.deadline x hx).symm.trans heq)
    · exact nomatch (h.deadline x hx).symm.trans heq
  refine ⟨⟨?_, ?_, ?_⟩, ⟨?_, ?_, ?_⟩⟩
  · rw [hlength, h.count]
    exact hattempts
  · intro r hr
    cases seen with
    | cons x seen => exact hb.first r hr
    | nil =>
      cases hr
      rcases (validateRecoveryDeadline_eq_ok hinTime).2 with heq | ⟨-, hle⟩
      · exact nomatch (h.none rfl).symm.trans heq
      · exact hle
  · intro r hr x hx
    rw [hall x hx, hall r (mem_of_mem_head? hr)]
  · rw [hlength, h.count]
    rfl
  · intro r hr
    rw [hall r hr]
    rfl
  · intro hnil
    exact absurd hnil (by simp)

structure InEpisode (config : RotationConfig) (seen : List (Nat × Nat)) (s : RotationState) :
    Prop where
  config_eq : s.config = config
  accounted : s.Accounted
  timed : s.Timed
  budgeted : Budgeted config seen
  counted : s.phase = .closed ∨ Counted seen s

section

variable (h : InEpisode config seen s)
include h

theorem InEpisode.observed (now : Nat) : InEpisode config seen (s.observed now) :=
  ⟨h.config_eq, h.accounted.observed now, h.timed.observed now, h.budgeted,
    h.counted.imp id fun hc => ⟨hc.count, hc.deadline, hc.none⟩⟩

theorem InEpisode.outline (hstep : Outline now s begun t) :
    Budgeted config (seen ++ (begun.bind Begun.episode).toList) ∧
      (t.phase = .active ∨ InEpisode config (seen ++ (begun.bind Begun.episode).toList) t) := by
  have haccounted := h.accounted.outline hstep
  have htimed := h.timed.outline hstep
  have hconfig := hstep.config_eq.trans h.config_eq
  cases hepisode : begun.bind Begun.episode with
  | none =>
    rw [Option.toList_none, append_nil]
    refine ⟨h.budgeted, ?_⟩
    rcases hstep.settled_cases hepisode with hactive | hclosed | ⟨hattempts, hdeadline⟩
    · exact .inl hactive
    · exact .inr ⟨hconfig, haccounted, htimed, h.budgeted, .inl hclosed⟩
    · refine .inr ⟨hconfig, haccounted, htimed, h.budgeted, ?_⟩
      rcases h.counted with hclosed | hcounted
      · exact .inl (hstep.closed h.accounted hclosed)
      · refine .inr ⟨?_, ?_, ?_⟩
        · rw [hattempts]
          exact hcounted.count
        · rw [hdeadline]
          exact hcounted.deadline
        · rw [hdeadline]
          exact hcounted.none
  | some r =>
    cases hstep with
    | recover hrecover =>
      cases hepisode
      have hopen : s.phase ≠ .closed := by
        intro hclosed
        rcases hrecover.phase with hphase | hphase
        · exact nomatch hphase.symm.trans hclosed
        · exact nomatch hphase.symm.trans hclosed
      have hcounted := h.counted.resolve_left hopen
      have hbudgeted := h.budgeted
      rw [← h.config_eq] at hbudgeted
      obtain ⟨hb, hc⟩ := hcounted.recover hbudgeted hrecover
      rw [h.config_eq] at hb
      exact ⟨hb, .inr ⟨hconfig, haccounted, htimed, hb, .inr hc⟩⟩
    | _ => exact nomatch hepisode

/-- A candidate is reserved or activated before the deadline of its episode. -/
theorem InEpisode.before (hphase : s.phase = .recovering)
    (ha : s.attempt = some a) (hrecovery : a.isRecoveryAttempt = true)
    (hbefore : now < a.overlapDeadlineMs) : ∃ r, seen.head? = some r ∧ now < r.2 := by
  have hcounted := h.counted.resolve_left fun hclosed => nomatch hphase.symm.trans hclosed
  obtain ⟨deadline, hdeadline, hle⟩ := h.timed.episode a ha hrecovery
  cases seen with
  | nil => exact nomatch (hcounted.none rfl).symm.trans hdeadline
  | cons r seen =>
    refine ⟨r, rfl, lt_of_lt_of_le hbefore ?_⟩
    rw [Option.some.inj ((hcounted.deadline r mem_cons_self).symm.trans hdeadline)]
    exact hle

end

end

/-! ## Along a run -/

section

variable [Sha256]

/-- The recovery an operation begins from a state: its time and episode deadline. -/
def RotationState.Op.recovery (op : Op) (s : RotationState) : Option (Nat × Nat) :=
  (op.begun s).bind Begun.episode

def RotationState.recoveriesIn (s : RotationState) (ops : List Op) : List (Nat × Nat) :=
  Trace.events Op.next Op.recovery s ops

/-- The time at which an operation reserves or activates a recovery candidate. -/
def RotationState.Op.candidateAt (op : Op) (s : RotationState) : Option Nat :=
  match op, op.exec.run s with
  | .reserveRecoverySocket now, .ok _ _ => some now
  | .reconcileValidated _ _ now, .ok _ _ => some now
  | _, _ => none

variable {s : RotationState}

theorem timed_invariant : Invariant RotationState.Timed where
  observed now h := h.observed now
  move h hmove := h.outline hmove.outline

theorem continues_invariant (a : AttemptState) :
    Invariant fun s => s.Accounted ∧ Since AttemptState.Continues a s where
  observed now h := ⟨h.1.observed now, h.2.claimed, h.2.related⟩
  move h hmove := ⟨h.1.outline hmove.outline, h.2.outline h.1 hmove.outline
    fun _ _ _ _ _ hbc hab => hab.trans hbc⟩

theorem InEpisode.step {config : RotationConfig} {seen : List (Nat × Nat)}
    (h : InEpisode config seen s) (op : Op) :
    Budgeted config (seen ++ (op.recovery s).toList) ∧
      ((op.next s).phase = .active ∨
        InEpisode config (seen ++ (op.recovery s).toList) (op.next s)) := by
  have hchange := op.next_change s
  unfold Op.recovery
  generalize op.begun s = begun, op.next s = t, op.time = time at hchange
  cases hchange with
  | same => simpa using ⟨h.budgeted, .inr h⟩
  | shut =>
    have hclose : Outline 0 s none s.shut := .close s.terminalReason
    exact h.outline hclose
  | move hclock hmove => exact (h.observed _).outline hmove.outline

theorem inEpisode_of_active (h : Reachable s) (hphase : s.phase = .active) :
    InEpisode s.config [] s := by
  have htimed := timed_invariant.reachable Opened.timed h
  obtain ⟨hdeadline, hattempts⟩ := htimed.active hphase
  exact ⟨rfl, h.accounted, htimed, ⟨by decide, nofun, nofun⟩,
    .inr ⟨hattempts.symm, nofun, fun _ => hdeadline⟩⟩

/-- What reserves or activates a candidate is a recovery that is still in time. -/
theorem candidateAt_before {op : Op} {now : Nat} (h : op.candidateAt s = some now) :
    s.phase = .recovering ∧ ∃ a, s.attempt = some a ∧ a.isRecoveryAttempt = true ∧
      now < a.overlapDeadlineMs := by
  unfold Op.candidateAt at h
  split at h
  · next now' v t hrun =>
    cases h
    obtain ⟨-, hphase, -, -, a, ha, hrecovery, hbefore, -⟩ :=
      wp_map_ok (reserveRecoverySocket_observes s) hrun
    exact ⟨hphase, a, ha, hrecovery, hbefore⟩
  · next identity verdicts now' v t hrun =>
    cases h
    obtain ⟨-, hphase, -, -, -, ⟨a, ha, -, hrecovery, hbefore⟩, -⟩ :=
      wp_map_ok (reconcileValidated_observes identity verdicts s) hrun
    exact ⟨hphase, a, ha, hrecovery, hbefore⟩
  · cases h

/-- What an operation past the overlap deadline leaves of a handover not committed. -/
theorem RotationState.Change.late {time : Option Nat} {begun : Option Begun} {t : RotationState}
    {a : AttemptState} (h : Change s time begun t) (ha : s.attempt = some a)
    (hlate : ∀ now, time = some now → a.overlapDeadlineMs ≤ now)
    (hphase : s.phase ∈ [.preparing, .quiescing, .draining, .committing, .aborting]) :
    t.phase = s.phase ∨ t.phase = .recovering ∨ t.phase = .closed := by
  cases h with
  | same => exact .inl rfl
  | shut => exact .inr (.inr rfl)
  | move hclock hmove => exact hmove.late ha (hlate _ rfl) hphase

/-- The machine runs from an active state, and is not active again before the end. -/
def RotationState.Segment (s : RotationState) (ops : List Op) : Prop :=
  s.phase = .active ∧
    ∀ before, before <+: ops → before ≠ [] → before ≠ ops → (s.run before).phase ≠ .active

theorem RotationState.Segment.inEpisode {ops before : List Op} (h : Segment s ops)
    (hs : Reachable s) (hbefore : before <+: ops) (hne : before ≠ ops) :
    InEpisode s.config (s.recoveriesIn before) (s.run before) := by
  have hstep (seen : List (Nat × Nat)) (op : Op) (t : RotationState)
      (ht : InEpisode s.config seen t) : (op.next t).phase = .active ∨
        InEpisode s.config (seen ++ (op.recovery t).toList) (op.next t) := (ht.step op).2
  let active (t : RotationState) : Prop := t.phase = .active
  have hinside : ∀ before, before <+: ops → before ≠ [] → before ≠ ops →
      ¬ active (Trace.run Op.next s before) := h.2
  exact Trace.inv_before_stop hstep (inEpisode_of_active hs h.1) hinside hbefore hne

/-- The recoveries of a segment keep to one budget. -/
theorem RotationState.Segment.budgeted {ops : List Op} (h : Segment s ops) (hs : Reachable s) :
    Budgeted s.config (s.recoveriesIn ops) := by
  rcases eq_nil_or_concat' ops with rfl | ⟨before, op, rfl⟩
  · exact (inEpisode_of_active hs h.1).budgeted
  · have hin := h.inEpisode hs (prefix_append before [op]) (by simp)
    have hstep := (hin.step op).1
    rw [RotationState.recoveriesIn, Trace.events_append, Trace.events, Trace.events, append_nil]
    exact hstep

end

/-- Deadlines are fixed when an attempt is begun and bounded by the policy and the cap
given; past the overlap deadline a handover that is not committed goes to recovery or is
closed; and from one active phase to the next at most three recoveries are begun, with
one deadline, and no candidate is reserved or activated once it has passed. -/
theorem deadlines_absolute [Sha256] {s : RotationState} (h : Reachable s) :
    (∀ (op : Op) (b : Begun), op.begun s = some b →
      ∃ a, (op.next s).attempt = some a ∧ a.identity = b.identity ∧ a.startedAtMs = b.now ∧
        a.handshakeDeadlineMs ≤ b.now + s.config.handshakeTimeoutMs ∧
        a.overlapDeadlineMs ≤ b.now + s.config.overlapTimeoutMs ∧
        (∀ c, b.cap = some c → a.handshakeDeadlineMs ≤ c ∧ a.overlapDeadlineMs ≤ c)) ∧
    (∀ (ops : List Op) (a b : AttemptState), s.attempt = some a →
      (s.run ops).attempt = some b → b.identity = a.identity →
        b.startedAtMs = a.startedAtMs ∧ b.handshakeDeadlineMs = a.handshakeDeadlineMs ∧
        b.overlapDeadlineMs = a.overlapDeadlineMs) ∧
    (∀ (op : Op) (a : AttemptState), s.attempt = some a →
      s.phase ∈ [.preparing, .quiescing, .draining, .committing, .aborting] →
      (∀ now, op.time = some now → a.overlapDeadlineMs ≤ now) →
        (op.next s).phase = s.phase ∨ (op.next s).phase = .recovering ∨
          (op.next s).phase = .closed) ∧
    (∀ ops, Segment s ops →
      (s.recoveriesIn ops).length ≤ 3 ∧
      (∀ r, (s.recoveriesIn ops).head? = some r →
        r.2 ≤ r.1 + s.config.recoveryTimeoutMs ∧ ∀ x ∈ s.recoveriesIn ops, x.2 = r.2) ∧
      ∀ (before after : List Op) (op : Op) (now : Nat), ops = before ++ op :: after →
        op.candidateAt (s.run before) = some now →
          ∃ r, (s.recoveriesIn ops).head? = some r ∧ now < r.2) := by
  refine ⟨fun op b hb => ?_, fun ops a b ha hb hid => ?_, fun op a ha hphase hlate => ?_,
    fun ops hsegment => ?_⟩
  · have hchange := op.next_change s
    rw [hb] at hchange
    generalize op.next s = t, op.time = time at hchange
    cases hchange with
    | move hclock hmove =>
      obtain ⟨a, ha, hid, hstarted, hwithin, hcap⟩ := hmove.outline.begun_within
      exact ⟨a, ha, hid, hstarted, hstarted ▸ hwithin.handshake_le,
        hstarted ▸ hwithin.overlap_le, hcap⟩
  · have hsince := (continues_invariant a).run ⟨h.accounted, .refl h.accounted ha (.refl a)⟩ ops
    have hsame := hsince.2.related b hb hid
    exact ⟨hsame.startedAtMs, hsame.handshakeDeadlineMs, hsame.overlapDeadlineMs⟩
  · exact (op.next_change s).late ha hlate hphase
  · have hbudgeted := hsegment.budgeted h
    refine ⟨hbudgeted.few, fun r hr => ⟨hbudgeted.first r hr, hbudgeted.same r hr⟩, ?_⟩
    rintro before after op now rfl hcandidate
    obtain ⟨hphase, a, ha, hrecovery, hbefore⟩ := candidateAt_before hcandidate
    have hin := hsegment.inEpisode h (prefix_append before (op :: after)) (by simp)
    obtain ⟨r, hr, hlt⟩ := hin.before hphase ha hrecovery hbefore
    refine ⟨r, ?_, hlt⟩
    rw [RotationState.recoveriesIn] at hr ⊢
    rw [Trace.events_append, List.head?_append, hr]
    rfl

set_option maxRecDepth 4000 in
theorem demoRecovery_segment : @Segment zeroDigest demoMachine demoRecovery := by
  refine ⟨rfl, fun before hbefore hnil hne => ?_⟩
  rw [prefix_iff_eq_take] at hbefore
  have hlt : before.length < 5 := by
    by_contra hge
    rw [take_of_length_le (not_lt.1 hge)] at hbefore
    exact hne hbefore
  have hpos : 0 < before.length := length_pos_iff.2 hnil
  rw [hbefore]
  generalize before.length = n at hlt hpos
  have hcases : n = 1 ∨ n = 2 ∨ n = 3 ∨ n = 4 := by omega
  rcases hcases with rfl | rfl | rfl | rfl <;> decide

set_option maxRecDepth 4000 in
theorem deadlines_absolute_recovered :
    @RotationState.recoveriesIn zeroDigest demoMachine demoRecovery = [(2, 20000)] ∧
      (demoRun demoRecovery).phase = .active ∧
      (@RotationState.recoveriesIn zeroDigest demoMachine demoRecovery).length ≤ 3 :=
  ⟨by decide, by decide, ((@deadlines_absolute zeroDigest demoMachine (demo_reachable [])).2.2.2
    demoRecovery demoRecovery_segment).1⟩

end AgentUplink
