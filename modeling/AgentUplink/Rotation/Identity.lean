/-
Generations and connection identifiers.

The watermark is the generation of the last attempt begun, and the generation of
the active carrier never passes it. So generations only grow, identifiers are
never claimed again, and a handover that was decided is not undone.
-/
import AgentUplink.Rotation.Carriers

namespace AgentUplink

open Machine Fallible List RotationState

namespace Begun

def generation (b : Begun) : Nat := b.identity.newGeneration

def connectionId (b : Begun) : String := b.identity.newConnectionId

end Begun

def RotationState.begunIn [Sha256] (s : RotationState) (ops : List Op) : List Begun :=
  Trace.events Op.next Op.begun s ops

section

variable {s t : RotationState} {a : AttemptState} {now : Nat} {b : Begun}

/-! ## Generations -/

structure RotationState.Ordered (s : RotationState) : Prop where
  active_le : s.activeGeneration ≤ s.generationHighWatermark
  attempt : ∀ a, s.attempt = some a → s.activeGeneration < a.identity.newGeneration ∧
    a.identity.newGeneration = s.generationHighWatermark

/-- What beginning an attempt does to the generations and the identifiers. -/
structure Begins (s : RotationState) (b : Begun) (t : RotationState) : Prop where
  above : s.generationHighWatermark < b.generation
  watermark : t.generationHighWatermark = b.generation
  activeGeneration : t.activeGeneration = s.activeGeneration
  unused : b.connectionId ∉ s.usedConnectionIds
  used : t.usedConnectionIds = insert b.connectionId s.usedConnectionIds
  attempt : ∃ a, t.attempt = some a ∧ a.identity = b.identity

theorem Outline.begins (h : Outline now s (some b) t) : Begins s b t := by
  cases h with
  | start h =>
    obtain ⟨-, hnames, hunused, -, a, hnew, rfl⟩ := h
    have hidentity := congrArg AttemptState.identity hnew.eq
    exact ⟨hnames.aboveWatermark, congrArg RotationAttemptIdentity.newGeneration hidentity, rfl,
      hunused, rfl, a, rfl, hidentity⟩
  | recover h =>
    obtain ⟨-, hnames, -, -, -, -, hunused, -, a, hnew, rfl⟩ := h
    have hidentity := congrArg AttemptState.identity hnew.eq
    exact ⟨hnames.aboveWatermark, congrArg RotationAttemptIdentity.newGeneration hidentity, rfl,
      hunused, rfl, _, rfl, hidentity⟩

theorem Outline.watermark_eq (h : Outline now s none t) :
    t.generationHighWatermark = s.generationHighWatermark := by
  cases h with
  | goOn h | release h | reserve h => exact h.settled.generationHighWatermark
  | stay | close | lose | free | waste | takeOver | aborted | reconcile => rfl

variable {begun : Option Begun}

theorem Outline.watermark_le (h : Outline now s begun t) :
    s.generationHighWatermark ≤ t.generationHighWatermark := by
  cases begun with
  | none => exact le_of_eq h.watermark_eq.symm
  | some b =>
    rw [h.begins.watermark]
    exact le_of_lt h.begins.above

theorem Outline.used_eq (h : Outline now s none t) (hs : s.Accounted) :
    t.usedConnectionIds = s.usedConnectionIds := by
  cases h with
  | goOn h | release h | reserve h => exact h.settled.usedConnectionIds
  | waste hmem hunused => exact absurd (hs.used hmem) hunused
  | stay | close | lose | free | takeOver | aborted | reconcile => rfl

/-- An attempt goes on through its phases, or it has just begun. -/
theorem Outline.attempt_cases {c : AttemptState}
    (h : Outline now s begun t) (hc : t.attempt = some c) :
    (∃ a, s.attempt = some a ∧ a.Continues c ∧
        (t.phase = s.phase ∨ s.phase.leadsTo t.phase = true) ∧
        t.recoveryEpisodeDeadline = s.recoveryEpisodeDeadline) ∨
      ∃ b, begun = some b ∧ c.identity = b.identity := by
  cases begun with
  | some b =>
    obtain ⟨a, ha, hidentity⟩ := h.begins.attempt
    cases ha.symm.trans hc
    exact .inr ⟨b, rfl, hidentity⟩
  | none =>
    refine .inl ?_
    cases h with
    | stay | free | waste => exact ⟨c, hc, .refl c, .inl rfl, rfl⟩
    | close | takeOver | aborted | reconcile => exact nomatch hc
    | lose hnone => exact nomatch hnone.symm.trans hc
    | goOn h | release h | reserve h =>
      cases h.after.symm.trans hc
      exact ⟨_, h.before, h.same, .inr h.phase, h.settled.recoveryEpisodeDeadline⟩

/-- The active generation stays, or becomes the one of an attempt that ends. -/
theorem Outline.active_cases (h : Outline now s begun t) :
    t.activeGeneration = s.activeGeneration ∨
      t.attempt = none ∧
        ∃ a, s.attempt = some a ∧ t.activeGeneration = a.identity.newGeneration := by
  cases begun with
  | some b => exact .inl h.begins.activeGeneration
  | none =>
    cases h with
    | goOn h | release h | reserve h => exact .inl h.settled.activeGeneration
    | takeOver _ _ ha => exact .inr ⟨rfl, _, ha, rfl⟩
    | reconcile h =>
      obtain ⟨-, -, -, -, ⟨a, ha, rfl, -⟩, heq⟩ := h
      exact .inr ⟨rfl, a, ha, congrArg RotationState.activeGeneration heq⟩
    | stay | close | lose | free | waste | aborted => exact .inl rfl

namespace RotationState.Ordered

variable {begun : Option Begun}

theorem observed (h : s.Ordered) (now : Nat) : (s.observed now).Ordered := ⟨h.active_le, h.attempt⟩

theorem active_le_active (h : s.Ordered) (hstep : Outline now s begun t) :
    s.activeGeneration ≤ t.activeGeneration := by
  rcases hstep.active_cases with heq | ⟨-, a, ha, heq⟩
  · exact le_of_eq heq.symm
  · rw [heq]
    exact le_of_lt (h.attempt a ha).1

theorem outline (h : s.Ordered) (hstep : Outline now s begun t) : t.Ordered := by
  have hactive : t.activeGeneration ≤ s.generationHighWatermark := by
    rcases hstep.active_cases with heq | ⟨-, a, ha, heq⟩
    · rw [heq]
      exact h.active_le
    · rw [heq]
      exact le_of_eq (h.attempt a ha).2
  cases begun with
  | some b =>
    have hbegins := hstep.begins
    have hlt : t.activeGeneration < b.generation := lt_of_le_of_lt hactive hbegins.above
    refine ⟨?_, fun c hc => ?_⟩
    · rw [hbegins.watermark]
      exact le_of_lt hlt
    · obtain ⟨a, ha, hid⟩ := hbegins.attempt
      cases ha.symm.trans hc
      rw [hid, hbegins.watermark]
      exact ⟨hlt, rfl⟩
  | none =>
    refine ⟨?_, fun c hc => ?_⟩
    · rw [hstep.watermark_eq]
      exact hactive
    · obtain ⟨a, ha, hsame, -⟩ | ⟨b, hb, -⟩ := hstep.attempt_cases hc
      · rcases hstep.active_cases with heq | ⟨hnone, -⟩
        · rw [heq, hsame.identity, hstep.watermark_eq]
          exact h.attempt a ha
        · exact nomatch hnone.symm.trans hc
      · cases hb

end RotationState.Ordered

theorem RotationState.Opened.ordered (h : Opened s) : s.Ordered := by
  obtain ⟨-, hnone, -, -, hwatermark, -, -⟩ := h.fresh
  exact ⟨le_of_eq hwatermark.symm, fun _ ha => nomatch hnone.symm.trans ha⟩

/-! ## Identifiers -/

/-- The attempts begun so far, against the watermark and the identifiers used up. -/
structure Numbered (first : String) (seen : List Begun) (s : RotationState) : Prop where
  increasing : (seen.map Begun.generation).Pairwise (· < ·)
  below : ∀ b ∈ seen, b.generation ≤ s.generationHighWatermark
  nodup : (first :: seen.map Begun.connectionId).Nodup
  used : s.usedConnectionIds = (first :: seen.map Begun.connectionId).toFinset

theorem Numbered.outline {first : String} {seen : List Begun}
    (h : Numbered first seen s) (hs : s.Accounted) (hstep : Outline now s begun t) :
    Numbered first (seen ++ begun.toList) t := by
  cases begun with
  | none =>
    rw [Option.toList_none, append_nil]
    refine ⟨h.increasing, ?_, h.nodup, ?_⟩
    · rw [hstep.watermark_eq]
      exact h.below
    · rw [hstep.used_eq hs]
      exact h.used
  | some b =>
    have hbegins := hstep.begins
    have hlater : ∀ x ∈ seen, x.generation < b.generation := fun x hx =>
      lt_of_le_of_lt (h.below x hx) hbegins.above
    have hnew : b.connectionId ∉ first :: seen.map Begun.connectionId := by
      rw [← mem_toFinset, ← h.used]
      exact hbegins.unused
    have hids : first :: (seen ++ [b]).map Begun.connectionId =
        (first :: seen.map Begun.connectionId) ++ [b.connectionId] := by
      rw [map_append]
      rfl
    rw [Option.toList_some]
    refine ⟨?_, ?_, ?_, ?_⟩
    · rw [map_append, pairwise_append]
      refine ⟨h.increasing, pairwise_singleton _ _, fun x hx y hy => ?_⟩
      obtain ⟨c, hc, rfl⟩ := mem_map.1 hx
      rw [map_singleton, mem_singleton] at hy
      rw [hy]
      exact hlater c hc
    · rw [hbegins.watermark]
      exact forall_mem_append.2 ⟨fun x hx => le_of_lt (hlater x hx),
        forall_mem_singleton.2 (le_refl _)⟩
    · rw [hids, nodup_append]
      refine ⟨h.nodup, nodup_singleton _, fun x hx => forall_mem_singleton.2 ?_⟩
      exact fun heq => hnew (heq ▸ hx)
    · rw [hids, toFinset_append, ← h.used, hbegins.used, Finset.union_comm]
      rfl

/-! ## A decided handover -/

/-- The candidate is active, or was, or is about to be; or recovery decides. -/
def Stands (identity : RotationAttemptIdentity) (s : RotationState) : Prop :=
  identity.newGeneration ≤ s.activeGeneration ∨ s.phase = .closed ∨ s.phase = .recovering ∨
    ((s.phase = .committing ∨ s.phase = .retiring) ∧
      ∃ a, s.attempt = some a ∧ a.identity = identity)

/-- The commit decision was made for the attempt `identity`. -/
structure Decided (identity : RotationAttemptIdentity) (s : RotationState) : Prop where
  watermark : identity.newGeneration ≤ s.generationHighWatermark
  own : ∀ a, s.attempt = some a → a.identity = identity →
    s.phase = .committing ∨ s.phase = .retiring ∨ s.phase = .recovering
  stands : Stands identity s

/-- After the decision an attempt is only completed or left to recovery. -/
theorem decided_of_leadsTo {p q : RotationPhase} (h : q = p ∨ p.leadsTo q = true)
    (hp : p = .committing ∨ p = .retiring ∨ p = .recovering) :
    q = .committing ∨ q = .retiring ∨ q = .recovering := by
  rcases h with rfl | h
  · exact hp
  · rcases hp with rfl | rfl | rfl <;> revert h <;> cases q <;> decide

theorem Outline.closed (h : Outline now s begun t) (hs : s.Accounted)
    (hphase : s.phase = .closed) : t.phase = .closed := by
  have hnone {a : AttemptState} (ha : s.attempt = some a) : False := (hs.open_ a ha).2 hphase
  cases h with
  | stay | close | free | waste => first | exact hphase | rfl
  | goOn h | release h | reserve h => exact (hnone h.before).elim
  | lose _ hopen => exact absurd hphase hopen
  | start h | reconcile h => exact nomatch h.phase.symm.trans hphase
  | takeOver _ _ ha | aborted ha => exact (hnone ha).elim
  | recover h =>
    rcases h.phase with hactive | hrecovering
    · exact nomatch hactive.symm.trans hphase
    · exact nomatch hrecovering.symm.trans hphase

namespace Decided

variable {identity : RotationAttemptIdentity} {begun : Option Begun}

theorem observed (h : Decided identity s) (now : Nat) : Decided identity (s.observed now) :=
  ⟨h.watermark, h.own, h.stands⟩

theorem not_aborting (h : Decided identity s) :
    ¬ (s.phase = .aborting ∧ ∃ a, s.attempt = some a ∧ a.identity = identity) := by
  rintro ⟨hphase, a, ha, hid⟩
  have howned := h.own a ha hid
  rw [hphase] at howned
  simp at howned

theorem le_active (h : Decided identity s) (hphase : s.phase = .active) :
    identity.newGeneration ≤ s.activeGeneration := by
  have hstands := h.stands
  rw [Stands, hphase] at hstands
  simpa using hstands

theorem stands_of_own {a : AttemptState} (hstep : Outline now s begun t)
    (hphase : s.phase = .committing ∨ s.phase = .retiring) (ha : s.attempt = some a)
    (hid : a.identity = identity) : Stands identity t := by
  have hne {p : RotationPhase} (hp : s.phase = p) (hc : p ≠ .committing) (hr : p ≠ .retiring) :
      False := by
    subst hp
    exact hphase.elim hc hr
  cases hstep with
  | stay | waste => exact .inr (.inr (.inr ⟨hphase, a, ha, hid⟩))
  | close => exact .inr (.inl rfl)
  | goOn h =>
    have howned := decided_of_leadsTo (.inr h.phase)
      (hphase.elim (fun h => .inl h) fun h => .inr (.inl h))
    cases h.before.symm.trans ha
    rcases howned with hq | hq | hq
    · exact .inr (.inr (.inr ⟨.inl hq, _, h.after, h.same.identity.trans hid⟩))
    · exact .inr (.inr (.inr ⟨.inr hq, _, h.after, h.same.identity.trans hid⟩))
    · exact .inr (.inr (.inl hq))
  | release h => exact .inr (.inr (.inl h.ends))
  | lose hnone | free _ hnone => exact nomatch hnone.symm.trans ha
  | start h | reserve _ h | reconcile h => exact (hne h.phase nofun nofun).elim
  | takeOver _ _ hb =>
    cases hb.symm.trans ha
    exact .inl (le_of_eq (congrArg RotationAttemptIdentity.newGeneration hid.symm))
  | aborted _ haborting => exact (hne haborting nofun nofun).elim
  | recover h =>
    obtain ⟨-, -, -, -, -, -, -, -, b, -, rfl⟩ := h
    exact .inr (.inr (.inl rfl))

theorem stands_of_recovering (ho : s.Ordered) (hstep : Outline now s begun t)
    (hwatermark : identity.newGeneration ≤ s.generationHighWatermark)
    (hphase : s.phase = .recovering) : Stands identity t := by
  cases hstep with
  | stay | free | waste => exact .inr (.inr (.inl hphase))
  | close => exact .inr (.inl rfl)
  | goOn h | release h | reserve h =>
    exact .inr (.inr (.inl (RotationPhase.eq_recovering_of_leadsTo h.phase hphase)))
  | lose => exact .inr (.inr (.inl rfl))
  | start h => exact nomatch h.phase.symm.trans hphase
  | takeOver _ _ _ hretiring => exact nomatch hretiring.symm.trans hphase
  | aborted _ haborting => exact nomatch haborting.symm.trans hphase
  | recover h =>
    obtain ⟨-, -, -, -, -, -, -, -, b, -, rfl⟩ := h
    exact .inr (.inr (.inl rfl))
  | reconcile h =>
    obtain ⟨-, -, -, -, ⟨a, ha, rfl, -⟩, heq⟩ := h
    refine .inl (hwatermark.trans (le_of_eq ?_))
    rw [← (ho.attempt a ha).2]
    exact (congrArg RotationState.activeGeneration heq).symm

theorem outline (h : Decided identity s) (hs : s.Accounted) (ho : s.Ordered)
    (hstep : Outline now s begun t) : Decided identity t where
  watermark := h.watermark.trans hstep.watermark_le
  own c hc hid := by
    obtain ⟨a, ha, hsame, hphase, -⟩ | ⟨b, rfl, hb⟩ := hstep.attempt_cases hc
    · exact decided_of_leadsTo hphase (h.own a ha (hsame.identity.symm.trans hid))
    · -- a later attempt has a later generation
      have hlt := lt_of_le_of_lt h.watermark hstep.begins.above
      rw [Begun.generation, ← hb, hid] at hlt
      exact absurd hlt (lt_irrefl _)
  stands := by
    rcases h.stands with hle | hclosed | hrecovering | ⟨hphase, a, ha, hid⟩
    · exact .inl (hle.trans (ho.active_le_active hstep))
    · exact .inr (.inl (hstep.closed hs hclosed))
    · exact stands_of_recovering ho hstep h.watermark hrecovering
    · exact stands_of_own hstep hphase ha hid

theorem commits (ho : s.Ordered) (h : Commits now s identity t) : Decided identity t := by
  obtain ⟨hphase, a, ha, hid, -, -, rfl⟩ := h
  refine ⟨?_, fun _ _ _ => .inl hphase, .inr (.inr (.inr ⟨.inl hphase, _, rfl, hid⟩))⟩
  rw [← hid]
  exact le_of_eq (ho.attempt a ha).2

end Decided

end

/-! ## Along a run -/

section

variable [Sha256] {s : RotationState}

theorem ordered_invariant : Invariant RotationState.Ordered where
  observed now h := h.observed now
  move h hmove := h.outline hmove.outline

theorem activeGeneration_invariant (generation : Nat) :
    Invariant fun s => s.Ordered ∧ generation ≤ s.activeGeneration where
  observed now h := ⟨h.1.observed now, h.2⟩
  move h hmove := ⟨h.1.outline hmove.outline, h.2.trans (h.1.active_le_active hmove.outline)⟩

theorem decided_invariant (identity : RotationAttemptIdentity) :
    Invariant fun s => s.Accounted ∧ s.Ordered ∧ Decided identity s where
  observed now h := ⟨h.1.observed now, h.2.1.observed now, h.2.2.observed now⟩
  move h hmove := ⟨h.1.outline hmove.outline, h.2.1.outline hmove.outline,
    h.2.2.outline h.1 h.2.1 hmove.outline⟩

theorem RotationState.Reachable.ordered (h : Reachable s) : s.Ordered :=
  ordered_invariant.reachable Opened.ordered h

variable {t : RotationState} {time : Option Nat}

theorem Numbered.change {first : String} {seen : List Begun}
    {begun : Option Begun} (h : Numbered first seen s) (hs : s.Accounted)
    (hchange : Change s time begun t) : Numbered first (seen ++ begun.toList) t := by
  cases hchange with
  | same => simpa using h
  | shut =>
    have hclose : Outline 0 s none s.shut := .close s.terminalReason
    exact h.outline hs hclose
  | @move now _ _ hclock hmove =>
    have hobserved : Numbered first seen (s.observed now) :=
      ⟨h.increasing, h.below, h.nodup, h.used⟩
    exact hobserved.outline (hs.observed now) hmove.outline

theorem RotationState.Change.above {b : Begun}
    (h : Change s time (some b) t) : s.generationHighWatermark < b.generation := by
  cases h with
  | move hclock hmove => exact hmove.outline.begins.above

omit [Sha256] in
theorem RotationState.Opened.numbered (h : Opened s) : Numbered s.activeConnectionId [] s :=
  ⟨.nil, nofun, nodup_singleton _, h.fresh.used⟩

theorem RotationState.Opened.numbered_run (h : Opened s) (ops : List Op) :
    Numbered s.activeConnectionId (s.begunIn ops) (s.run ops) := by
  let inv (seen : List Begun) (t : RotationState) : Prop :=
    t.Accounted ∧ Numbered s.activeConnectionId seen t
  have hstep (seen : List Begun) (op : Op) (t : RotationState) (ht : inv seen t) :
      inv (seen ++ (op.begun t).toList) (op.next t) :=
    ⟨accounted_invariant.change ht.1 (op.next_change t), ht.2.change ht.1 (op.next_change t)⟩
  have hrun : inv ([] ++ s.begunIn ops) (s.run ops) :=
    Trace.events_invariant hstep ⟨h.accounted, h.numbered⟩ ops
  exact hrun.2

theorem decided_of_commit {identity : RotationAttemptIdentity} {now : Nat} {v : Unit}
    (h : Reachable s) (hrun : (commit identity now).run s = .ok v t) :
    t.Accounted ∧ t.Ordered ∧ Decided identity t := by
  have hcommits := (wp_of_ok (commit_observes identity s) hrun).2
  have houtline := (Move.commit hcommits).outline
  exact ⟨(h.accounted.observed now).outline houtline, (h.ordered.observed now).outline houtline,
    .commits (h.ordered.observed now) hcommits⟩

end

/-- Along every run generations only grow and identifiers are claimed once, and a
handover whose commit succeeded is never undone: it is not aborted, and the machine is
active again only on its generation or a later one. -/
theorem no_rollback_no_reuse [Sha256] {s : RotationState} (h : Opened s) :
    (∀ ops, ((s.begunIn ops).map Begun.generation).Pairwise (· < ·)) ∧
    (∀ (before later : List Op) (op : Op) (b : Begun),
      op.begun (s.run (before ++ later)) = some b →
        (s.run before).activeGeneration < b.generation) ∧
    (∀ ops,
      (s.activeConnectionId :: (s.begunIn ops).map Begun.connectionId).Nodup ∧
      (s.run ops).usedConnectionIds =
        (s.activeConnectionId :: (s.begunIn ops).map Begun.connectionId).toFinset) ∧
    (∀ before later, (s.run before).activeGeneration ≤ (s.run (before ++ later)).activeGeneration) ∧
    (∀ (before later : List Op) (identity : RotationAttemptIdentity) (now : Nat) (v : Unit)
      (t : RotationState), (commit identity now).run (s.run before) = .ok v t →
        ¬ ((t.run later).phase = .aborting ∧
          ∃ a, (t.run later).attempt = some a ∧ a.identity = identity) ∧
        ((t.run later).phase = .active →
          identity.newGeneration ≤ (t.run later).activeGeneration)) := by
  have hreach (ops : List Op) : Reachable (s.run ops) := ⟨s, ops, h, rfl⟩
  have hmono (before later : List Op) : (s.run before).activeGeneration ≤
      (s.run (before ++ later)).activeGeneration := by
    rw [RotationState.run, RotationState.run, Trace.run_append]
    exact ((activeGeneration_invariant _).run ⟨(hreach before).ordered, le_refl _⟩ later).2
  refine ⟨fun ops => (h.numbered_run ops).increasing, fun before later op b hb => ?_,
    fun ops => ⟨(h.numbered_run ops).nodup, (h.numbered_run ops).used⟩, hmono,
    fun before later identity now v t hrun => ?_⟩
  · have habove : (s.run (before ++ later)).generationHighWatermark < b.generation := by
      have hchange := op.next_change (s.run (before ++ later))
      rw [hb] at hchange
      exact hchange.above
    exact lt_of_le_of_lt ((hmono before later).trans (hreach _).ordered.active_le) habove
  · have hdecided := (decided_invariant identity).run (decided_of_commit (hreach before) hrun) later
    exact ⟨hdecided.2.2.not_aborting, hdecided.2.2.le_active⟩

set_option maxRecDepth 4000 in
theorem no_rollback_no_reuse_retired :
    ∃ t, (commit demoIdentity 7).run (demoRun demoDrain) = .ok () t ∧
      (@RotationState.run zeroDigest t demoRetire).phase = .active ∧
      2 ≤ (@RotationState.run zeroDigest t demoRetire).activeGeneration :=
  ⟨_, rfl, by decide, ((@no_rollback_no_reuse zeroDigest _ demoMachine_opened).2.2.2.2 demoDrain
    demoRetire demoIdentity 7 () _ rfl).2 (by decide)⟩

end AgentUplink
