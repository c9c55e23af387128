/-
The evidence a handover is committed on.

A roster is fixed first, then one fence snapshot for each direction, then one drain
proof for each. Each is recorded once and checked against what was recorded before
it, so an attempt that reached its commit holds all of them and they agree.
-/
import AgentUplink.Rotation.Retiring
import AgentUplink.Sequence.Recovery

namespace AgentUplink

open Machine Fallible List RotationState

/-! ## What the checks establish -/

theorem pairwise_of_validateIncreasing {duplicate : UInt64 → RotationError}
    {notSorted : RotationError} {seen : List UInt64} {previous : UInt64} {streamIds : List UInt64}
    (h : validateIncreasing duplicate notSorted seen previous streamIds = .ok ()) :
    (previous :: streamIds).Pairwise (· < ·) := by
  induction streamIds generalizing seen previous with
  | nil => exact pairwise_singleton _ _
  | cons streamId streamIds ih =>
    simp only [validateIncreasing, ite_error_eq_ok] at h
    obtain ⟨-, -, hlt, h⟩ := h
    have hrest := ih h
    have hlt : previous < streamId := UInt64.not_le.1 hlt
    exact pairwise_cons.2 ⟨forall_mem_cons.2 ⟨hlt, fun x hx =>
      UInt64.lt_trans hlt (rel_of_pairwise_cons hrest hx)⟩, hrest⟩

theorem nodup_of_validateRoster {roster : StreamRoster} {maximum : Nat}
    (h : validateRoster roster maximum = .ok ()) : roster.streamIds.Nodup := by
  have hsorted := pairwise_of_validateIncreasing (ite_error_eq_ok.1 h).2
  refine List.Pairwise.imp ?_ (pairwise_cons.1 hsorted).2
  intro x y hlt heq
  subst heq
  exact UInt64.lt_irrefl x hlt

variable {acks : List (UInt64 × Nat)} {streamId : UInt64} {f : FenceSnapshot} {proof : DrainProof}
  {l : Link}

theorem collectAcks_ok {collected : List (UInt64 × Nat)} {rest : List StreamAck}
    (h : collectAcks acks rest = .ok collected) :
    collected = (rest.map fun ack => (ack.streamId, ack.acknowledged)).reverse ++ acks ∧
      ((acks.map Prod.fst).Nodup → (collected.map Prod.fst).Nodup) := by
  induction rest generalizing acks with
  | nil =>
    cases h
    exact ⟨rfl, id⟩
  | cons ack rest ih =>
    simp only [collectAcks, ite_error_eq_ok] at h
    obtain ⟨-, hnew, h⟩ := h
    obtain ⟨heq, hnodup⟩ := ih h
    refine ⟨by simpa using heq, fun hacks => hnodup ?_⟩
    rw [map_cons, nodup_cons]
    refine ⟨fun hmem => hnew ?_, hacks⟩
    obtain ⟨x, hx, hid⟩ := mem_map.1 hmem
    rw [lookup_isSome_iff]
    exact ⟨x, hx, by simp [hid]⟩

theorem validateAcks_ok {fences : List StreamFence} (h : validateAcks acks fences = .ok ()) :
    ∀ fence ∈ fences, acks.lookup fence.streamId = some fence.lastEmitted := by
  induction fences with
  | nil => nofun
  | cons fence fences ih =>
    unfold validateAcks at h
    split at h
    · cases h
    · next ack hack =>
      simp only [ite_error_eq_ok] at h
      obtain ⟨hbelow, habove, h⟩ := h
      refine forall_mem_cons.2 ⟨?_, ih h⟩
      rw [hack]
      exact congrArg some (le_antisymm (not_lt.1 habove) (not_lt.1 hbelow))

/-- The cursors of a proof name each fenced stream once, and name its fence. -/
structure AcksFences (f : FenceSnapshot) (proof : DrainProof) : Prop where
  streams : (proof.ackCursors.map StreamAck.streamId).Perm (f.entries.map StreamFence.streamId)
  cursor : ∀ fence ∈ f.entries, ∀ ack ∈ proof.ackCursors, ack.streamId = fence.streamId →
    ack.acknowledged = fence.lastEmitted

theorem lookup_eq_of_mem (h : (acks.map Prod.fst).Nodup) {ack : Nat}
    (hmem : (streamId, ack) ∈ acks) : acks.lookup streamId = some ack := by
  induction acks with
  | nil => nomatch hmem
  | cons x acks ih =>
    rw [map_cons, nodup_cons] at h
    rcases mem_cons.1 hmem with rfl | hmem
    · simp
    · have hne : streamId ≠ x.1 := fun heq => h.1 (heq ▸ mem_map_of_mem hmem)
      rw [lookup_cons, beq_false_of_ne hne]
      exact ih h.2 hmem

theorem acksFences_of_validate (hfences : (f.entries.map StreamFence.streamId).Nodup)
    (h : validateAckCursors f proof = .ok ()) : AcksFences f proof := by
  simp only [validateAckCursors, except_bind_eq_ok] at h
  obtain ⟨acks, hcollect, _, hvalid, h⟩ := h
  obtain ⟨heq, hnodup⟩ := collectAcks_ok hcollect
  rw [append_nil] at heq
  have hlength := (ite_error_eq_ok.1 h).1
  have hnodup := hnodup nodup_nil
  have hlookup := validateAcks_ok hvalid
  have hids : acks.map Prod.fst = (proof.ackCursors.map StreamAck.streamId).reverse := by
    rw [heq, map_reverse, map_map]
    rfl
  refine ⟨?_, fun fence hfence ack hack hid => ?_⟩
  · -- as many cursors as fences, and every fenced stream among them
    have hsubset : f.entries.map StreamFence.streamId ⊆
        proof.ackCursors.map StreamAck.streamId := by
      intro x hx
      obtain ⟨fence, hfence, rfl⟩ := mem_map.1 hx
      have hsome : (acks.lookup fence.streamId).isSome := by rw [hlookup fence hfence]; rfl
      obtain ⟨x, hx, hid⟩ := lookup_isSome_iff.1 hsome
      rw [← mem_reverse, ← hids, eq_of_beq hid]
      exact mem_map_of_mem hx
    refine ((subperm_of_subset hfences hsubset).perm_of_length_le ?_).symm
    rw [length_map, length_map]
    rw [not_not, heq, length_reverse, length_map] at hlength
    exact le_of_eq hlength
  · have hmem : (ack.streamId, ack.acknowledged) ∈ acks := by
      rw [heq, mem_reverse]
      exact mem_map_of_mem hack
    have hfound := lookup_eq_of_mem hnodup hmem
    rw [hid, hlookup fence hfence] at hfound
    exact (Option.some.inj hfound).symm

/-! ## Filing evidence -/

section

variable [Sha256] {s t : RotationState} {a b : AttemptState} {now : Nat} {p q : RotationPhase}

/-- What one move may file in the attempt `a`, in phase `p`. -/
inductive Files (config : RotationConfig) (p : RotationPhase) (a : AttemptState) :
    RotationPhase → AttemptState → Prop
  | nothing {q : RotationPhase} {b : AttemptState} (hroster : b.roster = a.roster)
      (hfrozen : b.frozen = a.frozen) (hdrained : b.drained = a.drained)
      (hsent : b.commitSent = a.commitSent)
      (hphase : q = p ∨ q = .aborting ∨ q = .recovering ∨ p = .committing ∧ q = .retiring) :
      Files config p a q b
  | roster {roster : StreamRoster} (hphase : p = .preparing)
      (hroster : validateRoster roster config.maxRosterEntries = .ok ()) :
      Files config p a .quiescing { a with roster := some roster }
  | fence {roster : StreamRoster} {f : FenceSnapshot} {d : Direction} (hphase : p = .quiescing)
      (hroster : a.roster = some roster) (hf : FenceOf roster d f)
      (hnone : a.frozen.get d = none) :
      Files config p a (if (a.frozen.set d (some f)).full then .draining else p)
        { a with frozen := a.frozen.set d (some f) }
  | proof {roster : StreamRoster} {f : FenceSnapshot} {d : Direction} {proof : DrainProof}
      (hphase : p = .draining) (hroster : a.roster = some roster)
      (hf : a.frozen.get d = some f) (hproof : ProofOf roster d f proof)
      (hnone : a.drained.get d = none) :
      Files config p a (if (a.drained.set d (some proof)).full then .committing else p)
        { a with drained := a.drained.set d (some proof) }
  | commit (hphase : p = .committing) (hfull : a.drained.full = true) :
      Files config p a p { a with commitSent := true }

/-- Every move that begins nothing files something in the attempt, or ends it. -/
theorem Move.files (h : Move now s none t) (hb : t.attempt = some b) :
    ∃ a, s.attempt = some a ∧ Files s.config s.phase a t.phase b := by
  cases h with
  | stay | waste | forced ha => exact ⟨b, hb, .nothing rfl rfl rfl rfl (.inl rfl)⟩
  | close | exhaust | takeOver | aborted => exact nomatch hb
  | @expire a ha =>
    rw [recovering_of_attempt ha] at hb ⊢
    cases hb
    exact ⟨a, ha, .nothing rfl rfl rfl rfl (.inr (.inr (.inl rfl)))⟩
  | lose reason =>
    cases ha : s.attempt with
    | none =>
      rw [recovering_of_none ha] at hb
      exact nomatch ha.symm.trans hb
    | some a =>
      rw [recovering_of_attempt ha] at hb ⊢
      cases hb
      exact ⟨a, rfl, .nothing rfl rfl rfl rfl (.inr (.inr (.inl rfl)))⟩
  | expireHandshake ha =>
    exact ⟨b, hb, .nothing rfl rfl rfl rfl (.inr (.inl rfl))⟩
  | @quiesce a roster ha hphase _ hroster =>
    cases hb
    exact ⟨a, ha, .roster hphase hroster⟩
  | @freeze a roster f d ha hphase _ hroster hf hnone =>
    cases hb
    exact ⟨a, ha, .fence hphase hroster hf hnone⟩
  | @drain a roster f d proof ha hphase _ hroster hf hproof hnone =>
    cases hb
    exact ⟨a, ha, .proof hphase hroster hf hproof hnone⟩
  | commit h =>
    obtain ⟨hphase, a, ha, -, -, hfull, rfl⟩ := h
    cases hb
    exact ⟨a, ha, .commit hphase hfull⟩
  | @accept a ha hphase =>
    cases hb
    exact ⟨a, ha, .nothing rfl rfl rfl rfl (.inr (.inr (.inr ⟨hphase, rfl⟩)))⟩
  | @abort a _ ha =>
    cases hb
    exact ⟨a, ha, .nothing rfl rfl rfl rfl (.inr (.inl rfl))⟩
  | @ready a ha | @retire a ha | @oldClosing a _ _ ha | @candidateClosing a _ ha
  | @candidateLost a _ ha =>
    cases hb
    exact ⟨a, ha, .nothing rfl rfl rfl rfl (.inl rfl)⟩
  | @candidateClosingLate a _ ha | @abortedLate a _ ha =>
    cases hb
    exact ⟨a, ha, .nothing rfl rfl rfl rfl (.inr (.inr (.inl rfl)))⟩
  | release =>
    obtain ⟨a, ha, hab⟩ := Option.map_eq_some_iff.1 hb
    refine ⟨a, ha, ?_⟩
    split at hab
    · cases hab
      exact .nothing rfl rfl rfl rfl (.inl rfl)
    · cases hab
      exact .nothing rfl rfl rfl rfl (.inl rfl)
  | reserve h =>
    obtain ⟨-, -, -, a, ha, -, -, rfl⟩ := h
    cases hb
    exact ⟨a, ha, .nothing rfl rfl rfl rfl (.inl rfl)⟩
  | reconcile h =>
    obtain ⟨-, -, -, -, -, rfl⟩ := h
    cases hb

/-! ## The evidence agrees -/

/-- What an attempt in phase `p` has on file. -/
structure AttemptState.Evident (a : AttemptState) (p : RotationPhase) : Prop where
  roster : ∀ roster, a.roster = some roster → roster.streamIds.Nodup
  fence : ∀ d f, a.frozen.get d = some f → ∃ roster, a.roster = some roster ∧ FenceOf roster d f
  proof : ∀ d proof, a.drained.get d = some proof →
    ∃ roster f, a.roster = some roster ∧ a.frozen.get d = some f ∧ ProofOf roster d f proof
  early : p = .preparing → a.roster = none
  full : p = .committing ∨ p = .retiring ∨ a.commitSent = true → a.drained.full = true

/-- What was on file stays on file. -/
structure AttemptState.Kept (a b : AttemptState) : Prop where
  roster : ∀ roster, a.roster = some roster → b.roster = some roster
  frozen : ∀ d f, a.frozen.get d = some f → b.frozen.get d = some f
  drained : ∀ d proof, a.drained.get d = some proof → b.drained.get d = some proof
  sent : a.commitSent = true → b.commitSent = true

omit [Sha256] in
theorem AttemptState.Kept.refl (a : AttemptState) : a.Kept a :=
  ⟨fun _ h => h, fun _ _ h => h, fun _ _ h => h, id⟩

omit [Sha256] in
theorem AttemptState.Kept.trans {c : AttemptState} (hab : a.Kept b)
    (hbc : b.Kept c) : a.Kept c where
  roster r h := hbc.roster r (hab.roster r h)
  frozen d f h := hbc.frozen d f (hab.frozen d f h)
  drained d p h := hbc.drained d p (hab.drained d p h)
  sent h := hbc.sent (hab.sent h)

variable {α : Type} {d d' : Direction} {config : RotationConfig} {begun : Option Begun}

omit [Sha256] in
theorem get_set_of_none {r : PerDirection (Option α)} {x y : α} (hnone : r.get d = none)
    (h : r.get d' = some y) : (r.set d (some x)).get d' = some y := by
  have hne : d' ≠ d := by
    intro heq
    rw [heq] at h
    exact nomatch hnone.symm.trans h
  rw [PerDirection.get_set_ne r hne]
  exact h

omit [Sha256] in
theorem get_of_set {r : PerDirection (Option α)} {x y : α}
    (h : (r.set d (some x)).get d' = some y) : (d' = d ∧ y = x) ∨ r.get d' = some y := by
  by_cases heq : d' = d
  · subst heq
    rw [PerDirection.get_set_self] at h
    exact .inl ⟨rfl, (Option.some.inj h).symm⟩
  · rw [PerDirection.get_set_ne r heq] at h
    exact .inr h

theorem Files.kept (h : a.Evident p) (hfiles : Files config p a q b) : a.Kept b := by
  cases hfiles with
  | nothing hroster hfrozen hdrained hsent =>
    refine ⟨fun r hr => ?_, fun d f hf => ?_, fun d x hx => ?_, fun hs => ?_⟩
    · rw [hroster, hr]
    · rw [hfrozen, hf]
    · rw [hdrained, hx]
    · rw [hsent, hs]
  | roster hphase =>
    exact ⟨fun _ hr => (nomatch (h.early hphase).symm.trans hr), fun _ _ hf => hf,
      fun _ _ hx => hx, id⟩
  | fence _ _ _ hnone =>
    exact ⟨fun _ hr => hr, fun _ _ hf => get_set_of_none hnone hf, fun _ _ hx => hx, id⟩
  | proof _ _ _ _ hnone =>
    exact ⟨fun _ hr => hr, fun _ _ hf => hf, fun _ _ hx => get_set_of_none hnone hx, id⟩
  | commit => exact ⟨fun _ hr => hr, fun _ _ hf => hf, fun _ _ hx => hx, fun _ => rfl⟩

theorem Files.evident (h : a.Evident p) (hfiles : Files config p a q b) : b.Evident q := by
  cases hfiles with
  | nothing hroster hfrozen hdrained hsent hphase =>
    refine ⟨?_, ?_, ?_, fun hq => ?_, fun hq => ?_⟩
    · rw [hroster]
      exact h.roster
    · rw [hfrozen, hroster]
      exact h.fence
    · rw [hdrained, hfrozen, hroster]
      exact h.proof
    · rw [hroster]
      subst hq
      rcases hphase with hphase | hphase | hphase | hphase
      · exact h.early hphase.symm
      · cases hphase
      · cases hphase
      · cases hphase.2
    · rw [hdrained]
      rw [hsent] at hq
      refine h.full ?_
      rcases hphase with rfl | rfl | rfl | ⟨rfl, -⟩
      · exact hq
      · exact .inr (.inr (hq.resolve_left nofun |>.resolve_left nofun))
      · exact .inr (.inr (hq.resolve_left nofun |>.resolve_left nofun))
      · exact .inl rfl
  | roster hphase hroster =>
    refine ⟨?_, fun d f hf => ?_, fun d x hx => ?_, nofun, fun hq => ?_⟩
    · rintro r ⟨⟩
      exact nodup_of_validateRoster hroster
    · -- nothing is fenced before the roster is fixed
      obtain ⟨r, hr, -⟩ := h.fence d f hf
      exact nomatch (h.early hphase).symm.trans hr
    · obtain ⟨r, _, hr, -⟩ := h.proof d x hx
      exact nomatch (h.early hphase).symm.trans hr
    · exact h.full (.inr (.inr (hq.resolve_left nofun |>.resolve_left nofun)))
  | @fence roster f d hphase hroster hf hnone =>
    subst hphase
    refine ⟨h.roster, fun d' f' hf' => ?_, fun d' x hx => ?_, fun hq => ?_, fun hq => ?_⟩
    · rcases get_of_set hf' with ⟨rfl, rfl⟩ | hold
      · exact ⟨roster, hroster, hf⟩
      · exact h.fence d' f' hold
    · obtain ⟨r, f', hr, hf', hproof⟩ := h.proof d' x hx
      exact ⟨r, f', hr, get_set_of_none hnone hf', hproof⟩
    · split at hq <;> cases hq
    · refine h.full (.inr (.inr ?_))
      split at hq
      · exact hq.resolve_left nofun |>.resolve_left nofun
      · exact hq.resolve_left nofun |>.resolve_left nofun
  | @proof roster f d x hphase hroster hf hproof hnone =>
    subst hphase
    refine ⟨h.roster, h.fence, fun d' x' hx' => ?_, fun hq => ?_, fun hq => ?_⟩
    · rcases get_of_set hx' with ⟨rfl, rfl⟩ | hold
      · exact ⟨roster, f, hroster, hf, hproof⟩
      · exact h.proof d' x' hold
    · split at hq <;> cases hq
    · -- full after the proof, or full before it
      by_cases hfull : (a.drained.set d (some x)).full = true
      · exact hfull
      · rw [if_neg hfull] at hq
        have hbefore := h.full (.inr (.inr (hq.resolve_left nofun |>.resolve_left nofun)))
        cases d <;> simp_all [PerDirection.full, PerDirection.get, PerDirection.set]
  | commit hphase hfull =>
    exact ⟨h.roster, h.fence, h.proof, h.early, fun _ => hfull⟩

def RotationState.Evident (s : RotationState) : Prop := ∀ a, s.attempt = some a → a.Evident s.phase

theorem Outline.evident_of_begun {x : Begun} (h : Outline now s (some x) t) : t.Evident := by
  intro c hc
  cases h with
  | start h =>
    obtain ⟨-, -, -, -, a, hnew, rfl⟩ := h
    cases hc
    rw [hnew.eq]
    refine ⟨nofun, fun d _ hf => ?_, fun d _ hx => ?_, fun _ => rfl, fun hq => ?_⟩
    · cases d <;> cases hf
    · cases d <;> cases hx
    · rcases hq with hq | hq | hq <;> cases hq
  | recover h =>
    obtain ⟨-, -, hroster, -, -, -, -, -, a, hnew, rfl⟩ := h
    cases hc
    rw [hnew.eq]
    refine ⟨?_, fun d _ hf => ?_, fun d _ hx => ?_, nofun, fun hq => ?_⟩
    · rintro r ⟨⟩
      exact nodup_of_validateRoster hroster
    · cases d <;> cases hf
    · cases d <;> cases hx
    · rcases hq with hq | hq | hq <;> cases hq

theorem RotationState.Evident.move (h : s.Evident) (hmove : Move now s begun t) : t.Evident := by
  cases begun with
  | some x => exact hmove.outline.evident_of_begun
  | none =>
    intro b hb
    obtain ⟨a, ha, hfiles⟩ := hmove.files hb
    exact hfiles.evident (h a ha)

theorem evident_invariant : Invariant fun s => s.Accounted ∧ s.Evident where
  observed now h := ⟨h.1.observed now, h.2⟩
  move h hmove := ⟨h.1.outline hmove.outline, h.2.move hmove⟩

theorem kept_invariant (a : AttemptState) :
    Invariant fun s => s.Accounted ∧ s.Evident ∧ Since AttemptState.Kept a s where
  observed now h := ⟨h.1.observed now, h.2.1, h.2.2.claimed, h.2.2.related⟩
  move h hmove := by
    refine ⟨h.1.outline hmove.outline, h.2.1.move hmove, h.2.2.outline h.1 hmove.outline ?_⟩
    rintro rfl b c hb hc - hkept
    obtain ⟨b', hb', hfiles⟩ := hmove.files hc
    cases hb.symm.trans hb'
    exact hkept.trans (hfiles.kept (h.2.1 b hb))

theorem RotationState.Reachable.evident (h : Reachable s) : s.Evident := by
  refine (evident_invariant.reachable (fun ho => ⟨ho.accounted, fun _ ha => ?_⟩) h).2
  exact nomatch ho.fresh.attempt.symm.trans ha

theorem RotationState.Reachable.kept (h : Reachable s) (ha : s.attempt = some a) (ops : List Op)
    (hb : (s.run ops).attempt = some b) (hid : b.identity = a.identity) : a.Kept b :=
  ((kept_invariant a).run ⟨h.accounted, h.evident, .refl h.accounted ha (.refl a)⟩
    ops).2.2.related b hb hid

end

/-! ## What the evidence is worth -/

def Direction.sender : Direction → Endpoint
  | .relayToConnector => .relay
  | .connectorToRelay => .connector

/-- The stream of the link has been drained through a direction: its sender has emitted
what the fence says, its receiver has received what the cursor says and emits nothing on
it. -/
structure Link.Fenced (l : Link) (streamId : UInt64) (d : Direction) (f : FenceSnapshot)
    (proof : DrainProof) : Prop where
  fence : ∀ fence ∈ f.entries, fence.streamId = streamId →
    (l.dir d.sender d).lastEmitted = fence.lastEmitted
  cursor : ∀ ack ∈ proof.ackCursors, ack.streamId = streamId →
    (l.dir d.sender.peer d).recvContiguous = ack.acknowledged
  silent : (l.dir d.sender.peer d).lastEmitted = 0

/-- Everything a direction carried has arrived. -/
theorem Link.Fenced.arrived {d : Direction} (h : l.Fenced streamId d f proof)
    (hacks : AcksFences f proof) (hmem : streamId ∈ f.entries.map StreamFence.streamId) :
    (l.dir d.sender.peer d).recvContiguous = (l.dir d.sender d).lastEmitted := by
  have hack := hacks.streams.mem_iff.2 hmem
  obtain ⟨fence, hfence, hid⟩ := mem_map.1 hmem
  obtain ⟨ack, hack, hackId⟩ := mem_map.1 hack
  rw [h.fence fence hfence hid, h.cursor ack hack hackId]
  exact hacks.cursor fence hfence ack hack (hackId.trans hid.symm)

/-- Two endpoints whose stream has been drained have nothing to replay. -/
theorem Link.Sound.reconcile_drained [Sha256] (h : l.Sound) (hg : l.Granted)
    (harrived : ∀ d, (l.dir d.sender.peer d).recvContiguous = (l.dir d.sender d).lastEmitted)
    (hsilent : ∀ d : Direction, (l.dir d.sender.peer d).lastEmitted = 0) (e : Endpoint) :
    ∃ plan, (l.state e).reconcile (l.state e.peer).snapshot = .ok plan ∧ plan.isEmpty = true := by
  obtain ⟨plan, hplan, hparts⟩ := h.reconcile_eq hg e
  have hempty : ∀ d, plan.replay.get d = [] ∧ plan.peerMissing.get d = none := by
    intro d
    rw [(hparts d).1, (hparts d).2]
    have hlen : (l.dir e d).lastEmitted = (l.log e d).length := (h.sender e d).lastEmitted
    have hremote : (l.dir e.peer d).snapshot.lastEmitted = (l.dir e.peer d).lastEmitted := rfl
    have harrived := harrived d
    have hsilent := hsilent d
    rw [Link.missingFrom, hremote]
    rcases Endpoint.eq_or_eq_peer d.sender e with rfl | rfl
    · exact ⟨drop_eq_nil_of_le (by omega), if_neg (by omega)⟩
    · rw [Endpoint.peer_peer]
      exact ⟨drop_eq_nil_of_le (by omega), if_neg (by omega)⟩
  refine ⟨plan, hplan, ?_⟩
  have hrelay := hempty .relayToConnector
  have hconnector := hempty .connectorToRelay
  unfold RecoveryPlan.isEmpty
  simp only [PerDirection.get] at hrelay hconnector
  rw [hrelay.1, hrelay.2, hconnector.1, hconnector.2]
  rfl

/-- A commit for the attempt `identity` succeeded along the run. -/
def CommittedIn [Sha256] (s : RotationState) (ops : List Op) (identity : RotationAttemptIdentity) :
    Prop :=
  ∃ before later now t, ops = before ++ .commit identity now :: later ∧
    (commit identity now).run (s.run before) = .ok () t

section

variable [Sha256] {s : RotationState} {a : AttemptState}

/-- A commit that succeeded is on file for as long as its attempt lives. -/
theorem commitSent_of_committedIn (h : Opened s) {ops : List Op} (ha : (s.run ops).attempt = some a)
    (hcommitted : CommittedIn s ops a.identity) : a.commitSent = true := by
  obtain ⟨before, later, now, t, rfl, hrun⟩ := hcommitted
  obtain ⟨-, c, -, hid, -, -, rfl⟩ := (wp_of_ok (commit_observes a.identity _) hrun).2
  have hreach : Reachable (s.run before) := ⟨s, before, h, rfl⟩
  have hnext : Op.next (.commit a.identity now) (s.run before) =
      ((s.run before).observed now).withAttempt { c with commitSent := true } := by
    show stateOf (((fun _ => Answer.done) <$> commit a.identity now).run (s.run before)) = _
    rw [run_map, hrun]
    rfl
  have hrest : s.run (before ++ .commit a.identity now :: later) =
      (Op.next (.commit a.identity now) (s.run before)).run later := Trace.run_append s before _
  rw [hrest] at ha
  have hsent : Reachable (Op.next (.commit a.identity now) (s.run before)) :=
    hreach.run [.commit a.identity now]
  have hattempt : (Op.next (.commit a.identity now) (s.run before)).attempt =
      some { c with commitSent := true } := by rw [hnext]; rfl
  exact (hsent.kept hattempt later ha hid.symm).sent rfl

omit [Sha256] in
theorem exists_of_full {α : Type} {r : PerDirection (Option α)} (h : r.full = true)
    (d : Direction) : ∃ x, r.get d = some x := by
  simp only [PerDirection.full, Bool.and_eq_true, Option.isSome_iff_exists] at h
  cases d with
  | relayToConnector => exact h.1
  | connectorToRelay => exact h.2

omit [Sha256] in
theorem eq_of_kept {α : Type} {r r' : PerDirection (Option α)}
    (h : ∀ d x, r.get d = some x → r'.get d = some x) (hfull : ∀ d, ∃ x, r.get d = some x) :
    r' = r := by
  have hget (d : Direction) : r'.get d = r.get d := by
    obtain ⟨x, hx⟩ := hfull d
    rw [h d x hx, hx]
  obtain ⟨x', y'⟩ := r'
  have hrelay := hget .relayToConnector
  have hconnector := hget .connectorToRelay
  simp only [PerDirection.get] at hrelay hconnector
  rw [hrelay, hconnector]

end

/-- A machine that is committing or retiring, or whose attempt's commit has ever succeeded, has
an attempt that holds a roster, for each direction a fence snapshot of exactly the streams of
the roster, and for each direction a drain proof with the digest of that snapshot and with each
stream's fence as its cursor. None of this changes while the attempt lives. A stream of the
roster whose endpoints stand where the fences and the cursors say needs no replay, if their
credits are compatible and each direction's frames come from its sender. -/
theorem commit_rests_on_evidence [Sha256] {s : RotationState} (h : Opened s) (ops : List Op)
    (hcommit : (s.run ops).phase = .committing ∨ (s.run ops).phase = .retiring ∨
      ∃ a, (s.run ops).attempt = some a ∧ CommittedIn s ops a.identity) :
    ∃ (a : AttemptState) (roster : StreamRoster) (f : Direction → FenceSnapshot)
        (proof : Direction → DrainProof),
      (s.run ops).attempt = some a ∧ a.roster = some roster ∧
      (∀ d, a.frozen.get d = some (f d) ∧
        (f d).entries.map StreamFence.streamId = roster.streamIds ∧
        (∀ fence ∈ (f d).entries, fence.direction = d)) ∧
      (∀ d, a.drained.get d = some (proof d) ∧ (proof d).direction = d ∧
        (f d).digest = .ok (proof d).fenceDigest ∧
        ((proof d).ackCursors.map StreamAck.streamId).Perm roster.streamIds ∧
        (∀ fence ∈ (f d).entries, ∀ ack ∈ (proof d).ackCursors, ack.streamId = fence.streamId →
          ack.acknowledged = fence.lastEmitted)) ∧
      (∀ later b, (s.run (ops ++ later)).attempt = some b → b.identity = a.identity →
        b.roster = a.roster ∧ b.frozen = a.frozen ∧ b.drained = a.drained) ∧
      (∀ (config : LinkConfig) (l : Link) (actions : List Action), config.Compatible →
        Link.connect config = .ok l → config.streamId ∈ roster.streamIds →
        (∀ d, (l.run actions).Fenced config.streamId d (f d) (proof d)) →
          ∀ e, ∃ plan, ((l.run actions).state e).reconcile
            ((l.run actions).state e.peer).snapshot = .ok plan ∧ plan.isEmpty = true) := by
  have hreach : Reachable (s.run ops) := ⟨s, ops, h, rfl⟩
  obtain ⟨a, ha, hcommit⟩ : ∃ a, (s.run ops).attempt = some a ∧
      ((s.run ops).phase = .committing ∨ (s.run ops).phase = .retiring ∨ a.commitSent = true) := by
    rcases hcommit with hphase | hphase | ⟨a, ha, hcommitted⟩
    · obtain ⟨a, ha⟩ := hreach.accounted.attempt_of_phase (by simp [hphase]) (by simp [hphase])
        (by simp [hphase])
      exact ⟨a, ha, .inl hphase⟩
    · obtain ⟨a, ha⟩ := hreach.accounted.attempt_of_phase (by simp [hphase]) (by simp [hphase])
        (by simp [hphase])
      exact ⟨a, ha, .inr (.inl hphase)⟩
    · exact ⟨a, ha, .inr (.inr (commitSent_of_committedIn h ha hcommitted))⟩
  have hevident := hreach.evident a ha
  have hfull : a.drained.full = true := hevident.full hcommit
  have hparts (d : Direction) : ∃ proof f, a.drained.get d = some proof ∧
      a.frozen.get d = some f ∧ ∃ roster, a.roster = some roster ∧ FenceOf roster d f ∧
        ProofOf roster d f proof := by
    obtain ⟨proof, hproof⟩ := exists_of_full hfull d
    obtain ⟨roster, f, hroster, hf, hproofOf⟩ := hevident.proof d proof hproof
    obtain ⟨roster', hroster', hfence⟩ := hevident.fence d f hf
    cases hroster.symm.trans hroster'
    exact ⟨proof, f, hproof, hf, roster, hroster, hfence, hproofOf⟩
  choose proof f hproof hf hrest using hparts
  obtain ⟨roster, hroster, -⟩ := hrest .relayToConnector
  have hagree (d : Direction) : FenceOf roster d (f d) ∧ ProofOf roster d (f d) (proof d) := by
    obtain ⟨roster', hroster', hparts⟩ := hrest d
    cases hroster.symm.trans hroster'
    exact hparts
  have hacks (d : Direction) : AcksFences (f d) (proof d) := by
    refine acksFences_of_validate ?_ (hagree d).2.acks
    rw [(hagree d).1.streamIds]
    exact hevident.roster roster hroster
  refine ⟨a, roster, f, proof, ha, hroster,
    fun d => ⟨hf d, (hagree d).1.streamIds, (hagree d).1.direction⟩,
    fun d => ⟨hproof d, (hagree d).2.direction, (hagree d).2.digest, ?_, (hacks d).cursor⟩,
    fun later b hb hid => ?_, fun config l actions hconfig hopen hmem hfenced e => ?_⟩
  · rw [← (hagree d).1.streamIds]
    exact (hacks d).streams
  · have hlater : s.run (ops ++ later) = (s.run ops).run later := Trace.run_append s ops later
    rw [hlater] at hb
    have hkept := hreach.kept ha later hb hid
    refine ⟨?_, eq_of_kept hkept.frozen fun d => ⟨f d, hf d⟩,
      eq_of_kept hkept.drained fun d => ⟨proof d, hproof d⟩⟩
    rw [hkept.roster roster hroster, hroster]
  · have hsound := (Link.Sound.connect hopen).run actions
    have hgranted := (Link.Granted.connect hopen hconfig).run (.connect hopen) actions
    refine hsound.reconcile_drained hgranted (fun d => (hfenced d).arrived (hacks d) ?_)
      (fun d => (hfenced d).silent) e
    rw [(hagree d).1.streamIds]
    exact hmem

set_option maxRecDepth 4000 in
theorem commit_rests_on_evidence_sent :
    ∃ a, (demoRun (demoDrain ++ [.commit demoIdentity 7])).attempt = some a ∧
      ∃ (roster : StreamRoster) (f : Direction → FenceSnapshot), a.roster = some roster ∧
        ∀ d, a.frozen.get d = some (f d) ∧
          (f d).entries.map StreamFence.streamId = roster.streamIds := by
  have hattempt : (demoRun (demoDrain ++ [.commit demoIdentity 7])).attempt.map
      AttemptState.identity = some demoIdentity := by decide
  obtain ⟨a, ha, hid⟩ := Option.map_eq_some_iff.1 hattempt
  have hrun : ∃ t, (commit demoIdentity 7).run (demoRun demoDrain) = .ok () t := ⟨_, rfl⟩
  obtain ⟨t, hrun⟩ := hrun
  have hcommitted : @CommittedIn zeroDigest demoMachine (demoDrain ++ [.commit demoIdentity 7])
      a.identity := by
    rw [hid]
    exact ⟨demoDrain, [], 7, t, rfl, hrun⟩
  obtain ⟨b, roster, f, proof, hb, hroster, hf, -⟩ := @commit_rests_on_evidence zeroDigest _
    demoMachine_opened _ (.inr (.inr ⟨a, ha, hcommitted⟩))
  exact ⟨b, hb, roster, f, hroster, fun d => ⟨(hf d).1, (hf d).2.1⟩⟩

set_option maxRecDepth 4000 in
/-- An attempt is committing before any commit has succeeded. -/
theorem committing_without_commit :
    Opened demoMachine ∧ (demoRun demoDrain).phase = .committing ∧
      ∃ a, (demoRun demoDrain).attempt = some a ∧
        ¬ @CommittedIn zeroDigest demoMachine demoDrain a.identity := by
  have hattempt : (demoRun demoDrain).attempt.map AttemptState.identity = some demoIdentity := by
    decide
  obtain ⟨a, ha, hid⟩ := Option.map_eq_some_iff.1 hattempt
  refine ⟨demoMachine_opened, by decide, a, ha, ?_⟩
  rintro ⟨before, later, now, t, hops, -⟩
  have hmem : Op.commit a.identity now ∈ demoDrain := by
    rw [hops]
    exact mem_append_right _ mem_cons_self
  simp [demoDrain] at hmem

end AgentUplink
