import AgentUplink.Sequence.Calls

/-!
# What is sent again

Replay returns frames the outbox retains, and nothing else; asked for everything
after a cursor that is not below the acknowledged one, it returns exactly that
part of the script. Reconciliation replays through the same operation.
-/

namespace AgentUplink

open Machine Fallible Std DirectionState List KeyedMap

namespace DirectionState

variable {through expected : Nat} {frames replay : List Frame} {s : DirectionState}

theorem mem_of_retainedReplayLoop {entries : List (Nat × Frame)}
    (h : retainedReplayLoop through expected entries replay = .ok frames) :
    ∀ f ∈ frames, f ∈ replay ∨ f ∈ entries.map Prod.snd := by
  induction entries generalizing expected replay with
  | nil => cases h
  | cons entry entries ih =>
    obtain ⟨sequence, g⟩ := entry
    have hsplit : ∀ f, f ∈ replay ++ [g] → f ∈ replay ∨ f ∈
    ((sequence, g) :: entries).map Prod.snd := by
      exact forall_mem_append.2 ⟨fun _ => .inl, forall_mem_singleton.2 (.inr mem_cons_self)⟩
    unfold retainedReplayLoop at h
    split at h
    · cases h
    · split at h
      · cases h
        exact hsplit
      · cases hadd : checkedAdd expected 1 with
        | none =>
          rw [hadd] at h
          cases h
        | some next =>
          rw [hadd] at h
          intro f hf
          rcases ih h f hf with hf | hf
          · exact hsplit f hf
          · exact .inr (mem_cons_of_mem g hf)

theorem mem_of_retainedReplay {first : Nat} (h : s.retainedReplay first through = .ok frames) :
    ∀ f ∈ frames, ∃ k : Nat, s.replay[k]? = some f := by
  unfold retainedReplay at h
  split at h
  · cases h
  split at h
  · cases h
  cases hadd : checkedAdd s.peerAcked 1 with
  | none =>
    rw [hadd] at h
    cases h
    simp
  | some unacked =>
    simp only [hadd] at h
    split at h
    · cases h
      simp
    · intro f hf
      rcases mem_of_retainedReplayLoop h f hf with hf | hf
      · cases hf
      · obtain ⟨⟨k, g⟩, hmem, rfl⟩ := mem_map.1 hf
        have hmem := (mem_filter.1 hmem).1
        exact ⟨k, ExtTreeMap.mem_toList_iff_getElem?_eq_some.1 hmem⟩

theorem retainedReplayLoop_numbered (hne : frames ≠ [])
    (hthrough : through + 1 = expected + frames.length) (hlt : through < wordBound) :
    retainedReplayLoop through expected (numbered expected frames) replay =
      .ok (replay ++ frames) := by
  induction frames generalizing expected replay with
  | nil => exact absurd rfl hne
  | cons f frames ih =>
    unfold numbered retainedReplayLoop
    rw [if_neg (not_not.2 rfl)]
    rw [length_cons] at hthrough
    cases frames with
    | nil =>
      rw [if_pos (by simpa using hthrough.symm)]
    | cons g frames =>
      rw [length_cons] at hthrough
      rw [if_neg (by omega), checkedAdd_of_lt (by omega)]
      have hrest : retainedReplayLoop through (expected + 1)
          (numbered (expected + 1) (g :: frames)) (replay ++ [f]) =
          .ok (replay ++ [f] ++ g :: frames) :=
        ih (cons_ne_nil g frames) (by rw [length_cons]; omega)
      rw [append_assoc] at hrest
      exact hrest

/-- Everything after a cursor the peer has not yet acknowledged past, and below the last
emitted frame, is retained and comes back in order. -/
theorem retainedReplay_eq_drop {log : List Frame} (h : s.outbox.Tracks log) {cursor : Nat}
    (hacked : s.peerAcked ≤ cursor) (hlt : cursor < s.lastEmitted) :
    s.retainedReplay (cursor + 1) s.lastEmitted = .ok (log.drop cursor) := by
  have hlen : s.lastEmitted = log.length := h.lastEmitted
  have hword := h.script.length_lt
  have hreplay : ∀ k, s.replay[k]? = if s.peerAcked < k then log[k - 1]? else none := h.replay
  unfold retainedReplay
  rw [if_neg (by omega), if_neg (by omega), checkedAdd_of_lt (by omega)]
  simp only
  have hmax : max (cursor + 1) (s.peerAcked + 1) = cursor + 1 := by omega
  rw [hmax, if_neg (by omega)]
  have hentries : (s.replay.toList.filter fun entry =>
      decide (cursor + 1 ≤ entry.1 ∧ entry.1 ≤ s.lastEmitted)) =
      numbered (cursor + 1) (log.drop cursor) := by
    apply eq_numbered ((toList_pairwise s.replay).filter _)
    intro k v
    rw [mem_filter, ExtTreeMap.mem_toList_iff_getElem?_eq_some, hreplay, decide_eq_true_eq]
    constructor
    · rintro ⟨hv, hk, _⟩
      rw [if_pos (by omega)] at hv
      exact ⟨by omega, hv⟩
    · rintro ⟨hk, hv⟩
      have := (List.getElem?_eq_some_iff.1 hv).1
      rw [if_pos (by omega)]
      exact ⟨hv, by omega, by omega⟩
  rw [hentries, retainedReplayLoop_numbered, nil_append]
  · intro hnil
    have := congrArg List.length hnil
    rw [length_drop, length_nil] at this
    omega
  · rw [length_drop]
    omega
  · omega

end DirectionState

namespace StreamState

variable {here : DirectionState} {remote : DirectionSnapshot} {d : Direction} {replay : List Frame}

theorem recv_le_of_validateRecoveryPair (h : validateRecoveryPair d here remote = .ok ()) :
    remote.recvContiguous ≤ here.lastEmitted := by
  rw [validateRecoveryPair, except_bind_eq_ok] at h
  obtain ⟨_, _, h⟩ := h
  by_contra hgt
  rw [if_pos (Nat.lt_of_not_le hgt)] at h
  cases h

theorem mem_of_replayFor (h : replayFor here remote = .ok replay) :
    ∀ f ∈ replay, ∃ k : Nat, here.replay[k]? = some f := by
  unfold replayFor at h
  split at h
  · split at h
    · cases h
    · exact mem_of_retainedReplay h
  · cases h
    simp

theorem reconcileDirection_ok {missing : Option SequenceRange}
    (h : reconcileDirection d here remote = .ok (replay, missing)) :
    remote.recvContiguous ≤ here.lastEmitted ∧
      ∀ f ∈ replay, ∃ k : Nat, here.replay[k]? = some f := by
  simp only [reconcileDirection, except_bind_eq_ok] at h
  obtain ⟨_, hpair, _, hreplay, _, _, h⟩ := h
  cases h
  exact ⟨recv_le_of_validateRecoveryPair hpair, mem_of_replayFor hreplay⟩

theorem reconcile_ok {s : StreamState} {peer : StreamSnapshot} {plan : RecoveryPlan}
    (h : s.reconcile peer = .ok plan) (d : Direction) :
    ∃ missing, reconcileDirection d (s.direction d) (peer.direction d) =
      .ok (plan.replay.get d, missing) := by
  unfold reconcile at h
  split at h
  · cases h
  simp only [except_bind_eq_ok] at h
  obtain ⟨relay, hrelay, connector, hconnector, h⟩ := h
  cases h
  cases d with
  | relayToConnector => exact ⟨relay.2, hrelay⟩
  | connectorToRelay => exact ⟨connector.2, hconnector⟩

/-- Both directions acknowledged up to the peer's receive cursors. -/
def acknowledged (s : StreamState) (peer : StreamSnapshot) : StreamState :=
  (s.setDirection .relayToConnector ((s.direction .relayToConnector).acked
    (peer.direction .relayToConnector).recvContiguous)).setDirection .connectorToRelay
      ((s.direction .connectorToRelay).acked (peer.direction .connectorToRelay).recvContiguous)

theorem direction_acknowledged (s : StreamState) (peer : StreamSnapshot) (d : Direction) :
    (s.acknowledged peer).direction d =
      (s.direction d).acked (peer.direction d).recvContiguous := by
  cases d <;> rfl

/-- Applying a reconciled snapshot cannot fail half way. -/
theorem reconcileAndApply_run (s : StreamState) (peer : StreamSnapshot) :
    (∃ e, (reconcileAndApply peer).run s = .error e s) ∨
      ∃ plan, s.reconcile peer = .ok plan ∧
        (reconcileAndApply peer).run s = .ok plan (s.acknowledged peer) := by
  unfold reconcileAndApply
  rw [run_bind_of_ok (get_ok.2 ⟨rfl, rfl⟩)]
  cases hplan : s.reconcile peer with
  | error e => exact .inl ⟨e, rfl⟩
  | ok plan =>
    refine .inr ⟨plan, rfl, ?_⟩
    have hle : ∀ d, (peer.direction d).recvContiguous ≤ (s.direction d).lastEmitted := by
      intro d
      obtain ⟨missing, hd⟩ := reconcile_ok hplan d
      exact (reconcileDirection_ok hd).1
    have happly : ∀ {t : StreamState} {d}, t.direction d = s.direction d →
        (onDirection d (DirectionState.applyAck (peer.direction d).recvContiguous)).run t =
          .ok () (t.setDirection d ((s.direction d).acked (peer.direction d).recvContiguous)) := by
      intro t d ht
      refine onDirection_ok.2 ⟨_, ?_, rfl⟩
      rw [ht]
      exact applyAck_ok.2 ⟨hle d, rfl⟩
    exact bind_ok.2 ⟨plan, s, check_ok.2 ⟨rfl, rfl⟩, bind_ok.2 ⟨(), _, happly rfl,
      bind_ok.2 ⟨(), _, happly (direction_setDirection_ne _ (by decide) _), rfl⟩⟩⟩

end StreamState

end AgentUplink
