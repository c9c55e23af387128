import AgentUplink.Sequence.Sound

/-!
# Every run of a link is sound

One lemma for each kind of call, then the step, the run, and the opened link they
start from.
-/

namespace AgentUplink

open Machine Fallible Std DirectionState StreamState List

namespace Link

variable [Sha256] {l : Link} {e : Endpoint} {d : Direction} {f : Frame}

variable {frames : List Frame} {t : DirectionState} {through first : Nat} {peer : StreamSnapshot}
  {plan : RecoveryPlan} {config : LinkConfig}

theorem Sound.inbox_same (h : l.Sound) (heq : t.inbox = (l.dir e d).inbox) :
    InboxStep (l.log e.peer d) (l.entered e d) (l.handed e d) (l.dir e d) t :=
  .of_inbox_eq (h.settled e d) (h.receiver e d) (h.handed e d) heq

omit [Sha256] in
theorem Carried.of_sameLogical {g : Frame} (h : l.Carried e d f) (hsame : g.SameLogical f) :
    l.Carried e d g where
  valid := hsame.validate_eq.trans h.valid
  stream := hsame.streamId_eq.trans h.stream
  ack_le := hsame.ack_eq ▸ h.ack_le
  window_le hk := by
    rw [hsame.window_eq]
    exact h.window_le (hsame.kind_eq ▸ hk)
  copy hk := by
    obtain ⟨x, hx, hfx⟩ := h.copy (hsame.kind_eq ▸ hk)
    rw [← hsame.sequence_eq] at hx
    exact ⟨x, hx, hsame.trans hfx⟩

/-! ## Sending -/

section

variable (h : l.Sound)
include h

theorem Sound.move (hsender : t.outbox.Tracks (l.log e d ++ frames))
    (hinbox : InboxStep (l.log e.peer d) (l.entered e d) (l.handed e d) (l.dir e d) t)
    (hacked : t.peerAcked = (l.dir e d).peerAcked) (hcredit : t.sendCredit = (l.dir e d).sendCredit)
    (hfresh : ∀ f ∈ frames, (l.moved e ((l.state e).setDirection d t) d frames).Carried e d f) :
    Advance l e ((l.state e).setDirection d t) d frames := by
  have hself := direction_setDirection_self (l.state e) d t
  have hother := direction_setDirection_ne (l.state e) (Direction.opposite_ne d) t
  refine
    { stream := rfl
      sender := ?_
      inbox := ?_
      acked := ?_
      credit := ?_
      fresh := hfresh } <;> intro d'
  all_goals rcases Direction.eq_or_eq_opposite d d' with rfl | rfl
  · rw [hself, extend_self]
    exact hsender
  · rw [hother, extend_other _ (fun hand => Direction.opposite_ne d hand.2)]
    exact h.sender e d.opposite
  · rw [hself]
    exact hinbox
  · rw [hother]
    exact h.inbox_same rfl
  · rw [hself, hacked]
    exact h.acked e d'
  · rw [hother]
    exact h.acked e d.opposite
  · rw [hself, hcredit]
    exact le_max_left _ _
  · rw [hother]
    exact le_max_left _ _

theorem Sound.stay (e : Endpoint) : Advance l e (l.state e) .relayToConnector [] := by
  have hmove : Advance l e ((l.state e).setDirection .relayToConnector
      ((l.state e).direction .relayToConnector)) .relayToConnector [] :=
    h.move (by rw [append_nil]; exact h.sender e _) (h.inbox_same rfl) rfl rfl (by simp)
  rwa [setDirection_direction] at hmove

theorem Sound.stays (e : Endpoint) : l.Moves e l := by
  have hmoves := Moves.become (h.stay e)
  rwa [become_same] at hmoves

theorem Sound.advertise (e : Endpoint) (d : Direction) (limit : Nat) :
    Advance l e ((l.state e).setDirection d ((l.dir e d).advertised limit)) d [] := by
  have houtbox := outbox_advertised limit (l.dir e d)
  refine h.move ?_ (.of_advertised (h.settled e d) (h.receiver e d) (h.handed e d) _)
    (congrArg Outbox.peerAcked houtbox) (congrArg Outbox.sendCredit houtbox) (by simp)
  rw [houtbox, append_nil]
  exact h.sender e d

theorem Sound.carried_window (hvalid : f.validate = .ok ())
    (hstream : f.streamId = (l.state e).streamId)
    (hack : f.ack.toNat ≤ (l.dir e d.opposite).recvContiguous) (hk : f.kind = .windowUpdate) :
    (l.become e ((l.state e).setDirection d.opposite
      ((l.dir e d.opposite).advertised f.window.toNat))).Carried e d f := by
  have hdir : (l.become e ((l.state e).setDirection d.opposite
      ((l.dir e d.opposite).advertised f.window.toNat))).dir e d.opposite =
      (l.dir e d.opposite).advertised f.window.toNat := by
    unfold dir
    rw [become_state_self, direction_setDirection_self]
  exact
    { valid := hvalid
      stream := by
        rw [become_state_self]
        exact hstream
      ack_le := by
        rw [hdir]
        exact Nat.le_trans hack (InboxStep.of_advertised (h.settled e _) (h.receiver e _)
          (h.handed e _) f.window.toNat).recv_le
      window_le := fun _ => by
        rw [hdir]
        unfold advertised
        split
        · exact Nat.le_refl _
        · omega
      copy := fun hseq => by
        rw [hk] at hseq
        cases hseq }

theorem Sound.emit (hvalid : f.validate = .ok ()) (hstream : f.streamId = (l.state e).streamId)
    (hack : f.ack.toNat ≤ (l.dir e d.opposite).recvContiguous) (hk : f.kind.sequenced = true)
    (he : (l.dir e d).Emittable f) :
    Advance l e ((l.state e).setDirection d ((l.dir e d).emitted f)) d [f] := by
  have hlen : (l.dir e d).lastEmitted = (l.log e d).length := (h.sender e d).lastEmitted
  refine h.move (emitted_tracks (h.sender e d) hvalid hk he) (h.inbox_same (inbox_emitted _ _))
    (emitted_peerAcked _ _) (emitted_sendCredit _ _) ?_
  intro g hg
  rw [mem_singleton.1 hg]
  exact
    { valid := hvalid
      stream := by
        show f.streamId = ((l.become e _).state e).streamId
        rw [become_state_self]
        exact hstream
      ack_le := by
        rw [moved_dir_self, direction_setDirection_ne _ (Direction.opposite_ne d)]
        exact hack
      window_le := fun hw => by
        rw [hw] at hk
        cases hk
      copy := fun _ => by
        show CopyOf (extend l.log e d [f] e d) f
        rw [extend_self]
        refine ⟨f, ?_, rfl⟩
        rw [he.next, hlen, Nat.add_sub_cancel, List.getElem?_concat_length] }

theorem Sound.exec_send (e : Endpoint) (d : Direction) (f : Frame) :
    l.Moves e (l.exec (.send e d f)) := by
  show l.Moves e (l.afterSend e d f ((sendFrame d f).run (l.state e)))
  have hone {l' : Link} (hc : l'.Carried e d f) : ∀ g ∈ [f], l'.Carried e d g := by
    intro g hg
    rwa [mem_singleton.1 hg]
  cases hrun : (sendFrame d f).run (l.state e) with
  | error err s =>
    rw [sendFrame_atomic d f _ _ _ hrun]
    exact .become (h.stay e)
  | ok u s =>
    obtain ⟨hvalid, hstream, hack, hsent⟩ := sendFrame_ok hrun
    unfold afterSend
    cases hsent with
    | window hk =>
      have hseq : f.kind.sequenced = false := by rw [hk]; rfl
      simp only [hseq, Bool.false_eq_true, if_false]
      rw [record_nil]
      exact .carry (.become (h.advertise e d.opposite f.window.toNat))
        (hone (h.carried_window hvalid hstream hack hk))
    | sequenced hk he =>
      simp only [hk, if_true]
      have ha := h.emit hvalid hstream hack hk he
      exact .carry (.done ha) ha.fresh
    | ack hk =>
      have hseq : f.kind.sequenced = false := by rw [hk]; rfl
      simp only [hseq, Bool.false_eq_true, if_false]
      rw [record_nil, become_same]
      refine (h.stays e).carry (hone ⟨hvalid, hstream, hack, fun hw => ?_, fun hc => ?_⟩)
      · cases hk.symm.trans hw
      · cases hseq.symm.trans hc

/-! ## Receiving and delivering -/

section

variable (hf : f ∈ l.net e.peer d)
include hf

/-- What the receiver's own checks need to know about a frame its peer has on the wire. -/
theorem Sound.receivable :
    f.streamId = (l.state e).streamId ∧
      f.ack.toNat ≤ ((l.state e).direction d.opposite).lastEmitted := by
  have hc := h.carried e.peer d f hf
  have hstream := h.stream e
  have hrecv := (h.receiver e.peer d.opposite).recv_le
  have hlen : (l.dir e d.opposite).lastEmitted = (l.log e d.opposite).length :=
    (h.sender e d.opposite).lastEmitted
  rw [Endpoint.peer_peer] at hrecv
  refine ⟨hc.stream.trans hstream, ?_⟩
  show _ ≤ (l.dir e d.opposite).lastEmitted
  rw [hlen]
  exact Nat.le_trans hc.ack_le hrecv

theorem Sound.received {disposition : ReceiveDisposition}
    (hr : (l.dir e d).Received f disposition t) :
    Advance l e ((l.state e).afterReceive d f t) d [] := by
  have hc := h.carried e.peer d f hf
  have hack : f.ack.toNat ≤ (l.dir e d.opposite).lastEmitted := (h.receivable hf).2
  exact
    { stream := rfl
      sender := by
        intro d'
        rw [extend_nil]
        rcases Direction.eq_or_eq_opposite d d' with rfl | rfl
        · rw [direction_afterReceive_self, hr.outbox_eq]
          exact h.sender e d'
        · rw [direction_afterReceive_opposite]
          exact credits_tracks (h.sender e d.opposite) hack
      inbox := by
        intro d'
        rcases Direction.eq_or_eq_opposite d d' with rfl | rfl
        · rw [direction_afterReceive_self]
          exact .of_received (h.settled e d') (h.receiver e d') (h.handed e d') hc.valid hc.copy hr
        · rw [direction_afterReceive_opposite]
          exact h.inbox_same (inbox_credits _ _)
      acked := by
        intro d'
        rcases Direction.eq_or_eq_opposite d d' with rfl | rfl
        · rw [direction_afterReceive_self, show t.peerAcked = (l.dir e d').peerAcked from
            congrArg Outbox.peerAcked hr.outbox_eq]
          exact h.acked e d'
        · rw [direction_afterReceive_opposite, credits_peerAcked]
          exact Nat.max_le.2 ⟨hc.ack_le, h.acked e d.opposite⟩
      credit := by
        intro d'
        rcases Direction.eq_or_eq_opposite d d' with rfl | rfl
        · rw [direction_afterReceive_self, show t.sendCredit = (l.dir e d').sendCredit from
            congrArg Outbox.sendCredit hr.outbox_eq]
          exact le_max_left _ _
        · rw [direction_afterReceive_opposite]
          exact credits_sendCredit_le hc.window_le
      fresh := by simp }

/-- A frame the peer has on the wire is refused without a trace, or received. -/
theorem Sound.receive_cases :
    (∃ err, errorOf ((receiveFrame d f).run (l.state e)) = some err ∧
      l.exec (.receive e d f) = l) ∨
      ∃ disposition t, (l.dir e d).Received f disposition t ∧
        l.exec (.receive e d f) = l.become e ((l.state e).afterReceive d f t) := by
  have hexec : l.exec (.receive e d f) =
      l.become e (stateOf ((receiveFrame d f).run (l.state e))) := if_pos hf
  obtain ⟨hstream, hack⟩ := h.receivable hf
  rcases receiveFrame_run (h.settled e d) (h.carried e.peer d f hf).valid hstream hack with
    ⟨err, _, hrun⟩ | ⟨disposition, t, hr, hrun⟩
  · exact .inl ⟨err, by rw [hrun, errorOf_error], by rw [hexec, hrun, stateOf_error, become_same]⟩
  · exact .inr ⟨disposition, t, hr, by rw [hexec, hrun, stateOf_ok]⟩

end

theorem Sound.exec_receive (e : Endpoint) (d : Direction) (f : Frame) :
    l.Moves e (l.exec (.receive e d f)) := by
  by_cases hf : f ∈ l.net e.peer d
  · rcases h.receive_cases hf with ⟨_, _, hexec⟩ | ⟨_, t, hr, hexec⟩
    · rw [hexec]
      exact h.stays e
    · rw [hexec]
      exact .become (h.received hf hr)
  · rw [show l.exec (.receive e d f) = l from if_neg hf]
    exact h.stays e

theorem Sound.deliver (hle : through ≤ (l.dir e d).recvContiguous) :
    Advance l e ((l.state e).setDirection d ((l.dir e d).delivered through)) d [] := by
  have houtbox := outbox_delivered through (l.dir e d)
  refine h.move ?_ (.of_delivered (h.settled e d) (h.receiver e d) (h.handed e d) hle)
    (congrArg Outbox.peerAcked houtbox) (congrArg Outbox.sendCredit houtbox) (by simp)
  rw [houtbox, append_nil]
  exact h.sender e d

theorem Sound.exec_deliver (e : Endpoint) (d : Direction) (through : Nat) :
    l.Moves e (l.exec (.deliver e d through)) := by
  show l.Moves e (l.become e (stateOf ((markDelivered d through).run (l.state e))))
  cases hrun : (markDelivered d through).run (l.state e) with
  | error err s =>
    rw [stateOf_error, markDelivered_atomic d through _ _ _ hrun]
    exact .become (h.stay e)
  | ok u s =>
    obtain ⟨hle, rfl⟩ := markDelivered_ok.1 hrun
    exact .become (h.deliver hle)

/-! ## Replay and recovery -/

theorem Sound.carried_of_replay {k : Nat} (hf : (l.dir e d).replay[k]? = some f) :
    l.Carried e d f :=
  h.logged e d f (mem_of_getElem? ((h.sender e d).mem_replay hf).2)

end

theorem Sound.carried_retained (h : l.Sound)
    (hok : (l.dir e d).retainedReplay first through = .ok frames) :
    ∀ f ∈ frames, l.Carried e d f := by
  intro f hf
  obtain ⟨k, hk⟩ := mem_of_retainedReplay hok f hf
  exact h.carried_of_replay hk

omit [Sha256] in
theorem carried_onCarrier (epoch generation : UInt64) (h : ∀ f ∈ frames, l.Carried e d f) :
    ∀ f ∈ frames.map (Frame.onCarrier epoch generation), l.Carried e d f := by
  intro g hg
  obtain ⟨f, hf, rfl⟩ := mem_map.1 hg
  exact (h f hf).of_sameLogical rfl

theorem Sound.carried_forCarrier (h : l.Sound) {epoch generation : UInt64}
    (hok : (l.dir e d).retainedReplayForCarrier first through epoch generation = .ok frames) :
    ∀ f ∈ frames, l.Carried e d f := by
  rw [retainedReplayForCarrier, except_map_eq_ok] at hok
  obtain ⟨retained, hret, rfl⟩ := hok
  exact carried_onCarrier epoch generation (h.carried_retained hret)

theorem Sound.carried_reconcile (h : l.Sound) (hok : (l.state e).reconcile peer = .ok plan)
    (d : Direction) : ∀ f ∈ plan.replay.get d, l.Carried e d f := by
  intro f hf
  obtain ⟨missing, hd⟩ := reconcile_ok hok d
  obtain ⟨k, hk⟩ := (reconcileDirection_ok hd).2 f hf
  exact h.carried_of_replay hk

theorem Sound.acknowledged (h : l.Sound) (hseen : peer ∈ l.snapshots e.peer)
    (hok : (l.state e).reconcile peer = .ok plan) :
    Advance l e ((l.state e).acknowledged peer) .relayToConnector [] where
  stream := rfl
  sender d' := by
    obtain ⟨missing, hd⟩ := reconcile_ok hok d'
    rw [extend_nil, direction_acknowledged]
    exact acked_tracks (h.sender e d') (reconcileDirection_ok hd).1
  inbox d' := by
    rw [direction_acknowledged]
    exact h.inbox_same (inbox_acked _ _)
  acked d' := by
    rw [direction_acknowledged, acked_peerAcked]
    exact Nat.max_le.2 ⟨h.seen e.peer peer hseen d', h.acked e d'⟩
  credit d' := by
    rw [direction_acknowledged, acked_sendCredit]
    exact le_max_left _ _
  fresh := by simp

theorem Sound.exec_apply (h : l.Sound) (e : Endpoint) (peer : StreamSnapshot) :
    l.Moves e (l.exec (.reconcileAndApply e peer)) := by
  show l.Moves e (if peer ∈ l.snapshots e.peer then
    l.afterApply e ((reconcileAndApply peer).run (l.state e)) else l)
  by_cases hseen : peer ∈ l.snapshots e.peer
  · rw [if_pos hseen]
    rcases reconcileAndApply_run (l.state e) peer with ⟨err, hrun⟩ | ⟨plan, hok, hrun⟩
    · rw [hrun]
      exact .become (h.stay e)
    · rw [hrun]
      have ha := h.acknowledged hseen hok
      show l.Moves e ((l.become e ((l.state e).acknowledged peer)).resendPlan e (.ok plan))
      refine (Moves.become ha).resendPlan ?_
      intro plan' hplan d f hf
      cases hplan
      have hmono := ha.carried_mono (h.carried_reconcile hok d f hf)
      unfold moved at hmono
      rwa [record_nil] at hmono
  · rw [if_neg hseen]
    exact h.stays e

/-! ## Steps and runs -/

theorem Sound.exec_snapshot (h : l.Sound) (e : Endpoint) : (l.exec (.snapshot e)).Sound :=
  { h with
    logged := fun e' d' f hf => (h.logged e' d' f hf).mono rfl (Nat.le_refl _) (Nat.le_refl _)
      ⟨[], (append_nil _).symm⟩
    carried := fun e' d' f hf => (h.carried e' d' f hf).mono rfl (Nat.le_refl _) (Nat.le_refl _)
      ⟨[], (append_nil _).symm⟩
    seen := by
      intro e' snapshot hmem d'
      have hmem : snapshot ∈ Function.update l.snapshots e
        (l.snapshots e ++ [(l.state e).snapshot]) e' := hmem
      by_cases he : e' = e
      · subst he
        rw [Function.update_self] at hmem
        rcases mem_append.1 hmem with hmem | hmem
        · exact h.seen e' snapshot hmem d'
        · rw [mem_singleton.1 hmem]
          cases d' <;> exact Nat.le_refl _
      · rw [Function.update_of_ne he] at hmem
        exact h.seen e' snapshot hmem d' }

theorem Sound.moves (h : l.Sound) {a : Action} (hnot : ∀ e, a ≠ .snapshot e) :
    l.Moves a.actor (l.exec a) := by
  cases a with
  | send e d f => exact h.exec_send e d f
  | receive e d f => exact h.exec_receive e d f
  | deliver e d through => exact h.exec_deliver e d through
  | snapshot e => exact absurd rfl (hnot e)
  | retainedReplay e d first through =>
    exact (h.stays e).resend fun frames hok => h.carried_retained hok
  | replayFrames e d first through epoch generation =>
    exact (h.stays e).resend fun frames hok => h.carried_forCarrier hok
  | replayMissing e d cursor epoch generation =>
    refine (h.stays e).resend fun frames hok => ?_
    unfold StreamState.replayMissing at hok
    simp only at hok
    split at hok
    · cases hok
    split at hok
    · cases hok
      simp
    split at hok
    · cases hok
    · exact h.carried_forCarrier hok
  | reconcile e peer =>
    show l.Moves e (if peer ∈ l.snapshots e.peer then _ else l)
    split
    · exact (h.stays e).resendPlan fun plan hok d => h.carried_reconcile hok d
    · exact h.stays e
  | reconcileForCarrier e peer epoch generation =>
    show l.Moves e (if peer ∈ l.snapshots e.peer then _ else l)
    split
    · refine (h.stays e).resendPlan fun plan hok d => ?_
      rw [StreamState.reconcileForCarrier, except_map_eq_ok] at hok
      obtain ⟨bare, hplan, rfl⟩ := hok
      rw [PerDirection.get_map]
      exact carried_onCarrier epoch generation (h.carried_reconcile hplan d)
    · exact h.stays e
  | reconcileAndApply e peer => exact h.exec_apply e peer

theorem Sound.exec (h : l.Sound) (a : Action) : (l.exec a).Sound := by
  by_cases hsnapshot : ∃ e, a = .snapshot e
  · obtain ⟨e, rfl⟩ := hsnapshot
    exact h.exec_snapshot e
  · exact (h.moves (not_exists.1 hsnapshot)).sound h

theorem Sound.exec_moves (h : l.Sound) (a : Action) :
    ∃ s d frames, Advance l a.actor s d frames ∧
      (l.exec a).state = (l.become a.actor s).state ∧
      (l.exec a).log = extend l.log a.actor d frames := by
  by_cases hsnapshot : ∃ e, a = .snapshot e
  · obtain ⟨e, rfl⟩ := hsnapshot
    exact (h.stays e).exists_advance
  · exact (h.moves (not_exists.1 hsnapshot)).exists_advance

theorem Sound.exec_dir (h : l.Sound) (a : Action) :
    ∃ s d frames, Advance l a.actor s d frames ∧
      ∀ e d', (l.exec a).dir e d' = (l.moved a.actor s d frames).dir e d' := by
  obtain ⟨s, d, frames, ha, hstate, _⟩ := h.exec_moves a
  exact ⟨s, d, frames, ha, fun e d' =>
    congrArg (fun state : Endpoint → StreamState => (state e).direction d') hstate⟩

theorem Sound.run (h : l.Sound) (actions : List Action) : (l.run actions).Sound := by
  induction actions generalizing l with
  | nil => exact h
  | cons a actions ih => exact ih (h.exec a)

/-- What every action keeps in a sound link, every run keeps. -/
theorem Sound.run_keeps {P : Link → Prop} (h : l.Sound)
    (hstep : ∀ {l : Link}, l.Sound → P l → ∀ a, P (l.exec a)) (hP : P l) (actions : List Action) :
    P (l.run actions) := by
  induction actions generalizing l with
  | nil => exact hP
  | cons a actions ih => exact ih (h.exec a) (hstep h hP a)

omit [Sha256] in
theorem connect_ok (h : connect config = .ok l) :
    (∀ e, (l.state e).streamId = config.streamId ∧ (config.limits e).validate = .ok () ∧
      ∀ d, l.dir e d = .new (config.sendCredit e) (config.receiveCredit e) (config.limits e)) ∧
    l.log = (fun _ _ => []) ∧ l.net = (fun _ _ => []) ∧ l.snapshots = (fun _ => []) ∧
    l.entered = (fun _ _ => []) ∧ l.handed = (fun _ _ => []) := by
  simp only [connect, except_bind_eq_ok] at h
  obtain ⟨relay, hrelay, connector, hconnector, h⟩ := h
  cases h
  refine ⟨?_, rfl, rfl, rfl, rfl, rfl⟩
  intro e
  cases e with
  | relay => exact (withCreditsAndLimits_ok hrelay).2
  | connector => exact (withCreditsAndLimits_ok hconnector).2

theorem Sound.connect (h : connect config = .ok l) : l.Sound := by
  obtain ⟨hstate, hlog, hnet, hsnapshots, hentered, hhanded⟩ := connect_ok h
  exact
    { stream := fun e => (hstate e.peer).1.trans (hstate e).1.symm
      sender := by
        intro e d
        rw [(hstate e).2.2 d, hlog]
        exact outbox_new_tracks _ _ (hstate e).2.1
      settled := by
        intro e d
        rw [(hstate e).2.2 d]
        exact inbox_new_settled _ _ (hstate e).2.1
      receiver := by
        intro e d
        rw [(hstate e).2.2 d, hlog, hentered]
        exact inbox_new_tracks _ _ _
      acked := by
        intro e d
        rw [(hstate e).2.2 d]
        exact Nat.zero_le _
      logged := by simp [hlog]
      carried := by simp [hnet]
      seen := by simp [hsnapshots]
      handed := by
        intro e d
        rw [hhanded, hentered]
        exact take_nil.symm }

end Link

end AgentUplink
