import AgentUplink.Sequence.Stream
import AgentUplink.Sequence.Tracking

/-!
# What a call does to both directions

Each public operation of a `StreamState`, read down to the effects on its two
directions, and the fact that a failing call leaves the stream as it was.
-/

namespace AgentUplink

open Machine Fallible Std DirectionState

theorem Direction.opposite_ne (d : Direction) : d.opposite ≠ d := by
  cases d <;> decide

theorem Direction.eq_or_eq_opposite (d d' : Direction) : d' = d ∨ d' = d.opposite := by
  cases d <;> cases d' <;> decide

namespace StreamState

@[simp] theorem direction_setDirection_self (s : StreamState) (d : Direction) (t : DirectionState) :
    (s.setDirection d t).direction d = t :=
  PerDirection.get_set_self _ _ _

variable {d : Direction} {s t : StreamState} {α : Type} {x : EStateM SequenceError DirectionState α}
  {f : Frame} {u : Unit}

theorem direction_setDirection_ne (s : StreamState) {d' : Direction} (h : d' ≠ d)
    (t : DirectionState) : (s.setDirection d t).direction d' = s.direction d' :=
  PerDirection.get_set_ne _ h _

@[simp] theorem setDirection_direction (s : StreamState) (d : Direction) :
    s.setDirection d (s.direction d) = s := by
  cases d <;> rfl

theorem withCreditsAndLimits_ok {streamId : UInt64} {sendCredit receiveCredit : Nat}
    {limits : SequenceLimits}
    (h : withCreditsAndLimits streamId sendCredit receiveCredit limits = .ok s) :
    streamId ≠ 0 ∧ s.streamId = streamId ∧ limits.validate = .ok () ∧
      ∀ d, s.direction d = .new sendCredit receiveCredit limits := by
  unfold withCreditsAndLimits at h
  split at h
  · cases h
  · next hid =>
    rw [except_bind_eq_ok] at h
    obtain ⟨_, hlimits, h⟩ := h
    cases h
    refine ⟨hid, rfl, hlimits, fun d => ?_⟩
    cases d <;> rfl

theorem onDirection_ok {a : α} :
    (onDirection d x).run s = .ok a t ↔
      ∃ u, x.run (s.direction d) = .ok a u ∧ s.setDirection d u = t := zoom_ok

theorem onDirection_atomic (d : Direction) (h : Atomic x) : Atomic (onDirection d x) :=
  h.zoom fun s => s.setDirection_direction d

theorem onDirection_total (d : Direction) (h : Total x) : Total (onDirection d x) := by
  intro s
  obtain ⟨a, t, hrun⟩ := h (s.direction d)
  exact ⟨a, s.setDirection d t, onDirection_ok.2 ⟨t, hrun, rfl⟩⟩

theorem liftFrameError_ok {r : Except FrameError α} {a : α} :
    liftFrameError r = .ok a ↔ r = .ok a := by
  cases r <;> simp [liftFrameError, Except.mapError]

theorem checkStream_ok : s.checkStream f = .ok u ↔ f.streamId = s.streamId := by
  unfold checkStream
  simp

/-! ## Sending -/

inductive Sent (s : StreamState) (d : Direction) (f : Frame) : StreamState → Prop
  | window (h : f.kind = .windowUpdate) :
      Sent s d f (s.setDirection d.opposite ((s.direction d.opposite).advertised f.window.toNat))
  | sequenced (h : f.kind.sequenced = true) (he : (s.direction d).Emittable f) :
      Sent s d f (s.setDirection d ((s.direction d).emitted f))
  | ack (h : f.kind = .ack) : Sent s d f s

theorem sendFrame_ok (h : (sendFrame d f).run s = .ok u t) :
    f.validate = .ok () ∧ f.streamId = s.streamId ∧
      f.ack.toNat ≤ (s.direction d.opposite).recvContiguous ∧ Sent s d f t := by
  simp only [sendFrame, bind_ok, get_ok, check_ok, failIf_ok, liftFrameError_ok,
    checkStream_ok] at h
  obtain ⟨_, _, ⟨hvalid, rfl⟩, _, _, ⟨rfl, rfl⟩, _, _, ⟨hstream, rfl⟩, _, _, ⟨hack, rfl⟩, h⟩ := h
  refine ⟨hvalid, hstream, by omega, ?_⟩
  by_cases hw : f.kind = .windowUpdate
  · rw [if_pos hw] at h
    obtain ⟨_, hrun, rfl⟩ := onDirection_ok.1 h
    obtain rfl := modify_ok.1 hrun
    exact .window hw
  · rw [if_neg hw] at h
    obtain ⟨t', hrun, rfl⟩ := onDirection_ok.1 h
    unfold emit at hrun
    by_cases hseq : f.kind.sequenced = true
    · rw [if_pos hseq] at hrun
      obtain ⟨he, rfl⟩ := emitSequenced_ok hvalid hrun
      exact .sequenced hseq he
    · rw [if_neg hseq] at hrun
      obtain ⟨_, rfl⟩ := pure_ok.1 hrun
      rw [setDirection_direction]
      refine .ack ?_
      cases hk : f.kind <;> simp_all [FrameKind.sequenced]

theorem sendFrame_atomic (d : Direction) (f : Frame) : Atomic (sendFrame d f) := by
  cases hvalid : f.validate with
  | error e =>
    intro s err t hrun
    unfold sendFrame at hrun
    rw [hvalid] at hrun
    cases hrun
    rfl
  | ok u =>
    have hemit : Atomic (emit f) := by
      exact Atomic.ite (emitSequenced_atomic hvalid) (reads_pure ()).atomic
    exact (reads_check _).bind_atomic fun _ => reads_get.bind_atomic fun s =>
      (reads_check _).bind_atomic fun _ => (reads_failIf _ _).bind_atomic fun _ =>
      Atomic.ite (onDirection_total _ (total_modify _)).atomic (onDirection_atomic d hemit)

/-! ## Receiving -/

/-- The acknowledgement and credit a received frame carries for the opposite direction. -/
def credits (f : Frame) (s : DirectionState) : DirectionState :=
  if f.kind = .windowUpdate then (s.acked f.ack.toNat).credited f.window.toNat
  else s.acked f.ack.toNat

theorem credits_tracks {log : List Frame} {s : DirectionState} (h : s.outbox.Tracks log)
    (hack : f.ack.toNat ≤ s.lastEmitted) : (credits f s).outbox.Tracks log := by
  unfold credits
  split
  · exact credited_tracks _ (acked_tracks h hack)
  · exact acked_tracks h hack

theorem inbox_credits (f : Frame) (s : DirectionState) : (credits f s).inbox = s.inbox := by
  unfold credits
  split
  · rw [inbox_credited, inbox_acked]
  · exact inbox_acked _ _

theorem credits_peerAcked (f : Frame) (s : DirectionState) :
    (credits f s).peerAcked = max f.ack.toNat s.peerAcked := by
  unfold credits
  split
  · rw [show ((s.acked f.ack.toNat).credited f.window.toNat).peerAcked =
      (s.acked f.ack.toNat).peerAcked by unfold credited; split <;> rfl]
    exact acked_peerAcked _ _
  · exact acked_peerAcked _ _

theorem credits_sendCredit_le {s : DirectionState} {limit : Nat}
    (h : f.kind = .windowUpdate → f.window.toNat ≤ limit) :
    (credits f s).sendCredit ≤ max s.sendCredit limit := by
  unfold credits
  split
  next hk =>
    have := h hk
    rw [credited_sendCredit, acked_sendCredit]
    omega
  · rw [acked_sendCredit]
    exact Nat.le_max_left _ _

/-- The stream after a frame was received in direction `d`, whose direction became `t`. -/
def afterReceive (s : StreamState) (d : Direction) (f : Frame) (t : DirectionState) :
    StreamState :=
  (s.setDirection d t).setDirection d.opposite (credits f (s.direction d.opposite))

theorem direction_afterReceive_self (s : StreamState) (d : Direction) (f : Frame)
    (t : DirectionState) : (s.afterReceive d f t).direction d = t := by
  unfold afterReceive
  rw [direction_setDirection_ne _ (Direction.opposite_ne d).symm, direction_setDirection_self]

theorem direction_afterReceive_opposite (s : StreamState) (d : Direction) (f : Frame)
    (t : DirectionState) :
    (s.afterReceive d f t).direction d.opposite = credits f (s.direction d.opposite) :=
  direction_setDirection_self _ _ _

/-- A frame that is valid for the stream and acknowledges nothing unsent is received or
fails in the preflight, and then leaves no trace. -/
theorem receiveFrame_run [Sha256] (hsettled : (s.direction d).inbox.Settled)
    (hvalid : f.validate = .ok ()) (hstream : f.streamId = s.streamId)
    (hack : f.ack.toNat ≤ (s.direction d.opposite).lastEmitted) :
    (∃ e, (s.direction d).preflightReceive f = .error e ∧ (receiveFrame d f).run s = .error e s) ∨
      ∃ disposition t, (s.direction d).Received f disposition t ∧
        (receiveFrame d f).run s = .ok disposition (s.afterReceive d f t) := by
  unfold receiveFrame
  rw [run_bind_of_ok (check_ok.2 ⟨liftFrameError_ok.2 hvalid, rfl⟩),
    run_bind_of_ok (get_ok.2 ⟨rfl, rfl⟩),
    run_bind_of_ok (check_ok.2 ⟨checkStream_ok (u := ()) |>.2 hstream, rfl⟩),
    run_bind_of_ok (failIf_ok (u := ()) |>.2 ⟨Nat.not_lt.2 hack, rfl⟩)]
  rcases receive_run hsettled hvalid with ⟨e, hpre, hrun⟩ | ⟨disposition, t, hrun, hr⟩
  · refine .inl ⟨e, hpre, ?_⟩
    have hzoom : (onDirection d (receive f)).run s = .error e s := by
      unfold onDirection
      rw [run_zoom, hrun]
      exact congrArg _ (s.setDirection_direction d)
    exact run_bind_of_error hzoom
  · refine .inr ⟨disposition, t, hr, ?_⟩
    refine bind_ok.2 ⟨disposition, s.setDirection d t, onDirection_ok.2 ⟨t, hrun, rfl⟩, ?_⟩
    have hopp : (s.setDirection d t).direction d.opposite = s.direction d.opposite :=
      direction_setDirection_ne _ (Direction.opposite_ne d) _
    refine bind_ok.2 ⟨(), (s.setDirection d t).setDirection d.opposite
      ((s.direction d.opposite).acked f.ack.toNat), onDirection_ok.2 ⟨_, ?_, rfl⟩, ?_⟩
    · rw [hopp]
      exact applyAck_ok.2 ⟨hack, rfl⟩
    · refine bind_ok.2 ⟨(), s.afterReceive d f t, ?_, rfl⟩
      unfold afterReceive credits
      by_cases hw : f.kind = .windowUpdate
      · rw [if_pos hw, if_pos hw]
        refine onDirection_ok.2 ⟨_, modify_ok.2 rfl, ?_⟩
        cases d <;> rfl
      · rw [if_neg hw, if_neg hw]
        rfl

/-! ## Delivery and recovery -/

theorem markDelivered_ok {through : Nat} :
    (markDelivered d through).run s = .ok u t ↔
      through ≤ (s.direction d).recvContiguous ∧
        s.setDirection d ((s.direction d).delivered through) = t := by
  unfold markDelivered
  rw [onDirection_ok]
  simp only [DirectionState.markDelivered, bind_ok, get_ok, failIf_ok, modify_ok]
  constructor
  · rintro ⟨_, ⟨_, _, ⟨rfl, rfl⟩, _, _, ⟨hle, rfl⟩, rfl⟩, rfl⟩
    exact ⟨by omega, rfl⟩
  · rintro ⟨hle, rfl⟩
    exact ⟨_, ⟨_, _, ⟨rfl, rfl⟩, (), _, ⟨by omega, rfl⟩, rfl⟩, rfl⟩

theorem markDelivered_atomic (d : Direction) (through : Nat) : Atomic (markDelivered d through) :=
  onDirection_atomic d (reads_get.bind_atomic fun _ =>
    (reads_failIf _ _).bind_atomic fun _ => (total_modify _).atomic)

end StreamState

end AgentUplink
