import AgentUplink.Sequence.Adversary
import AgentUplink.Sequence.Delivery

/-!
# The representation of a stream, after any calls

A run is any sequence of calls on one `StreamState` with any frames, cursors and
snapshots, honest or not, each succeeding or failing. `Represented` says what a
direction looks like after it; the calls that fail leave no trace.
-/

namespace AgentUplink

open Machine Fallible Std DirectionState List Option KeyedMap ExtTreeMap

namespace StreamState

/-- The calls on a stream. Those from `snapshot` on take it by shared reference. -/
inductive Op where
  | sendFrame (d : Direction) (f : Frame)
  | receiveFrame (d : Direction) (f : Frame)
  | applyAck (d : Direction) (ack : UInt64)
  | applyWindowUpdate (d : Direction) (limit : UInt64)
  | markDelivered (d : Direction) (through : UInt64)
  | reconcileAndApply (peer : StreamSnapshot)
  | snapshot
  | retainedReplay (d : Direction) (first through : Nat)
  | replayFrames (d : Direction) (first through : Nat) (epoch generation : UInt64)
  | replayMissing (d : Direction) (cursor : Nat) (epoch generation : UInt64)
  | reconcile (peer : StreamSnapshot)
  | reconcileForCarrier (peer : StreamSnapshot) (epoch generation : UInt64)

variable [Sha256]

/-- The stream after a call, whether it succeeded or failed. -/
def Op.next (op : Op) (s : StreamState) : StreamState :=
  match op with
  | sendFrame d f => stateOf ((StreamState.sendFrame d f).run s)
  | receiveFrame d f => stateOf ((StreamState.receiveFrame d f).run s)
  | applyAck d ack => stateOf ((StreamState.applyAck d ack.toNat).run s)
  | applyWindowUpdate d limit => stateOf ((StreamState.applyWindowUpdate d limit.toNat).run s)
  | markDelivered d through => stateOf ((StreamState.markDelivered d through.toNat).run s)
  | reconcileAndApply peer => stateOf ((StreamState.reconcileAndApply peer).run s)
  | snapshot | retainedReplay _ _ _ | replayFrames _ _ _ _ _ | replayMissing _ _ _ _
  | reconcile _ | reconcileForCarrier _ _ _ => s

/-- The frame a call takes into a direction: accepted or buffered, and sequenced. -/
def Op.admits (op : Op) (s : StreamState) (d : Direction) : Option Frame :=
  match op with
  | receiveFrame d' f =>
    if d' = d then
      match (StreamState.receiveFrame d' f).run s with
      | .ok disposition _ => disposition.admitted f
      | .error _ _ => none
    else none
  | _ => none

/-- What one call took into a direction, and what it moved to the ready queue. -/
structure Moment where
  admitted : Option Frame
  entered : List Frame

def Op.moment (op : Op) (d : Direction) (s : StreamState) : Moment where
  admitted := op.admits s d
  entered := gained (s.direction d).ready ((op.next s).direction d).ready

def run (s : StreamState) (ops : List Op) : StreamState := Trace.run Op.next s ops

def history (s : StreamState) (d : Direction) (ops : List Op) : List Moment :=
  Trace.events Op.next (fun op s => some (op.moment d s)) s ops

def Moment.allAdmitted (history : List Moment) : List Frame := history.filterMap Moment.admitted

def Moment.allEntered (history : List Moment) : List Frame := history.flatMap Moment.entered

/-! ## A call and its two directions -/

variable {s : StreamState}

variable {d : Direction} {seen : List Moment}

/-- Receiving either fails without a trace or is a reception in one direction, with the
acknowledgement and credit it carries in the other. -/
theorem receiveFrame_cases (f : Frame) (hsettled : (s.direction d).inbox.Settled) :
    (∃ e, (receiveFrame d f).run s = .error e s) ∨
      ∃ disposition t, f.validate = .ok () ∧
        f.ack.toNat ≤ (s.direction d.opposite).lastEmitted ∧
        (s.direction d).Received f disposition t ∧
        (receiveFrame d f).run s = .ok disposition (s.afterReceive d f t) := by
  cases hvalid : f.validate with
  | error e =>
    refine .inl ⟨.frame e, ?_⟩
    unfold receiveFrame
    rw [hvalid]
    rfl
  | ok u =>
    by_cases hstream : f.streamId = s.streamId
    case neg =>
      refine .inl ⟨.wrongStream s.streamId f.streamId, ?_⟩
      have hcheck : s.checkStream f = .error (.wrongStream s.streamId f.streamId) := if_pos hstream
      unfold receiveFrame
      rw [run_bind_of_ok (check_ok.2 ⟨liftFrameError_ok.2 hvalid, rfl⟩),
        run_bind_of_ok (get_ok.2 ⟨rfl, rfl⟩), hcheck]
      rfl
    by_cases hack : f.ack.toNat ≤ (s.direction d.opposite).lastEmitted
    case neg =>
      refine .inl ⟨.acknowledgementBeyondSent f.ack.toNat (s.direction d.opposite).lastEmitted, ?_⟩
      unfold receiveFrame failIf
      rw [run_bind_of_ok (check_ok.2 ⟨liftFrameError_ok.2 hvalid, rfl⟩),
        run_bind_of_ok (get_ok.2 ⟨rfl, rfl⟩),
        run_bind_of_ok (check_ok.2 ⟨checkStream_ok (u := ()) |>.2 hstream, rfl⟩),
        if_pos (Nat.lt_of_not_le hack)]
      rfl
    rcases receiveFrame_run hsettled hvalid hstream hack with ⟨e, _, hrun⟩ |
    ⟨disposition, t, hr, hrun⟩
    · exact .inl ⟨e, hrun⟩
    · exact .inr ⟨disposition, t, rfl, hack, hr, hrun⟩

omit [Sha256] in
theorem turn_setDirection [Sha256] {t : DirectionState} (h : (s.direction d).Turn none t)
    (d' : Direction) : (s.direction d').Turn none ((s.setDirection d t).direction d') := by
  by_cases hd : d' = d
  · subst hd
    rwa [direction_setDirection_self]
  · rw [direction_setDirection_ne _ hd]
    exact .stay

theorem sendFrame_turn (d : Direction) (f : Frame) (d' : Direction) :
    (s.direction d').Turn none ((stateOf ((sendFrame d f).run s)).direction d') := by
  cases hrun : (sendFrame d f).run s with
  | error e t =>
    rw [stateOf_error, sendFrame_atomic d f s e t hrun]
    exact .stay
  | ok u t =>
    obtain ⟨hvalid, _, _, hsent⟩ := sendFrame_ok hrun
    cases hsent with
    | window hk => exact turn_setDirection (.advertise _) d'
    | sequenced hseq he => exact turn_setDirection (.emit hvalid hseq he) d'
    | ack hk => exact .stay

theorem receiveFrame_turn (hsettled : ∀ d, (s.direction d).inbox.Settled) (d : Direction)
    (f : Frame) (d' : Direction) :
    (s.direction d').Turn ((Op.receiveFrame d f).admits s d')
      ((stateOf ((receiveFrame d f).run s)).direction d') := by
  unfold Op.admits
  rcases receiveFrame_cases f (hsettled d) with ⟨e, hrun⟩ | ⟨disposition, t, hvalid, hack, hr, hrun⟩
  · simp only [hrun, stateOf_error, ite_self]
    exact .stay
  · simp only [hrun, stateOf_ok]
    rcases Direction.eq_or_eq_opposite d d' with rfl | rfl
    · rw [if_pos rfl, direction_afterReceive_self]
      exact .receive hvalid hr
    · rw [if_neg (Direction.opposite_ne d).symm, direction_afterReceive_opposite]
      exact .credits hack

theorem reconcileAndApply_turn (peer : StreamSnapshot) (d : Direction) :
    (s.direction d).Turn none ((stateOf ((reconcileAndApply peer).run s)).direction d) := by
  rcases reconcileAndApply_run s peer with ⟨e, hrun⟩ | ⟨plan, hplan, hrun⟩
  · rw [hrun]
    exact .stay
  · rw [hrun, stateOf_ok, direction_acknowledged]
    obtain ⟨missing, hd⟩ := reconcile_ok hplan d
    exact .ack (reconcileDirection_ok hd).1

theorem Op.turn (hsettled : ∀ d, (s.direction d).inbox.Settled) (op : Op) (d : Direction) :
    (s.direction d).Turn (op.admits s d) ((op.next s).direction d) := by
  cases op with
  | sendFrame d' f => exact sendFrame_turn d' f d
  | receiveFrame d' f => exact receiveFrame_turn hsettled d' f d
  | applyAck d' ack =>
    show (s.direction d).Turn none
      ((stateOf ((StreamState.applyAck d' ack.toNat).run s)).direction d)
    cases hrun : (StreamState.applyAck d' ack.toNat).run s with
    | error e t =>
      rw [stateOf_error, onDirection_atomic d' (applyAck_atomic ack.toNat) s e t hrun]
      exact .stay
    | ok u t =>
      obtain ⟨t', hok, rfl⟩ := onDirection_ok.1 hrun
      obtain ⟨hle, rfl⟩ := applyAck_ok.1 hok
      exact turn_setDirection (.ack hle) d
  | applyWindowUpdate d' limit => exact turn_setDirection (.credit limit) d
  | markDelivered d' through =>
    show (s.direction d).Turn none
      ((stateOf ((StreamState.markDelivered d' through.toNat).run s)).direction d)
    cases hrun : (StreamState.markDelivered d' through.toNat).run s with
    | error e t =>
      rw [stateOf_error, markDelivered_atomic d' through.toNat s e t hrun]
      exact .stay
    | ok u t =>
      obtain ⟨hle, rfl⟩ := markDelivered_ok.1 hrun
      exact turn_setDirection (.deliver hle) d
  | reconcileAndApply peer => exact reconcileAndApply_turn peer d
  | snapshot | retainedReplay d' first through
  | replayFrames d' first through epoch generation | replayMissing d' cursor epoch generation
  | reconcile peer | reconcileForCarrier peer epoch generation => exact .stay

/-! ## Runs -/

/-- Both directions stand, `d` with this history. -/
structure StandsWith (d : Direction) (seen : List Moment) (s : StreamState) : Prop where
  here : (s.direction d).Stands (Moment.allEntered seen) (Moment.allAdmitted seen)
  other : ∃ entered admitted, (s.direction d.opposite).Stands entered admitted

omit [Sha256] in
theorem StandsWith.settled (h : StandsWith d seen s) : ∀ d', (s.direction d').inbox.Settled := by
  intro d'
  rcases Direction.eq_or_eq_opposite d d' with rfl | rfl
  · exact h.here.settled
  · obtain ⟨entered, admitted, hother⟩ := h.other
    exact hother.settled

theorem StandsWith.next (h : StandsWith d seen s) (op : Op) :
    StandsWith d (seen ++ (some (op.moment d s)).toList) (op.next s) := by
  have hturn := op.turn h.settled
  obtain ⟨entered, admitted, hother⟩ := h.other
  refine ⟨?_, _, _, (hturn d.opposite).stands hother⟩
  have hstands := (hturn d).stands h.here
  unfold Moment.allEntered Moment.allAdmitted at hstands ⊢
  rw [toList_some, flatMap_append, filterMap_append]
  have hadmitted : List.filterMap Moment.admitted [op.moment d s] = (op.admits s d).toList := by
    cases h : op.admits s d with
    | none | some f => simp [Op.moment, h]
  rw [hadmitted, flatMap_singleton]
  exact hstands

theorem standsWith_new {streamId : UInt64} {sendCredit receiveCredit : Nat}
    {limits : SequenceLimits}
    (hnew : withCreditsAndLimits streamId sendCredit receiveCredit limits = .ok s) (d : Direction) :
    StandsWith d [] s ∧ (s.direction d).limits = limits := by
  obtain ⟨_, _, hlimits, hdirection⟩ := withCreditsAndLimits_ok hnew
  have hstands := stands_new sendCredit receiveCredit hlimits
  refine ⟨⟨?_, [], [], ?_⟩, ?_⟩
  · rw [hdirection]
    exact hstands
  · rw [hdirection]
    exact hstands
  · rw [hdirection]
    rfl

theorem standsWith_run (h : StandsWith d seen s) (ops : List Op) :
    StandsWith d (seen ++ s.history d ops) (s.run ops) :=
  Trace.events_invariant (fun _ op _ hs => hs.next op) h ops

theorem run_grows (h : StandsWith d seen s) (ops : List Op) :
    (s.direction d).Grows ((s.run ops).direction d) := by
  induction ops generalizing s seen with
  | nil => exact .refl _
  | cons op ops ih => exact ((op.turn h.settled d).grows h.here.settled).trans (ih (h.next op))

end StreamState

/-! ## The representation -/

/-- After a terminal of a script comes only a RESET, directly after a FIN. -/
theorem Script.after_terminal {log : List Frame} (h : Script log) {i j : Nat} {f g : Frame}
    (hf : log[i]? = some f) (hg : log[j]? = some g) (hlt : i < j)
    (hterm : f.kind.isTerminal = true) : f.kind = .fin ∧ g.kind = .reset ∧ j = i + 1 := by
  have hvalid := h.valid f (mem_of_getElem? hf)
  have hlength := (List.getElem?_eq_some_iff.1 hg).1
  obtain ⟨t, ht⟩ := isTerminal_closing hvalid hterm
  have hclosed : closing (log.take (i + 1)) = some (t, f.sequence.toNat) := by
    rw [Script.closing_take_succ hf, ht]
    rfl
  cases t with
  | reset reason =>
    have := h.length_le_of_reset hclosed
    omega
  | fin =>
    have hle := h.length_le_of_fin hclosed
    have hj : j = i + 1 := by omega
    subst hj
    have hfollow := h.order (i + 1) g hg
    rw [hclosed] at hfollow
    refine ⟨?_, (mayFollow_some hfollow).2, rfl⟩
    cases hk : f.kind with
    | fin => rfl
    | reset =>
      obtain ⟨reason, hr⟩ := Frame.closing_of_reset hvalid hk
      cases ht.symm.trans hr
    | data | ack | windowUpdate =>
      rw [hk] at hterm
      cases hterm

namespace DirectionState

open StreamState

/-- What a direction looks like after a run with this history. -/
structure Represented (seen : List Moment) (s : DirectionState) : Prop where
  replay : ∀ k, k ∈ s.replay ↔ s.peerAcked < k ∧ k ≤ s.lastEmitted
  ready : ∀ k, k ∈ s.ready ↔ s.deliveredContiguous < k ∧ k ≤ s.recvContiguous
  reorder : ∀ k, k ∈ s.reorder → s.recvContiguous + 1 < k
  replayBytes : s.replayBytes = mass payloadLength s.replay
  readyBytes : s.readyBytes = mass payloadLength s.ready
  reorderBytes : s.reorderBytes = mass payloadLength s.reorder
  sentBytes_le : s.sentBytes ≤ s.sendCredit
  receivedBytes_le : s.receivedBytes ≤ s.receiveCredit
  receivedBytes : s.receivedBytes = creditSum (Moment.allAdmitted seen)
  admitted_once : ((Moment.allAdmitted seen).map Frame.sequence).Nodup
  admitted : ∀ n : UInt64, (∃ f ∈ Moment.allAdmitted seen, f.sequence = n) ↔
    n ≠ 0 ∧ (n.toNat ≤ s.recvContiguous ∨ n.toNat ∈ s.reorder)
  replayFrames_le : s.replay.size ≤ s.limits.maxReplayFrames + 2
  replayBytes_le : s.replayBytes ≤ s.limits.maxReplayBytes + 2
  heldFrames_le : s.ready.size + s.reorder.size ≤ s.limits.maxReorderFrames + 2
  heldBytes_le : s.readyBytes + s.reorderBytes ≤ s.limits.maxReorderBytes + 2
  entered : (Moment.allEntered seen).map (fun f => f.sequence.toNat) =
    List.range' 1 s.recvContiguous
  afterTerminal : ∀ i j f g, (Moment.allEntered seen)[i]? = some f →
    (Moment.allEntered seen)[j]? = some g → i < j → f.kind.isTerminal = true →
      f.kind = .fin ∧ g.kind = .reset ∧ j = i + 1
  covers : KeyedMap.Covers payloadLength s.replay s.replayBytes ∧
    KeyedMap.Covers payloadLength s.ready s.readyBytes ∧
    KeyedMap.Covers payloadLength s.reorder s.reorderBytes

theorem Stands.represented {seen : List Moment} {s : DirectionState}
    (h : s.Stands (Moment.allEntered seen) (Moment.allAdmitted seen)) : s.Represented seen := by
  obtain ⟨sent, hsent⟩ := h.outbox
  have hheld := h.settled.toHeld
  have hlength : s.lastEmitted = sent.length := hsent.lastEmitted
  have hreplay : ∀ k, s.replay[k]? = if s.peerAcked < k then sent[k - 1]? else none := hsent.replay
  have hsize : s.replay.size = (sent.drop s.peerAcked).length := hsent.replay_size
  have hbytes : s.replayBytes = ((sent.drop s.peerAcked).map payloadLength).sum :=
    hsent.replayBytes_eq
  obtain ⟨hframes, hpayload⟩ := hsent.script.drop_le s.peerAcked
  have hdata : ((sent.drop s.peerAcked).map dataCount).sum ≤ s.limits.maxReplayFrames :=
    hsent.dataFrames
  have hcredit : creditSum (sent.drop s.peerAcked) ≤ s.limits.maxReplayBytes := hsent.dataBytes
  have hready : ∀ k, s.ready[k]? = none ↔
      ¬ (s.deliveredContiguous < k ∧ k ≤ s.recvContiguous) := hheld.ready
  have hreplayMass : s.replayBytes = mass payloadLength s.replay := hsent.replayBytes
  have hreadyMass : s.readyBytes = mass payloadLength s.ready := hheld.readyBytes
  have hreorderMass : s.reorderBytes = mass payloadLength s.reorder := hheld.reorderBytes
  obtain ⟨hheldFrames, hheldBytes⟩ := totals_le hheld
  exact
    { replay := by
        intro k
        rw [mem_iff_isSome_getElem?, hreplay]
        by_cases hk : s.peerAcked < k
        · rw [if_pos hk, ← not_iff_not, not_isSome_iff_eq_none, List.getElem?_eq_none_iff]
          omega
        · simp [hk]
      ready := by
        intro k
        rw [mem_iff_isSome_getElem?, ← not_iff_not, ← hready k, not_isSome_iff_eq_none]
      reorder := by
        intro k hk
        obtain ⟨f, hf⟩ := isSome_iff_exists.1 (mem_iff_isSome_getElem?.1 hk)
        have habove : s.recvContiguous < k := (hheld.reorder k f hf).above
        have hne : k ≠ s.recvContiguous + 1 := by
          intro heq
          rw [heq] at hf
          cases h.settled.gap.symm.trans hf
        omega
      replayBytes := hreplayMass
      readyBytes := hreadyMass
      reorderBytes := hreorderMass
      sentBytes_le := hsent.sentBytes_le
      receivedBytes_le := hheld.received_le
      receivedBytes := h.charges.receivedBytes
      admitted_once := h.charges.once
      admitted := by
        intro n
        rw [h.charges.has n, mem_iff_isSome_getElem?, isSome_iff_exists]
        rfl
      replayFrames_le := by omega
      replayBytes_le := by omega
      heldFrames_le := by omega
      heldBytes_le := by omega
      entered := by
        have hsequences := h.logs.script.sequences_drop 0
        rw [drop_zero, Nat.sub_zero, h.logs.length] at hsequences
        exact hsequences
      afterTerminal := fun i j f g hf hg hlt hterm =>
        h.logs.script.after_terminal hf hg hlt hterm
      covers := by
        rw [hreplayMass, hreadyMass, hreorderMass]
        exact ⟨covers_mass _ _, covers_mass _ _, covers_mass _ _⟩ }

end DirectionState

namespace StreamState

/-- Whatever calls are made on a stream, each direction keeps its representation, and its
cursors, acknowledgements and credits never go back. -/
theorem directions_represented [Sha256] {streamId : UInt64} {sendCredit receiveCredit : Nat}
    {limits : SequenceLimits} {s : StreamState}
    (hnew : withCreditsAndLimits streamId sendCredit receiveCredit limits = .ok s) (ops : List Op)
    (d : Direction) :
    ((s.run ops).direction d).Represented (s.history d ops) ∧
      ((s.run ops).direction d).limits = limits ∧
      ∀ more, ((s.run ops).direction d).Grows ((s.run (ops ++ more)).direction d) := by
  obtain ⟨hstart, hlimits⟩ := standsWith_new hnew d
  have hrun := standsWith_run hstart ops
  refine ⟨hrun.here.represented, (run_grows hstart ops).limits.trans hlimits, fun more => ?_⟩
  have hmore := run_grows hrun more
  unfold run at hmore ⊢
  rwa [Trace.run_append]

/-- Frame 2 before frame 1, a conflicting copy of frame 2, and a FIN. -/
def hostileOps : List Op :=
  [.receiveFrame .relayToConnector (.newData 1 1 7 2 0 [66, 67]),
    .receiveFrame .relayToConnector (.newData 1 1 7 2 0 [90]),
    .receiveFrame .relayToConnector (.newFin 1 1 7 3 0),
    .receiveFrame .relayToConnector (.newData 1 1 7 1 0 [65]),
    .receiveFrame .relayToConnector (.newData 1 1 7 4 0 [65]),
    .markDelivered .relayToConnector 2]

def hostileLimits : SequenceLimits :=
  { maxReplayFrames := 3, maxReplayBytes := 8, maxReorderFrames := 3, maxReorderBytes := 8 }

theorem directions_represented_hostile :
    ∃ s, withCreditsAndLimits 7 8 8 hostileLimits = .ok s ∧
      ((@run plainDigest s hostileOps).direction .relayToConnector).recvContiguous = 3 ∧
      ((@run plainDigest s hostileOps).direction .relayToConnector).receivedBytes = 3 ∧
      ((@run plainDigest s hostileOps).direction .relayToConnector).Represented
        (@history plainDigest s .relayToConnector hostileOps) :=
  ⟨_, rfl, by decide, by decide,
    (@directions_represented plainDigest 7 8 8 hostileLimits _ rfl hostileOps .relayToConnector).1⟩

/-- A call that fails leaves the stream as it was. What the preflight admits is received:
neither entering the frame nor draining the frames it completes can fail. -/
theorem failed_calls_leave_no_trace [Sha256] {streamId : UInt64} {sendCredit receiveCredit : Nat}
    {limits : SequenceLimits} {s : StreamState}
    (hnew : withCreditsAndLimits streamId sendCredit receiveCredit limits = .ok s) (ops : List Op) :
    (∀ d f e t, (sendFrame d f).run (s.run ops) = .error e t → t = s.run ops) ∧
    (∀ d f e t, (receiveFrame d f).run (s.run ops) = .error e t → t = s.run ops) ∧
    (∀ d through e t, (markDelivered d through).run (s.run ops) = .error e t → t = s.run ops) ∧
    (∀ peer e t, (reconcileAndApply peer).run (s.run ops) = .error e t → t = s.run ops) ∧
    ∀ d f disposition, f.validate = .ok () →
      ((s.run ops).direction d).preflightReceive f = .ok disposition →
        (∃ disposition t, (receive f).run ((s.run ops).direction d) = .ok disposition t) ∧
        (f.kind.sequenced = true →
          f.sequence.toNat = ((s.run ops).direction d).recvContiguous + 1 →
            ∃ t u, (acceptContiguous f true).run ((s.run ops).direction d) = .ok () t ∧
              drainReorder.run t = .ok () u) := by
  have hsettled : ∀ d, ((s.run ops).direction d).inbox.Settled := by
    have hrun := standsWith_run (standsWith_new hnew .relayToConnector).1 ops
    exact hrun.settled
  refine ⟨fun d f e t hrun => sendFrame_atomic d f _ e t hrun, fun d f e t hrun => ?_,
    fun d through e t hrun => markDelivered_atomic d through _ e t hrun, fun peer e t hrun => ?_,
    fun d f disposition hvalid hpre => ⟨?_, fun hseq hnext => ?_⟩⟩
  · rcases receiveFrame_cases f (hsettled d) with ⟨e', herr⟩ | ⟨disposition, t', _, _, _, hok⟩
    · cases herr.symm.trans hrun
      rfl
    · cases hok.symm.trans hrun
  · rcases reconcileAndApply_run (s.run ops) peer with ⟨e', herr⟩ | ⟨plan, _, hok⟩
    · cases herr.symm.trans hrun
      rfl
    · cases hok.symm.trans hrun
  · rcases receive_run (hsettled d) hvalid with ⟨e, herr, _⟩ | ⟨disposition', t, hok, _⟩
    · cases hpre.symm.trans herr
    · exact ⟨disposition', t, hok⟩
  · cases preflightReceive_admits (hsettled d).toHeld hvalid hpre with
    | unsequenced hk => cases hseq.symm.trans hk
    | duplicate _ known =>
      rcases known with hle | ⟨g, hg⟩
      · omega
      · rw [hnext] at hg
        cases (hsettled d).gap.symm.trans hg
    | buffered hb => exact absurd hnext hb.gap
    | accepted ha =>
      exact ⟨_, _, acceptContiguous_run (hsettled d).toHeld hvalid ha.next ha.follows.1 ha.room
        true (chargeReceived_run hvalid ha.covers), ha.drain_run (hsettled d) hvalid⟩

/-- A second frame 2 with other contents is refused, and nothing shows of it. -/
theorem failed_calls_leave_no_trace_conflict :
    ∃ s, withCreditsAndLimits 7 8 8 hostileLimits = .ok s ∧
      errorOf ((@receiveFrame plainDigest .relayToConnector (.newData 1 1 7 2 0 [90])).run
        (@run plainDigest s (hostileOps.take 1))) = some (.duplicateConflict 2) ∧
      ∀ e t, (@receiveFrame plainDigest .relayToConnector (.newData 1 1 7 2 0 [90])).run
        (@run plainDigest s (hostileOps.take 1)) = .error e t →
          t = @run plainDigest s (hostileOps.take 1) :=
  ⟨_, rfl, by decide, (@failed_calls_leave_no_trace plainDigest 7 8 8 hostileLimits _ rfl
    (hostileOps.take 1)).2.1 _ _⟩

end StreamState

/-! ## Room for a terminal -/

theorem DirectionState.emit_terminal {s : DirectionState} {f : Frame} {log : List Frame}
    (h : s.outbox.Tracks log) (hvalid : f.validate = .ok ()) (hterm : f.kind.isTerminal = true)
    (hfollows : mayFollow s.sendTerminal f.kind = true)
    (hnext : f.sequence.toNat = s.lastEmitted + 1) : (emit f).run s = .ok () (s.emitted f) := by
  obtain ⟨hsequenced, hdata, _⟩ := kind_of_terminal hterm
  have hterminal : s.validateSendTerminal f.kind = .ok () := validateTerminal_eq_ok.2 hfollows
  have hlt : s.lastEmitted + 1 < wordBound := hnext ▸ f.sequence.toNat_lt
  have hroom := ensureReplayCapacity_of_terminal h hvalid hterm hfollows hnext
  have hcredit : f.credit = 0 := if_neg hdata
  unfold emit emitted
  rw [if_pos hsequenced, hcredit]
  simp only [emitSequenced, bind_ok, get_ok, check_ok, orFail_ok, failIf_ok, modify_ok,
    terminalOf_of_validate hvalid, hdata, if_false]
  exact ⟨s, s, ⟨rfl, rfl⟩, (), s, ⟨hterminal, rfl⟩, _, s, ⟨checkedAdd_of_lt hlt, rfl⟩, (), s,
    ⟨not_not.2 hnext, rfl⟩, _, s, ⟨rfl, rfl⟩, (), s, ⟨And.left, rfl⟩, (), s, ⟨hroom, rfl⟩, (), _,
    rfl, (), _, rfl, (), _, rfl, _, _, ⟨rfl, rfl⟩, rfl⟩

namespace StreamState

/-- A valid FIN or RESET that is due and bears the next number is sent, whatever DATA is
retained and whatever credit remains, unless it names another stream or acknowledges more than
was received. -/
theorem terminal_always_sendable [Sha256] {streamId : UInt64} {sendCredit receiveCredit : Nat}
    {limits : SequenceLimits} {s : StreamState}
    (hnew : withCreditsAndLimits streamId sendCredit receiveCredit limits = .ok s) (ops : List Op)
    (d : Direction) (f : Frame) (hvalid : f.validate = .ok ())
    (hterm : f.kind = .fin ∧ ((s.run ops).direction d).sendTerminal = none ∨
      f.kind = .reset ∧ (((s.run ops).direction d).sendTerminal = none ∨
        ((s.run ops).direction d).sendTerminal = some .fin))
    (hnext : f.sequence.toNat = ((s.run ops).direction d).lastEmitted + 1) :
    (sendFrame d f).run (s.run ops) =
      if f.streamId ≠ (s.run ops).streamId then
        .error (.wrongStream (s.run ops).streamId f.streamId) (s.run ops)
      else if f.ack.toNat > ((s.run ops).direction d.opposite).recvContiguous then
        .error (.acknowledgementBeyondReceived f.ack.toNat
          ((s.run ops).direction d.opposite).recvContiguous) (s.run ops)
      else .ok () ((s.run ops).setDirection d (((s.run ops).direction d).emitted f)) := by
  obtain ⟨log, htracks⟩ := (standsWith_run (standsWith_new hnew d).1 ops).here.outbox
  generalize s.run ops = s at *
  have hkind : f.kind.isTerminal = true ∧ mayFollow (s.direction d).sendTerminal f.kind = true := by
    rcases hterm with ⟨hk, ht⟩ | ⟨hk, ht | ht⟩ <;> rw [hk, ht] <;> decide
  obtain ⟨_, _, hwindow⟩ := kind_of_terminal hkind.1
  have hemit := emit_terminal htracks hvalid hkind.1 hkind.2 hnext
  unfold sendFrame
  rw [run_bind_of_ok (check_ok.2 ⟨liftFrameError_ok.2 hvalid, rfl⟩),
    run_bind_of_ok (get_ok.2 ⟨rfl, rfl⟩)]
  by_cases hstream : f.streamId = s.streamId
  · rw [if_neg (not_not.2 hstream), run_bind_of_ok (b := ())
      (check_ok.2 ⟨checkStream_ok.2 hstream, rfl⟩)]
    by_cases hack : f.ack.toNat > (s.direction d.opposite).recvContiguous
    · rw [if_pos hack, failIf, if_pos hack]
      rfl
    · rw [if_neg hack, run_bind_of_ok (b := ()) (failIf_ok.2 ⟨hack, rfl⟩), if_neg hwindow]
      exact onDirection_ok.2 ⟨_, hemit, rfl⟩
  · have hcheck : s.checkStream f = .error (.wrongStream s.streamId f.streamId) := if_pos hstream
    rw [if_pos hstream, hcheck]
    rfl

/-- DATA fills the replay buffer and uses up the credit; FIN and then RESET are sent. -/
def crowdedOps : List Op :=
  [.sendFrame .relayToConnector (.newData 1 1 7 1 0 [65, 66]),
    .sendFrame .relayToConnector (.newFin 1 1 7 2 0)]

def crowdedReset : Frame := { Frame.newFin 1 1 7 3 0 with kind := .reset, payload := [0, 9] }

def crowdedLimits : SequenceLimits :=
  { maxReplayFrames := 1, maxReplayBytes := 2, maxReorderFrames := 3, maxReorderBytes := 8 }

theorem terminal_always_sendable_crowded :
    ∃ s t, withCreditsAndLimits 7 2 8 crowdedLimits = .ok s ∧
      (sendFrame .relayToConnector crowdedReset).run (@run plainDigest s crowdedOps) =
        .ok () t := by
  exact ⟨_, _, rfl, @terminal_always_sendable plainDigest 7 2 8 crowdedLimits _ rfl crowdedOps
    .relayToConnector crowdedReset (by decide) (by decide) (by decide)⟩

end StreamState

end AgentUplink
