import AgentUplink.Protocol.ResumeState
import AgentUplink.Sequence.Recovery
import AgentUplink.Sequence.Representation

/-!
# A direction's snapshot over the wire

After any run a direction's snapshot converts to the tuple RESUME carries, the tuple
reads back, and `reconcile` cannot tell the snapshot converted back from the original.
-/

namespace AgentUplink

open Machine Fallible DirectionState

theorem Script.evidence {log : List Frame} (h : Script log) :
    (closing log).map Prod.snd =
        (if ((closing log).map Prod.fst).isSome then some log.length else none) ∧
      (((closing log).map Prod.fst).isSome → log.length ≠ 0) := by
  cases hc : closing log with
  | none => exact ⟨rfl, fun h => (nomatch h)⟩
  | some entry =>
    obtain ⟨t, k⟩ := entry
    obtain ⟨rfl, hpos⟩ := h.closing_sequence (le_refl _) (by rwa [List.take_length])
    exact ⟨rfl, fun _ => ne_of_gt hpos⟩

namespace DirectionState

variable {s t : DirectionState} {entered admitted : List Frame}

structure CreditWords (s : DirectionState) : Prop where
  send : s.sendCredit < wordBound
  receive : s.receiveCredit < wordBound

theorem CreditWords.of_inbox (h : s.CreditWords) (hin : t.inbox = s.inbox)
    (hsend : t.sendCredit < wordBound) : t.CreditWords where
  send := hsend
  receive := by
    have hcredit : t.receiveCredit = s.receiveCredit := congrArg Inbox.receiveCredit hin
    rw [hcredit]
    exact h.receive

theorem CreditWords.of_outbox (h : s.CreditWords) (hout : t.outbox = s.outbox)
    (hreceive : t.receiveCredit < wordBound) : t.CreditWords where
  send := by
    have hcredit : t.sendCredit = s.sendCredit := congrArg Outbox.sendCredit hout
    rw [hcredit]
    exact h.send
  receive := hreceive

theorem Turn.creditWords [Sha256] {admits : Option Frame} (hturn : s.Turn admits t)
    (h : s.CreditWords) : t.CreditWords := by
  have hword : ∀ n : UInt64, n.toNat < wordBound := fun n => n.toNat_lt
  cases hturn with
  | stay => exact h
  | emit _ _ _ => exact h.of_inbox (inbox_emitted _ s) (by rw [emitted_sendCredit]; exact h.send)
  | ack _ => exact h.of_inbox (inbox_acked _ s) (by rw [acked_sendCredit]; exact h.send)
  | credit limit =>
    refine h.of_inbox (inbox_credited _ s) ?_
    have := credited_sendCredit limit.toNat s
    have := hword limit
    have := h.send
    omega
  | @credits f _ =>
    refine h.of_inbox (StreamState.inbox_credits _ s) ?_
    unfold StreamState.credits
    split
    · have := credited_sendCredit f.window.toNat (s.acked f.ack.toNat)
      rw [acked_sendCredit] at this
      have := hword f.window
      have := h.send
      omega
    · rw [acked_sendCredit]
      exact h.send
  | advertise limit =>
    refine h.of_outbox (outbox_advertised _ s) ?_
    unfold advertised
    split
    · exact hword limit
    · exact h.receive
  | deliver _ =>
    refine h.of_outbox (outbox_delivered _ s) ?_
    unfold delivered
    split <;> exact h.receive
  | receive _ hr =>
    refine h.of_outbox hr.outbox_eq ?_
    rw [hr.receiveCredit_eq]
    exact h.receive

def resumeState (streamId : UInt64) (s : DirectionState) : ResumeDirectionState :=
  { streamId
    lastEmitted := s.lastEmitted
    peerAcked := s.peerAcked
    recvContiguous := s.recvContiguous
    deliveredContiguous := s.deliveredContiguous
    sentBytes := s.sentBytes
    receivedBytes := s.receivedBytes
    sendCredit := s.sendCredit
    receiveCredit := s.receiveCredit
    sendTerminal := s.sendTerminal
    receiveTerminal := s.receiveTerminal
    replayFloor := s.replayFloor }

structure Evidence (s : DirectionState) : Prop where
  send : s.sendTerminalSequence = if s.sendTerminal.isSome then some s.lastEmitted else none
  send_pos : s.sendTerminal.isSome → s.lastEmitted ≠ 0
  receive : s.receiveTerminalSequence =
    if s.receiveTerminal.isSome then some s.recvContiguous else none
  receive_pos : s.receiveTerminal.isSome → s.recvContiguous ≠ 0

theorem Stands.evidence (h : s.Stands entered admitted) : s.Evidence := by
  obtain ⟨sent, hsent⟩ := h.outbox
  have hemitted : s.lastEmitted = sent.length := hsent.lastEmitted
  have hterminal : s.sendTerminal = (closing sent).map Prod.fst := hsent.terminal
  have hsequence : s.sendTerminalSequence = (closing sent).map Prod.snd := hsent.terminalSequence
  have hrecv : s.recvContiguous = entered.length := h.logs.length.symm
  have hterminal' : s.receiveTerminal = (closing entered).map Prod.fst := h.logs.terminal
  have hsequence' : s.receiveTerminalSequence = (closing entered).map Prod.snd :=
    h.logs.terminalSequence
  obtain ⟨hsend, hpos⟩ := hsent.script.evidence
  obtain ⟨hreceive, hpos'⟩ := h.logs.script.evidence
  rw [← hterminal, ← hsequence, ← hemitted] at hsend
  rw [← hterminal, ← hemitted] at hpos
  rw [← hterminal', ← hsequence', ← hrecv] at hreceive
  rw [← hterminal', ← hrecv] at hpos'
  exact ⟨hsend, hpos, hreceive, hpos'⟩

theorem Stands.derivedReplayFloor (h : s.Stands entered admitted) (streamId : UInt64) :
    s.replayFloor = (s.resumeState streamId).derivedReplayFloor := by
  obtain ⟨sent, hsent⟩ := h.outbox
  have hemitted : s.lastEmitted = sent.length := hsent.lastEmitted
  have hlt := hsent.script.length_lt
  have hfloor := replayFloor_eq hsent
  have hacked : s.snapshot.peerAcked = s.peerAcked := rfl
  have hlast : s.snapshot.lastEmitted = s.lastEmitted := rfl
  rw [expectedReplayFloor, hacked, hlast] at hfloor
  show _ = if s.lastEmitted > s.peerAcked then checkedAdd s.peerAcked 1 else none
  by_cases hgt : s.lastEmitted > s.peerAcked
  · rw [if_pos hgt, checkedAdd_of_lt (by omega)] at hfloor ⊢
    exact (Except.ok.inj hfloor).symm
  · rw [if_neg hgt] at hfloor ⊢
    exact (Except.ok.inj hfloor).symm

theorem Stands.validate (h : s.Stands entered admitted) {streamId : UInt64} (hid : streamId ≠ 0) :
    (s.resumeState streamId).validate = .ok () := by
  obtain ⟨sent, hsent⟩ := h.outbox
  have hheld := h.settled.toHeld
  have hevidence := h.evidence
  have hemitted : s.lastEmitted = sent.length := hsent.lastEmitted
  have hacked : s.peerAcked ≤ sent.length := hsent.peerAcked_le
  have hdelivered : s.deliveredContiguous ≤ s.recvContiguous := hheld.delivered_le
  have hcredit : s.sentBytes ≤ s.sendCredit := hsent.sentBytes_le
  have hcredit' : s.receivedBytes ≤ s.receiveCredit := hheld.received_le
  have hnonzero : validateNonzero "stream_id" streamId.toNat = .ok () :=
    if_neg fun hzero => hid (UInt64.toNat_inj.1 hzero)
  show (validateNonzero "stream_id" streamId.toNat).bind _ = _
  rw [hnonzero]
  show (if s.peerAcked > s.lastEmitted then _ else _) = _
  rw [if_neg (by omega)]
  show (if s.deliveredContiguous > s.recvContiguous then _ else _) = _
  rw [if_neg (by omega)]
  show (if s.sentBytes > s.sendCredit then _ else _) = _
  rw [if_neg (by omega)]
  show (if s.receivedBytes > s.receiveCredit then _ else _) = _
  rw [if_neg (by omega)]
  rw [if_neg fun hzero => hevidence.send_pos hzero.1 hzero.2]
  rw [if_neg fun hzero => hevidence.receive_pos hzero.1 hzero.2]
  exact if_neg (not_not.2 (h.derivedReplayFloor streamId))

theorem Stands.fromSequenceSnapshot (h : s.Stands entered admitted) {streamId : UInt64}
    (hid : streamId ≠ 0) :
    ResumeDirectionState.fromSequenceSnapshot streamId s.snapshot =
      .ok (s.resumeState streamId) := by
  have hevidence := h.evidence
  have hsend := hevidence.send
  have hreceive := hevidence.receive
  show (if s.sendTerminal.isSome ∧ s.sendTerminalSequence ≠ some s.lastEmitted then _ else _) = _
  rw [if_neg fun hmismatch => hmismatch.2 (by rw [hsend, if_pos hmismatch.1])]
  show (if s.receiveTerminal.isSome ∧ s.receiveTerminalSequence ≠ some s.recvContiguous then _
    else _) = _
  rw [if_neg fun hmismatch => hmismatch.2 (by rw [hreceive, if_pos hmismatch.1])]
  show (if s.sendTerminal.isNone ∧ s.sendTerminalSequence.isSome then _ else _) = _
  rw [if_neg (by rw [hsend]; cases s.sendTerminal <;> simp)]
  show (if s.receiveTerminal.isNone ∧ s.receiveTerminalSequence.isSome then _ else _) = _
  rw [if_neg (by rw [hreceive]; cases s.receiveTerminal <;> simp)]
  show (s.resumeState streamId).validate.bind _ = _
  rw [h.validate hid]
  rfl

theorem Stands.sendable (h : s.Stands entered admitted) (hw : s.CreditWords) (streamId : UInt64) :
    (s.resumeState streamId).Sendable := by
  obtain ⟨sent, hsent⟩ := h.outbox
  have hheld := h.settled.toHeld
  have hemitted : s.lastEmitted = sent.length := hsent.lastEmitted
  have hlt := hsent.script.length_lt
  have hacked : s.peerAcked ≤ sent.length := hsent.peerAcked_le
  have hrecv : s.recvContiguous < wordBound := hheld.recv_lt
  have hdelivered : s.deliveredContiguous ≤ s.recvContiguous := hheld.delivered_le
  have hcredit : s.sentBytes ≤ s.sendCredit := hsent.sentBytes_le
  have hcredit' : s.receivedBytes ≤ s.receiveCredit := hheld.received_le
  have hsend := hw.send
  have hreceive := hw.receive
  exact
    { lastEmitted := by show s.lastEmitted < _; omega
      peerAcked := by show s.peerAcked < _; omega
      recvContiguous := hrecv
      deliveredContiguous := by show s.deliveredContiguous < _; omega
      sentBytes := by show s.sentBytes < _; omega
      receivedBytes := by show s.receivedBytes < _; omega
      sendCredit := hsend
      receiveCredit := hreceive
      replayFloor := h.derivedReplayFloor streamId }

/-- A snapshot without the sizes of the buffers, which no comparison reads. -/
def compared (snapshot : DirectionSnapshot) : DirectionSnapshot :=
  { snapshot with replayBytes := 0, reorderFrames := 0, reorderBytes := 0 }

theorem Stands.snapshot_back (h : s.Stands entered admitted) (streamId : UInt64) :
    Connector.directionSnapshotFromResume (s.resumeState streamId) = compared s.snapshot ∧
      Relay.directionSnapshotFromResume (s.resumeState streamId) = compared s.snapshot := by
  have hsend : s.snapshot.sendTerminalSequence = _ := h.evidence.send
  have hreceive : s.snapshot.receiveTerminalSequence = _ := h.evidence.receive
  unfold compared
  rw [hsend, hreceive]
  exact ⟨rfl, rfl⟩

end DirectionState

namespace StreamSnapshot

def withDirection (peer : StreamSnapshot) (d : Direction) (snapshot : DirectionSnapshot) :
    StreamSnapshot :=
  { peer with directions := peer.directions.set d snapshot }

end StreamSnapshot

namespace StreamState

variable [Sha256]

omit [Sha256] in
theorem reconcile_compared (t : StreamState) (peer : StreamSnapshot) (d : Direction)
    (snapshot : DirectionSnapshot) :
    t.reconcile (peer.withDirection d (compared snapshot)) =
      t.reconcile (peer.withDirection d snapshot) := by
  cases d <;> rfl

theorem creditWords_run {s : StreamState} {seen : List Moment} {d : Direction}
    (h : StandsWith d seen s) (hwords : (s.direction d).CreditWords) (ops : List Op) :
    ((s.run ops).direction d).CreditWords := by
  induction ops generalizing s seen with
  | nil => exact hwords
  | cons op ops ih => exact ih (h.next op) ((op.turn h.settled d).creditWords hwords)

/-- After any run a direction's snapshot is accepted, valid and read back from its tuple, and
`reconcile` answers for either conversion back what it answers for the snapshot itself, on any
local state and beside any other direction. A tuple that is read is the only one for its value. -/
theorem snapshots_survive_wire {streamId sendCredit receiveCredit : UInt64}
    {limits : SequenceLimits} {s : StreamState}
    (hnew : withCreditsAndLimits streamId sendCredit.toNat receiveCredit.toNat limits = .ok s)
    (ops : List Op) (d : Direction) :
    (∃ r, ResumeDirectionState.fromSequenceSnapshot streamId ((s.run ops).direction d).snapshot =
          .ok r ∧
        r.validate = .ok () ∧
        ResumeDirectionState.deserialize r.serialize = .ok r ∧
        ∀ (t : StreamState) (peer : StreamSnapshot),
          t.reconcile (peer.withDirection d (Connector.directionSnapshotFromResume r)) =
              t.reconcile (peer.withDirection d ((s.run ops).direction d).snapshot) ∧
            t.reconcile (peer.withDirection d (Relay.directionSnapshotFromResume r)) =
              t.reconcile (peer.withDirection d ((s.run ops).direction d).snapshot)) ∧
      ∀ tuple r, ResumeDirectionState.deserialize tuple = .ok r → tuple = r.serialize := by
  obtain ⟨hstart, -⟩ := standsWith_new hnew d
  have hrun := (standsWith_run hstart ops).here
  obtain ⟨hid, _, _, hdirection⟩ := withCreditsAndLimits_ok hnew
  have hwords : ((s.run ops).direction d).CreditWords := by
    refine creditWords_run hstart ?_ ops
    rw [hdirection]
    exact ⟨sendCredit.toNat_lt, receiveCredit.toNat_lt⟩
  refine ⟨⟨_, hrun.fromSequenceSnapshot hid, hrun.validate hid, ?_, fun t peer => ?_⟩,
    fun tuple r h => (ResumeDirectionState.deserialize_ok.1 h).2⟩
  · exact ResumeDirectionState.deserialize_ok.2 ⟨hrun.sendable hwords streamId, rfl⟩
  · obtain ⟨hconnector, hrelay⟩ := hrun.snapshot_back streamId
    rw [hconnector, hrelay]
    exact ⟨reconcile_compared t peer d _, reconcile_compared t peer d _⟩

omit [Sha256] in
/-- The run whose receiving side ends with a FIN at sequence number 3. -/
theorem snapshots_survive_wire_hostile :
    ∃ s, withCreditsAndLimits 7 (8 : UInt64).toNat (8 : UInt64).toNat hostileLimits = .ok s ∧
      ∃ r, ResumeDirectionState.fromSequenceSnapshot 7
          ((@run plainDigest s hostileOps).direction .relayToConnector).snapshot = .ok r ∧
        ResumeDirectionState.deserialize r.serialize = .ok r := by
  refine ⟨_, rfl, ?_⟩
  obtain ⟨⟨r, hr, _, hback, _⟩, _⟩ :=
    @snapshots_survive_wire plainDigest 7 8 8 hostileLimits _ rfl hostileOps .relayToConnector
  exact ⟨r, hr, hback⟩

end StreamState

end AgentUplink
