import AgentUplink.Sequence.Honest

/-!
# Reconciling with an honest peer

`validateRecoveryPair` refuses a snapshot on any of a dozen grounds. None of them
applies to a snapshot of an honest peer: cursors, credit and terminals of the two
endpoints describe the same two scripts, seen at different points. The replay is
then the part of the script the peer has not seen.
-/

namespace AgentUplink

open Machine Fallible Std DirectionState StreamState List

/-! ## Terminals seen at different points -/

/-- What a reader of the first `n` frames has seen of the script's terminal. -/
inductive Glimpse (n length : Nat) :
    Option (Terminal × Nat) → Option (Terminal × Nat) → Prop
  | same (t : Option (Terminal × Nat)) : Glimpse n length t t
  | unseen (t : Terminal) (h : n < length) : Glimpse n length none (some (t, length))
  | finOnly (reason : UInt16) (h : n < length) :
      Glimpse n length (some (.fin, n)) (some (.reset reason, length))

variable {log : List Frame} {n : Nat} {s : DirectionState}

theorem Script.glimpse (h : Script log) (hn : n ≤ log.length) :
    Glimpse n log.length (closing (log.take n)) (closing log) := by
  have hall : closing (log.take log.length) = closing log := by rw [take_length]
  rcases eq_or_lt_of_le hn with rfl | hlt
  · rw [take_length]
    exact .same _
  cases hseen : closing (log.take n) with
  | none =>
    cases hlog : closing log with
    | none => exact .same none
    | some entry =>
      obtain ⟨t, k⟩ := entry
      obtain ⟨rfl, _⟩ := h.closing_sequence (Nat.le_refl _) (hall.trans hlog)
      exact .unseen t hlt
  | some entry =>
    obtain ⟨t, k⟩ := entry
    obtain ⟨rfl, _⟩ := h.closing_sequence hn hseen
    cases t with
    | reset reason =>
      have := h.length_le_of_reset hseen
      omega
    | fin =>
      -- Only a RESET can stand behind the FIN, and it is the last frame.
      have hlast : log.length = k + 1 := Nat.le_antisymm (h.length_le_of_fin hseen) hlt
      obtain ⟨f, hf⟩ := exists_of_lt log hlt
      have hfollow := h.order k f hf
      rw [hseen] at hfollow
      obtain ⟨_, hk⟩ := mayFollow_some hfollow
      obtain ⟨reason, hr⟩ := Frame.closing_of_reset (h.valid f (mem_of_getElem? hf)) hk
      have hlog : closing log = some (.reset reason, log.length) := by
        rw [← hall, hlast, closing_take_succ hf, hr, h.sequence k f hf]
        rfl
      rw [hlog]
      exact .finOnly reason hlt

section Terminals

variable {n length : Nat} {seen sent : Option (Terminal × Nat)}

theorem Glimpse.checks_ok (h : Glimpse n length seen sent) (d : Direction) (cursor : Nat) :
    terminalChecks d (seen.map Prod.fst) (seen.map Prod.snd) n (sent.map Prod.fst)
        (sent.map Prod.snd) cursor false = .ok () ∧
      terminalChecks d (sent.map Prod.fst) (sent.map Prod.snd) cursor (seen.map Prod.fst)
        (seen.map Prod.snd) n true = .ok () := by
  cases h with
  | same =>
    rcases seen with _ | ⟨_ | reason, k⟩ <;>
      simp [terminalChecks, terminalConflict, terminalSequenceConflict]
  | unseen t hlt | finOnly reason hlt =>
    simp [terminalChecks, terminalConflict, terminalSequenceConflict, Nat.not_le.2 hlt]

end Terminals

/-! ## An honest snapshot -/

theorem Script.evidence_ok (h : Script log) (hn : n ≤ log.length) (d : Direction) (field : String) :
    validateTerminalEvidence d ((closing (log.take n)).map Prod.fst)
      ((closing (log.take n)).map Prod.snd) n field = .ok () := by
  cases hc : closing (log.take n) with
  | none => rfl
  | some entry =>
    obtain ⟨rfl, hpos⟩ := h.closing_sequence hn hc
    exact if_pos ⟨ne_of_gt hpos, rfl⟩

theorem replayFloor_eq (h : s.outbox.Tracks log) :
    expectedReplayFloor s.snapshot = .ok s.replayFloor := by
  have hlen : s.lastEmitted = log.length := h.lastEmitted
  have hlt := h.script.length_lt
  have hlist : s.replay.toList =
      KeyedMap.numbered (s.peerAcked + 1) (log.drop s.peerAcked) := h.replay_toList
  have hfloor : s.replayFloor =
      ((KeyedMap.numbered (s.peerAcked + 1) (log.drop s.peerAcked)).map Prod.fst).head? := by
    unfold replayFloor
    rw [← ExtTreeMap.map_fst_toList_eq_keys, hlist]
  show (if s.lastEmitted > s.peerAcked then _ else _) = _
  by_cases hgt : s.lastEmitted > s.peerAcked
  · have hdrop := drop_eq_getElem_cons (l := log) (i := s.peerAcked) (by omega)
    rw [if_pos hgt, show s.snapshot.peerAcked = s.peerAcked from rfl, checkedAdd_of_lt (by omega),
      hfloor, hdrop]
    rfl
  · rw [if_neg hgt, hfloor, drop_eq_nil_of_le (by omega)]
    rfl

theorem snapshot_valid [Sha256] {sent received entered : List Frame} (hout : s.outbox.Tracks sent)
    (hheld : s.inbox.Held) (hin : s.inbox.Agrees received entered) (hscript : Script received)
    (d : Direction) : validateSnapshotInvariants d s.snapshot = .ok () := by
  have hlen : s.lastEmitted = sent.length := hout.lastEmitted
  have hacked : s.peerAcked ≤ sent.length := hout.peerAcked_le
  have hdelivered : s.deliveredContiguous ≤ s.recvContiguous := hheld.delivered_le
  have hsent : s.sentBytes ≤ s.sendCredit := hout.sentBytes_le
  have hreceived : s.receivedBytes ≤ s.receiveCredit := hheld.received_le
  have hsend := hout.script.evidence_ok (Nat.le_refl _) d "send_terminal"
  rw [take_length, ← hlen] at hsend
  have hreceive := hscript.evidence_ok hin.recv_le d "receive_terminal"
  have hterminal : s.sendTerminal = (closing sent).map Prod.fst := hout.terminal
  have hterminalSequence : s.sendTerminalSequence = (closing sent).map Prod.snd :=
    hout.terminalSequence
  rw [← hterminal, ← hterminalSequence] at hsend
  rw [← hin.terminal, ← hin.terminalSequence] at hreceive
  unfold validateSnapshotInvariants
  rw [if_neg (by show ¬ s.peerAcked > s.lastEmitted; omega),
    if_neg (by show ¬ s.deliveredContiguous > s.recvContiguous; omega),
    if_neg (by show ¬ s.sentBytes > s.sendCredit; omega),
    if_neg (by show ¬ s.receivedBytes > s.receiveCredit; omega), replayFloor_eq hout]
  show (if s.replayFloor ≠ s.replayFloor then _ else _) = _
  rw [if_neg (not_not.2 rfl)]
  show (validateTerminalEvidence d s.sendTerminal s.sendTerminalSequence s.lastEmitted
    "send_terminal").bind _ = _
  rw [hsend]
  exact hreceive

namespace Link

variable [Sha256] {l : Link}

/-- None of the grounds for refusing a snapshot applies to an honest peer's. -/
theorem Sound.pair_ok (h : l.Sound) (hg : l.Granted) (e : Endpoint) (d : Direction) :
    validateRecoveryPair d (l.dir e d) (l.dir e.peer d).snapshot = .ok () := by
  have hhere := h.receiver e d
  have hpeer := h.receiver e.peer d
  have hacked := h.acked e d
  have hpeerAcked := h.acked e.peer d
  have hgrant := hg e.peer d
  rw [Endpoint.peer_peer] at hpeer hpeerAcked hgrant
  have hlen : (l.dir e d).lastEmitted = (l.log e d).length := (h.sender e d).lastEmitted
  have hpeerLen : (l.dir e.peer d).lastEmitted = (l.log e.peer d).length :=
    (h.sender e.peer d).lastEmitted
  have hrecv : (l.dir e d).recvContiguous ≤ (l.log e.peer d).length := hhere.recv_le
  have hpeerRecv : (l.dir e.peer d).recvContiguous ≤ (l.log e d).length := hpeer.recv_le
  have hsnapshot := snapshot_valid (h.sender e.peer d) (h.settled e.peer d).toHeld
    hpeer.toAgrees (h.sender e d).script d
  -- Either side's terminal, and what the other side has seen of it.
  obtain ⟨hreceiver, -⟩ := ((h.sender e.peer d).script.glimpse hhere.recv_le).checks_ok d
    (l.dir e.peer d).recvContiguous
  obtain ⟨-, hsender⟩ := ((h.sender e d).script.glimpse hpeer.recv_le).checks_ok d
    (l.dir e d).lastEmitted
  rw [← hhere.terminal, ← hhere.terminalSequence, ← (h.sender e.peer d).terminal,
    ← (h.sender e.peer d).terminalSequence] at hreceiver
  rw [← hpeer.terminal, ← hpeer.terminalSequence, ← (h.sender e d).terminal,
    ← (h.sender e d).terminalSequence] at hsender
  simp only [inbox, outbox] at hreceiver hsender
  unfold validateRecoveryPair
  rw [hsnapshot]
  show (if (l.dir e.peer d).recvContiguous > (l.dir e d).lastEmitted then _ else _) = _
  rw [if_neg (by omega)]
  show (if (l.dir e d).recvContiguous > (l.dir e.peer d).lastEmitted then _ else _) = _
  rw [if_neg (by omega)]
  show (if (l.dir e.peer d).recvContiguous < (l.dir e d).peerAcked then _ else _) = _
  rw [if_neg (by omega)]
  show (if (l.dir e d).recvContiguous < (l.dir e.peer d).peerAcked then _ else _) = _
  rw [if_neg (by omega)]
  show (if (l.dir e d).receiveCredit < (l.dir e.peer d).sendCredit then _ else _) = _
  rw [if_neg (by omega)]
  show (terminalChecks d (l.dir e d).receiveTerminal (l.dir e d).receiveTerminalSequence
    (l.dir e d).recvContiguous (l.dir e.peer d).sendTerminal (l.dir e.peer d).sendTerminalSequence
    (l.dir e.peer d).recvContiguous false).bind _ = _
  rw [hreceiver]
  exact hsender

/-- The part of direction `d` that the peer behind `remote` still has to send. -/
def missingFrom (here : DirectionState) (remote : DirectionSnapshot) : Option SequenceRange :=
  if here.recvContiguous < remote.lastEmitted then
    some { first := here.recvContiguous + 1, through := remote.lastEmitted }
  else none

theorem Sound.reconcileDirection_eq (h : l.Sound) (hg : l.Granted) (e : Endpoint) (d : Direction) :
    reconcileDirection d (l.dir e d) (l.dir e.peer d).snapshot =
      .ok ((l.log e d).drop (l.dir e.peer d).recvContiguous,
        missingFrom (l.dir e d) (l.dir e.peer d).snapshot) := by
  have hacked := h.acked e d
  have hlen : (l.dir e d).lastEmitted = (l.log e d).length := (h.sender e d).lastEmitted
  have hlt := (h.sender e d).script.length_lt
  have hpeerLen : (l.dir e.peer d).snapshot.lastEmitted = (l.log e.peer d).length :=
    (h.sender e.peer d).lastEmitted
  have hpeerLt := (h.sender e.peer d).script.length_lt
  have hcursor : (l.dir e.peer d).snapshot.recvContiguous = (l.dir e.peer d).recvContiguous := rfl
  have hreplay : replayFor (l.dir e d) (l.dir e.peer d).snapshot =
      .ok ((l.log e d).drop (l.dir e.peer d).recvContiguous) := by
    unfold replayFor
    split
    next hbehind =>
      rw [checkedAdd_of_lt (by omega)]
      exact retainedReplay_eq_drop (h.sender e d) hacked hbehind
    next hlevel => rw [drop_eq_nil_of_le (by omega)]
  have hmissing : missingFor (l.dir e d) (l.dir e.peer d).snapshot =
      .ok (missingFrom (l.dir e d) (l.dir e.peer d).snapshot) := by
    unfold missingFor missingFrom
    split
    · rw [checkedAdd_of_lt (by omega)]
    · rfl
  unfold reconcileDirection
  rw [h.pair_ok hg e d, hreplay, hmissing]
  rfl

/-- The plan an endpoint makes from its peer's snapshot. -/
theorem Sound.reconcile_eq (h : l.Sound) (hg : l.Granted) (e : Endpoint) :
    ∃ plan, (l.state e).reconcile (l.state e.peer).snapshot = .ok plan ∧ ∀ d,
      plan.replay.get d = (l.log e d).drop (l.dir e.peer d).recvContiguous ∧
        plan.peerMissing.get d = missingFrom (l.dir e d) (l.dir e.peer d).snapshot := by
  have hrelay := h.reconcileDirection_eq hg e .relayToConnector
  have hconnector := h.reconcileDirection_eq hg e .connectorToRelay
  let replay : PerDirection (List Frame) :=
    { relayToConnector := (l.log e .relayToConnector).drop
        (l.dir e.peer .relayToConnector).recvContiguous
      connectorToRelay := (l.log e .connectorToRelay).drop
        (l.dir e.peer .connectorToRelay).recvContiguous }
  let missing : PerDirection (Option SequenceRange) :=
    { relayToConnector := missingFrom (l.dir e .relayToConnector)
        (l.dir e.peer .relayToConnector).snapshot
      connectorToRelay := missingFrom (l.dir e .connectorToRelay)
        (l.dir e.peer .connectorToRelay).snapshot }
  have hstream : (l.state e.peer).snapshot.streamId = (l.state e).streamId := h.stream e
  refine ⟨{ streamId := (l.state e).streamId, replay, peerMissing := missing }, ?_, ?_⟩
  · unfold reconcile
    rw [if_neg (not_not.2 hstream)]
    show Except.bind (reconcileDirection .relayToConnector (l.dir e .relayToConnector)
      (l.dir e.peer .relayToConnector).snapshot) _ = _
    rw [hrelay]
    show Except.bind (reconcileDirection .connectorToRelay (l.dir e .connectorToRelay)
      (l.dir e.peer .connectorToRelay).snapshot) _ = _
    rw [hconnector]
    rfl
  · intro d
    cases d <;> exact ⟨rfl, rfl⟩

end Link

end AgentUplink
