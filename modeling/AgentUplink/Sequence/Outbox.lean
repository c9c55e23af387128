import AgentUplink.Sequence.Script

/-!
# The sending half of a direction

`Outbox` is the part of a `DirectionState` that sending reads and writes.
`Outbox.Tracks log` says that it retains exactly the unacknowledged end of the
script `log`, and that the retained DATA stays within the replay limits.
-/

namespace AgentUplink

open Machine Fallible Std DirectionState List KeyedMap

namespace SequenceLimits

theorem bounds_of_validate {limits : SequenceLimits} (h : limits.validate = .ok ()) :
    limits.maxReplayFrames ≤ 128 ∧ limits.maxReplayBytes ≤ 1048576 ∧
      limits.maxReorderFrames ≤ 128 ∧ limits.maxReorderBytes ≤ 1048576 := by
  have hle : ∀ entry ∈ limits.checks, entry.2.1 ≤ entry.2.2 := by
    rintro ⟨field, requested, maximum⟩ hentry
    exact le_of_not_gt (ite_error_ok.1 (forM_ok.1 h _ hentry)).1
  simp only [checks, mem_cons, not_mem_nil, or_false, forall_eq_or_imp, forall_eq] at hle
  omega

end SequenceLimits

structure Outbox where
  limits : SequenceLimits
  lastEmitted : Nat
  peerAcked : Nat
  sendCredit : Nat
  sentBytes : Nat
  terminal : Option Terminal
  terminalSequence : Option Nat
  replay : ExtTreeMap Nat Frame
  replayBytes : Nat

def DirectionState.outbox (s : DirectionState) : Outbox :=
  { limits := s.limits, lastEmitted := s.lastEmitted, peerAcked := s.peerAcked,
    sendCredit := s.sendCredit, sentBytes := s.sentBytes, terminal := s.sendTerminal,
    terminalSequence := s.sendTerminalSequence, replay := s.replay, replayBytes := s.replayBytes }

namespace Outbox

structure Tracks (log : List Frame) (o : Outbox) : Prop where
  script : Script log
  limits : o.limits.validate = .ok ()
  lastEmitted : o.lastEmitted = log.length
  peerAcked_le : o.peerAcked ≤ log.length
  replay : ∀ k, o.replay[k]? = if o.peerAcked < k then log[k - 1]? else none
  replayBytes : o.replayBytes = mass payloadLength o.replay
  sentBytes : o.sentBytes = creditSum log
  sentBytes_le : o.sentBytes ≤ o.sendCredit
  sentBytes_lt : o.sentBytes < wordBound
  terminal : o.terminal = (closing log).map Prod.fst
  terminalSequence : o.terminalSequence = (closing log).map Prod.snd
  dataFrames : ((log.drop o.peerAcked).map dataCount).sum ≤ o.limits.maxReplayFrames
  dataBytes : creditSum (log.drop o.peerAcked) ≤ o.limits.maxReplayBytes

namespace Tracks

variable {log : List Frame} {o : Outbox}

section

variable (h : Tracks log o)
include h

theorem replay_toList : o.replay.toList = numbered (o.peerAcked + 1) (log.drop o.peerAcked) :=
  toList_eq_numbered h.replay

theorem replay_size : o.replay.size = (log.drop o.peerAcked).length := by
  rw [← ExtTreeMap.length_toList, h.replay_toList, ← length_map Prod.snd, map_snd_numbered]

theorem replayBytes_eq : o.replayBytes = ((log.drop o.peerAcked).map payloadLength).sum := by
  rw [h.replayBytes, mass, h.replay_toList]
  conv_rhs => rw [← map_snd_numbered (o.peerAcked + 1) (log.drop o.peerAcked)]
  rw [map_map]
  rfl

theorem mem_replay {k : Nat} {f : Frame} (hf : o.replay[k]? = some f) :
    o.peerAcked < k ∧ log[k - 1]? = some f := by
  rw [h.replay] at hf
  by_cases hk : o.peerAcked < k
  · rw [if_pos hk] at hf
    exact ⟨hk, hf⟩
  · rw [if_neg hk] at hf
    cases hf

end

end Tracks

end Outbox

/-! ## Opening -/

theorem outbox_new_tracks (sendCredit receiveCredit : Nat) {limits : SequenceLimits}
    (h : limits.validate = .ok ()) :
    (DirectionState.new sendCredit receiveCredit limits).outbox.Tracks [] where
  script := .nil
  limits := h
  lastEmitted := rfl
  peerAcked_le := Nat.le_refl 0
  replay k := by
    show (∅ : ExtTreeMap Nat Frame)[k]? = _
    rw [ExtTreeMap.getElem?_empty, List.getElem?_nil, ite_self]
  replayBytes := (mass_empty payloadLength).symm
  sentBytes := rfl
  sentBytes_le := Nat.zero_le _
  sentBytes_lt := by show 0 < wordBound; decide
  terminal := rfl
  terminalSequence := rfl
  dataFrames := Nat.zero_le _
  dataBytes := Nat.zero_le _

namespace DirectionState

/-! ## Acknowledgement and credit -/

def acked (ack : Nat) (s : DirectionState) : DirectionState :=
  if ack > s.peerAcked then { s with peerAcked := ack }.pruneReplay else s

variable {s t : DirectionState} {u : Unit} {log : List Frame} {f : Frame}

theorem applyAck_ok {ack : Nat} :
    (applyAck ack).run s = .ok u t ↔ ack ≤ s.lastEmitted ∧ s.acked ack = t := by
  simp only [applyAck, bind_ok, get_ok, failIf_ok, modify_ok]
  constructor
  · rintro ⟨_, _, ⟨rfl, rfl⟩, _, _, ⟨hle, rfl⟩, rfl⟩
    exact ⟨by omega, rfl⟩
  · rintro ⟨hle, rfl⟩
    exact ⟨s, s, ⟨rfl, rfl⟩, (), s, ⟨by omega, rfl⟩, rfl⟩

theorem applyAck_atomic (ack : Nat) : Atomic (applyAck ack) :=
  reads_get.bind_atomic fun _ => (reads_failIf _ _).bind_atomic fun _ => (total_modify _).atomic

theorem acked_tracks {ack : Nat} (h : s.outbox.Tracks log) (hack : ack ≤ s.lastEmitted) :
    (s.acked ack).outbox.Tracks log := by
  unfold acked
  by_cases hgt : ack > s.peerAcked
  · have hlen : s.lastEmitted = log.length := h.lastEmitted
    rw [if_pos hgt]
    exact
      { h with
        peerAcked_le := by
          show ack ≤ log.length
          omega
        replay := by
          intro k
          have hk : s.replay[k]? = if s.peerAcked < k then log[k - 1]? else none := h.replay k
          show (dropThrough payloadLength ack s.replay s.replayBytes).1[k]? =
            if ack < k then log[k - 1]? else none
          rw [get_dropThrough]
          by_cases hle : k ≤ ack
          · rw [if_pos hle, if_neg (by omega)]
          · rw [if_neg hle, if_pos (by omega), hk, if_pos (by omega)]
        replayBytes := by
          have hb : s.replayBytes = mass payloadLength s.replay := h.replayBytes
          rw [hb]
          exact dropThrough_total payloadLength ack s.replay
        dataFrames := Nat.le_trans (sum_drop_le dataCount log (Nat.le_of_lt hgt)) h.dataFrames
        dataBytes := Nat.le_trans (sum_drop_le Frame.credit log (Nat.le_of_lt hgt)) h.dataBytes }
  · rw [if_neg hgt]
    exact h

theorem acked_peerAcked (ack : Nat) (s : DirectionState) :
    (s.acked ack).peerAcked = max ack s.peerAcked := by
  unfold acked
  by_cases hgt : ack > s.peerAcked
  · rw [if_pos hgt]
    show ack = _
    omega
  · rw [if_neg hgt]
    omega

theorem acked_sendCredit (ack : Nat) (s : DirectionState) :
    (s.acked ack).sendCredit = s.sendCredit := by
  unfold acked
  split <;> rfl

def credited (limit : Nat) (s : DirectionState) : DirectionState :=
  if limit > s.sendCredit then { s with sendCredit := limit } else s

theorem credited_tracks (limit : Nat) (h : s.outbox.Tracks log) :
    (s.credited limit).outbox.Tracks log := by
  unfold credited
  by_cases hgt : limit > s.sendCredit
  · rw [if_pos hgt]
    have hle : s.sentBytes ≤ s.sendCredit := h.sentBytes_le
    exact { h with
      sentBytes_le := by
        show s.sentBytes ≤ limit
        omega }
  · rw [if_neg hgt]
    exact h

theorem credited_sendCredit (limit : Nat) (s : DirectionState) :
    (s.credited limit).sendCredit = max limit s.sendCredit := by
  unfold credited
  by_cases hgt : limit > s.sendCredit
  · rw [if_pos hgt]
    show limit = _
    omega
  · rw [if_neg hgt]
    omega

/-! ## Emission -/

def emitted (f : Frame) (s : DirectionState) : DirectionState :=
  closeSend f f.closing
    (retainReplay f
      { s with sentBytes := s.sentBytes + f.credit, lastEmitted := f.sequence.toNat })

theorem emitted_peerAcked (f : Frame) (s : DirectionState) :
    (s.emitted f).peerAcked = s.peerAcked := by
  unfold emitted closeSend
  cases f.closing <;> rfl

theorem emitted_sendCredit (f : Frame) (s : DirectionState) :
    (s.emitted f).sendCredit = s.sendCredit := by
  unfold emitted closeSend
  cases f.closing <;> rfl

/-- What `emit` has checked about a frame it accepts. -/
structure Emittable (s : DirectionState) (f : Frame) : Prop where
  follows : mayFollow s.sendTerminal f.kind = true
  next : f.sequence.toNat = s.lastEmitted + 1
  charged : f.kind = .data →
    s.sentBytes + f.credit < wordBound ∧ s.sentBytes + f.credit ≤ s.sendCredit
  room : s.ensureReplayCapacity f = .ok ()

theorem emitSequenced_ok (hvalid : f.validate = .ok ()) (h : (emitSequenced f).run s = .ok u t) :
    Emittable s f ∧ s.emitted f = t := by
  simp only [emitSequenced, bind_ok, get_ok, check_ok, orFail_ok, failIf_ok, modify_ok,
    terminalOf_of_validate hvalid, checkedAdd_eq_some] at h
  obtain ⟨_, _, ⟨rfl, rfl⟩, _, _, ⟨hfollows, rfl⟩, _, _, ⟨⟨hexpected, rfl⟩, rfl⟩, _, _,
    ⟨hnext, rfl⟩, attempted, _, ⟨hattempted, rfl⟩, _, _, ⟨hcredit, rfl⟩, _, _, ⟨hroom, rfl⟩,
    _, _, rfl, _, _, rfl, _, _, rfl, _, _, ⟨hclosing, rfl⟩, rfl⟩ := h
  cases hclosing
  have hsent : attempted = s.sentBytes + f.credit := by
    by_cases hk : f.kind = .data
    · simp only [hk, if_true, checkedAdd_eq_some] at hattempted
      simpa [Frame.credit, hk] using hattempted.2
    · simp only [hk, if_false, Option.some.injEq] at hattempted
      simp [Frame.credit, hk, hattempted]
  refine ⟨⟨validateTerminal_eq_ok.1 hfollows, by simpa using hnext, ?_, hroom⟩, ?_⟩
  · intro hk
    simp only [hk, if_true, checkedAdd_eq_some] at hattempted
    rw [← hsent]
    exact ⟨by omega, by simpa [hk] using hcredit⟩
  · -- The guarded charge and the unconditional one agree, since a terminal weighs nothing.
    unfold emitted
    by_cases hk : f.kind = .data
    · simp [hk, hsent]
    · simp [hk, Frame.credit]

theorem emitSequenced_atomic (hvalid : f.validate = .ok ()) : Atomic (emitSequenced f) := by
  unfold emitSequenced
  rw [terminalOf_of_validate hvalid]
  refine reads_get.bind_atomic fun s => (reads_check _).bind_atomic fun _ =>
    (reads_orFail _ _).bind_atomic fun _ => (reads_failIf _ _).bind_atomic fun _ =>
    (reads_orFail _ _).bind_atomic fun _ => (reads_failIf _ _).bind_atomic fun _ =>
    (reads_check _).bind_atomic fun _ => Total.atomic ?_
  exact (total_modify _).bind fun _ => (total_modify _).bind fun _ => (total_modify _).bind fun _ =>
    (total_check _).bind fun _ => total_modify _

theorem room_of_ensureReplayCapacity (h : s.ensureReplayCapacity f = .ok ()) :
    s.replay.size + 1 ≤ s.limits.maxReplayFrames + terminalReserve f.kind ∧
      s.replayBytes + f.payload.length ≤ s.limits.maxReplayBytes + terminalReserve f.kind := by
  unfold ensureReplayCapacity at h
  cases hcount : checkedAdd s.replay.size 1 with
  | none => simp [hcount] at h
  | some count =>
    cases hbytes : checkedAdd s.replayBytes f.payload.length with
    | none => simp [hcount, hbytes] at h
    | some bytes =>
      obtain ⟨_, rfl⟩ := checkedAdd_eq_some.1 hcount
      obtain ⟨_, rfl⟩ := checkedAdd_eq_some.1 hbytes
      simp only [hcount, hbytes, ite_error_ok] at h
      have hframes := saturatingAdd_le s.limits.maxReplayFrames (terminalReserve f.kind)
      have hbytes := saturatingAdd_le s.limits.maxReplayBytes (terminalReserve f.kind)
      omega

theorem terminalReserve_of_data {kind : FrameKind} (h : kind = .data) :
    terminalReserve kind = 0 := by
  rw [h]
  rfl

theorem emitted_tracks (h : s.outbox.Tracks log) (hvalid : f.validate = .ok ())
    (hseq : f.kind.sequenced = true) (he : Emittable s f) :
    (s.emitted f).outbox.Tracks (log ++ [f]) := by
  have hlen : s.lastEmitted = log.length := h.lastEmitted
  have hnext : f.sequence.toNat = log.length + 1 := by rw [he.next, hlen]
  have hacked : s.peerAcked ≤ log.length := h.peerAcked_le
  have hfresh : s.replay[f.sequence.toNat]? = none := by
    have hk : s.replay[f.sequence.toNat]? =
      if s.peerAcked < f.sequence.toNat then log[f.sequence.toNat - 1]? else none := h.replay _
    rw [hk, hnext, Nat.add_sub_cancel, List.getElem?_eq_none (Nat.le_refl _), ite_self]
  have hroom := room_of_ensureReplayCapacity he.room
  have hsent : s.sentBytes = creditSum log := h.sentBytes
  have hterminal : s.sendTerminal = (closing log).map Prod.fst := h.terminal
  have hdrop : (log ++ [f]).drop s.peerAcked = log.drop s.peerAcked ++ [f] :=
    drop_append_of_le_length hacked
  have hclose : (s.emitted f).outbox =
      { limits := s.limits, lastEmitted := f.sequence.toNat, peerAcked := s.peerAcked,
        sendCredit := s.sendCredit, sentBytes := s.sentBytes + f.credit,
        terminal := (closing (log ++ [f])).map Prod.fst,
        terminalSequence := (closing (log ++ [f])).map Prod.snd,
        replay := s.replay.insert f.sequence.toNat f,
        replayBytes := s.replayBytes + f.payload.length } := by
    have hsequence : s.sendTerminalSequence = (closing log).map Prod.snd := h.terminalSequence
    rw [closing_snoc]
    unfold emitted closeSend retainReplay outbox
    cases f.closing with
    | none => simp [hterminal, hsequence]
    | some t => simp
  rw [hclose]
  exact
    { script := h.script.snoc hnext hvalid hseq (by rw [← hterminal]; exact he.follows)
      limits := h.limits
      lastEmitted := by
        rw [hnext, length_append]
        rfl
      peerAcked_le := by
        show s.peerAcked ≤ _
        rw [length_append]
        omega
      replay := by
        intro k
        have hk : s.replay[k]? = if s.peerAcked < k then log[k - 1]? else none := h.replay k
        show (s.replay.insert f.sequence.toNat f)[k]? =
          if s.peerAcked < k then (log ++ [f])[k - 1]? else none
        rw [Ledger.get_insert, hk]
        by_cases hkf : f.sequence.toNat = k
        · have hlast : k - 1 = log.length := by omega
          rw [if_pos hkf, if_pos (by omega), hlast, List.getElem?_concat_length]
        · rw [if_neg hkf]
          by_cases hgt : s.peerAcked < k
          · rcases lt_or_ge (k - 1) log.length with hlt | hge
            · rw [List.getElem?_append_left hlt]
            · rw [List.getElem?_eq_none hge, List.getElem?_eq_none]
              rw [length_append]
              show log.length + 1 ≤ k - 1
              omega
          · rw [if_neg hgt, if_neg hgt]
      replayBytes := by
        have hb : s.replayBytes = mass payloadLength s.replay := h.replayBytes
        rw [mass_insert hfresh, hb]
        rfl
      sentBytes := by
        rw [creditSum_snoc, hsent]
      sentBytes_le := by
        have hle : s.sentBytes ≤ s.sendCredit := h.sentBytes_le
        by_cases hk : f.kind = .data
        · exact (he.charged hk).2
        · simpa [Frame.credit, hk] using hle
      sentBytes_lt := by
        have hlt : s.sentBytes < wordBound := h.sentBytes_lt
        by_cases hk : f.kind = .data
        · exact (he.charged hk).1
        · simpa [Frame.credit, hk] using hlt
      terminal := rfl
      terminalSequence := rfl
      dataFrames := by
        have hold : ((log.drop s.peerAcked).map dataCount).sum ≤ s.limits.maxReplayFrames :=
          h.dataFrames
        have hsize : s.replay.size = (log.drop s.peerAcked).length := h.replay_size
        rw [hdrop, map_append, sum_append]
        by_cases hk : f.kind = .data
        · have hcount : ((log.drop s.peerAcked).map dataCount).sum ≤ s.replay.size := by
            rw [hsize]
            exact sum_dataCount_le _
          rw [terminalReserve_of_data hk] at hroom
          simp only
          [map_cons, map_nil, sum_cons, sum_nil, dataCount, hk, if_true]
          omega
        · simpa [dataCount, hk] using hold
      dataBytes := by
        have hold : creditSum (log.drop s.peerAcked) ≤ s.limits.maxReplayBytes := h.dataBytes
        have hbytes : s.replayBytes = ((log.drop s.peerAcked).map payloadLength).sum :=
          h.replayBytes_eq
        show creditSum ((log ++ [f]).drop s.peerAcked) ≤ s.limits.maxReplayBytes
        rw [hdrop, creditSum_snoc]
        by_cases hk : f.kind = .data
        · have hcredit := creditSum_le_payload (log.drop s.peerAcked)
          rw [terminalReserve_of_data hk] at hroom
          have hf : f.credit = f.payload.length := by simp [Frame.credit, hk]
          omega
        · simpa [Frame.credit, hk] using hold }

theorem kind_of_terminal {kind : FrameKind} (h : kind.isTerminal = true) :
    kind.sequenced = true ∧ kind ≠ .data ∧ kind ≠ .windowUpdate := by
  cases kind with
  | fin | reset => decide
  | data | ack | windowUpdate => cases h

/-- Two terminals at most follow the DATA, so the reserve is there for whichever may still
be sent. -/
theorem ensureReplayCapacity_of_terminal (h : s.outbox.Tracks log)
    (hvalid : f.validate = .ok ()) (hterm : f.kind.isTerminal = true)
    (hfollows : mayFollow s.sendTerminal f.kind = true)
    (hnext : f.sequence.toNat = s.lastEmitted + 1) : s.ensureReplayCapacity f = .ok () := by
  have hlen : s.lastEmitted = log.length := h.lastEmitted
  have hterminal : s.sendTerminal = (closing log).map Prod.fst := h.terminal
  obtain ⟨hsequenced, hnotData, _⟩ := kind_of_terminal hterm
  -- The log with the frame is again a script, and a script bounds its terminals.
  have hscript : Script (log ++ [f]) :=
    h.script.snoc (by omega) hvalid hsequenced (by rwa [← hterminal])
  obtain ⟨hcount, hbytes⟩ := hscript.drop_le s.peerAcked
  have hdrop : (log ++ [f]).drop s.peerAcked = log.drop s.peerAcked ++ [f] :=
    drop_append_of_le_length h.peerAcked_le
  have hdata : dataCount f = 0 ∧ f.credit = 0 := ⟨if_neg hnotData, if_neg hnotData⟩
  simp only [hdrop, length_append, length_singleton, map_append, sum_append, map_singleton,
    sum_singleton, creditSum_snoc, hdata] at hcount hbytes
  have hframes : ((log.drop s.peerAcked).map dataCount).sum ≤ s.limits.maxReplayFrames :=
    h.dataFrames
  have hcredit : creditSum (log.drop s.peerAcked) ≤ s.limits.maxReplayBytes := h.dataBytes
  have hsize : s.replay.size = (log.drop s.peerAcked).length := h.replay_size
  have htotal : s.replayBytes = ((log.drop s.peerAcked).map payloadLength).sum := h.replayBytes_eq
  have hlimits := SequenceLimits.bounds_of_validate h.limits
  have hreserve : terminalReserve f.kind = 2 := if_pos hterm
  have hword : 1048576 + 4 < wordBound := by decide
  unfold payloadLength at hbytes htotal
  change s.limits.maxReplayFrames ≤ 128 ∧ s.limits.maxReplayBytes ≤ 1048576 ∧ _ at hlimits
  unfold ensureReplayCapacity
  rw [checkedAdd_of_lt (by omega), checkedAdd_of_lt (by omega), hreserve,
    saturatingAdd_of_lt (by omega), saturatingAdd_of_lt (by omega)]
  exact if_neg (by omega)

end DirectionState

end AgentUplink
