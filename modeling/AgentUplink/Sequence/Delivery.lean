import AgentUplink.Protocol.FrameCodec
import AgentUplink.Sequence.Runs

/-!
# Exactly-once delivery

Whatever the network does, the frames that enter a receiver's ready queue are the
sender's script, each once and in order.
-/

namespace AgentUplink

open Machine Fallible Std DirectionState StreamState List

namespace Link

variable [Sha256] {l : Link}

/-- The frame that entered at a place is the one that was emitted there. -/
theorem Sound.entered_at (h : l.Sound) (e : Endpoint) (d : Direction) {i : Nat}
    (hi : i < (l.dir e d).recvContiguous) :
    ∃ f g, (l.entered e d)[i]? = some f ∧ (l.log e.peer d)[i]? = some g ∧ f.SameLogical g ∧
      g.sequence.toNat = i + 1 := by
  have ht := h.receiver e d
  have hlen : (l.entered e d).length = (l.dir e d).recvContiguous := ht.length
  obtain ⟨f, hf⟩ := Script.exists_of_lt (l.entered e d) (i := i) (by omega)
  obtain ⟨g, hg, hsame⟩ := ht.same i f hf
  exact ⟨f, g, hf, hg, hsame, (h.sender e.peer d).script.sequence i g hg⟩

/-- What has entered is, up to the carrier, the first part of the script. -/
theorem Sound.entered_logical (h : l.Sound) (e : Endpoint) (d : Direction) :
    (l.entered e d).map (Frame.onCarrier 0 0) =
      ((l.log e.peer d).take (l.dir e d).recvContiguous).map (Frame.onCarrier 0 0) := by
  have hlen : (l.entered e d).length = (l.dir e d).recvContiguous := (h.receiver e d).length
  apply ext_getElem?
  intro i
  rw [getElem?_map, getElem?_map, getElem?_take]
  by_cases hi : i < (l.dir e d).recvContiguous
  · obtain ⟨f, g, hf, hg, hsame, -⟩ := h.entered_at e d hi
    rw [if_pos hi, hf, hg]
    exact congrArg some hsame
  · rw [if_neg hi, getElem?_eq_none (by omega), Option.map_none]

theorem Sound.entered_sequences (h : l.Sound) (e : Endpoint) (d : Direction) :
    (l.entered e d).map (fun f => f.sequence.toNat) = range' 1 (l.dir e d).recvContiguous := by
  have hlen : (l.entered e d).length = (l.dir e d).recvContiguous := (h.receiver e d).length
  apply ext_getElem?
  intro i
  rw [getElem?_map]
  by_cases hi : i < (l.dir e d).recvContiguous
  · obtain ⟨f, g, hf, -, hsame, hseq⟩ := h.entered_at e d hi
    rw [getElem?_range' hi, hf, Option.map_some, hsame.sequence_eq, hseq, one_mul, add_comm]
  · rw [getElem?_eq_none (by omega), getElem?_eq_none (by simpa using hi),
      Option.map_none]

/-- What was handed over, followed by what is ready, is everything that has entered. -/
theorem Sound.handed_append_ready (h : l.Sound) (e : Endpoint) (d : Direction) :
    l.handed e d ++ (l.dir e d).readyFrames = l.entered e d := by
  rw [h.handed e d, readyFrames_eq (h.receiver e d).queues (h.settled e d).toHeld]
  exact take_append_drop _ _

end Link

/-- In every run, the frames that enter a receiver's ready queue carry the sequence
numbers 1, 2, ... up to its contiguous cursor, each once; the frame entered at `k` is
the one emitted at `k`; and what has been handed over, followed by what is ready, is
everything that has entered and, up to the carrier, a prefix of what was emitted. -/
theorem delivered_exactly_once_in_order [Sha256] {config : LinkConfig} {l : Link}
    (hopen : Link.connect config = .ok l) (actions : List Action) (sender : Endpoint)
    (d : Direction) :
    let sent := (l.run actions).log sender d
    let entered := (l.run actions).entered sender.peer d
    let receiver := (l.run actions).dir sender.peer d
    entered.map (fun f => f.sequence.toNat) = range' 1 receiver.recvContiguous ∧
      (∀ k, 1 ≤ k → k ≤ receiver.recvContiguous →
        ∃ f g, entered[k - 1]? = some f ∧ f.sequence.toNat = k ∧
          sent[k - 1]? = some g ∧ g.sequence.toNat = k ∧
          f.kind = g.kind ∧ f.ack = g.ack ∧ f.window = g.window ∧ f.payload = g.payload) ∧
      (l.run actions).handed sender.peer d ++ receiver.readyFrames = entered ∧
      ((l.run actions).handed sender.peer d ++ receiver.readyFrames).map (Frame.onCarrier 0 0) <+:
        sent.map (Frame.onCarrier 0 0) := by
  have h := (Link.Sound.connect hopen).run actions
  have hlogical := h.entered_logical sender.peer d
  rw [Endpoint.peer_peer] at hlogical
  refine ⟨h.entered_sequences sender.peer d, ?_, h.handed_append_ready sender.peer d, ?_⟩
  · intro k hk hle
    obtain ⟨f, g, hf, hg, hsame, hseq⟩ := h.entered_at sender.peer d (Nat.sub_one_lt_of_le hk hle)
    rw [Endpoint.peer_peer] at hg
    rw [Nat.sub_add_cancel hk] at hseq
    exact ⟨f, g, hf, hsame.sequence_eq ▸ hseq, hg, hseq, hsame.kind_eq, hsame.ack_eq,
      hsame.window_eq, hsame.payload_eq⟩
  · rw [h.handed_append_ready, hlogical, map_take]
    exact take_prefix _ _

/-- What a receiver has not got its sender retains, and once it has got everything both know
how the direction was closed. -/
theorem unreceived_frames_retained [Sha256] {config : LinkConfig} {l : Link}
    (hopen : Link.connect config = .ok l) (actions : List Action) (e : Endpoint) (d : Direction) :
    let now := l.run actions
    let sender := now.dir e d
    let receiver := now.dir e.peer d
    (sender.peerAcked ≤ receiver.recvContiguous ∧ receiver.recvContiguous ≤ sender.lastEmitted) ∧
      (∀ k, receiver.recvContiguous < k → k ≤ sender.lastEmitted →
        ∃ f, sender.replay[k]? = some f ∧ (now.log e d)[k - 1]? = some f) ∧
      (receiver.recvContiguous = sender.lastEmitted →
        receiver.receiveTerminal = sender.sendTerminal ∧
          receiver.receiveTerminalSequence = sender.sendTerminalSequence) := by
  intro now sender receiver
  have h := (Link.Sound.connect hopen).run actions
  have hs := h.sender e d
  have hr := h.receiver e.peer d
  rw [Endpoint.peer_peer] at hr
  have hacked : sender.peerAcked ≤ receiver.recvContiguous := h.acked e d
  have hlast : sender.lastEmitted = (now.log e d).length := hs.lastEmitted
  refine ⟨⟨hacked, hlast ▸ hr.recv_le⟩, fun k hk hle => ?_, fun hall => ?_⟩
  · obtain ⟨f, hf⟩ := Script.exists_of_lt (now.log e d) (i := k - 1) (by omega)
    exact ⟨f, ((hs.replay k).trans (if_pos (Nat.lt_of_le_of_lt hacked hk))).trans hf, hf⟩
  · have htake : (now.log e d).take receiver.inbox.recvContiguous = now.log e d :=
      take_of_length_le (hlast ▸ Nat.le_of_eq hall.symm)
    have hterminal := hr.terminal
    have hsequence := hr.terminalSequence
    rw [htake] at hterminal hsequence
    exact ⟨hterminal.trans hs.terminal.symm, hsequence.trans hs.terminalSequence.symm⟩

/-- Whatever is on the wire, under whichever carrier, can be written and is read back. -/
theorem wire_frames_read_back [Sha256] {config : LinkConfig} {l : Link}
    (hopen : Link.connect config = .ok l) (actions : List Action) (e : Endpoint) (d : Direction)
    (f : Frame) (hf : f ∈ (l.run actions).net e d) :
    ∃ encoded, f.encode = .ok encoded ∧ Frame.decode encoded = .ok f := by
  have hvalid := (((Link.Sound.connect hopen).run actions).carried e d f hf).valid
  exact ⟨_, Frame.encode_ok.2 ⟨hvalid, rfl⟩,
    Frame.decode_ok.2 (Frame.decodes_of_header hvalid rfl)⟩

/-! ## A concrete link -/

@[reducible] def plainDigest : Sha256 := ⟨fun payload => payload⟩

def demoConfig : LinkConfig :=
  { streamId := 7
    sendCredit := fun _ => 8
    receiveCredit := fun _ => 8
    limits := fun _ =>
      { maxReplayFrames := 3, maxReplayBytes := 8, maxReorderFrames := 3, maxReorderBytes := 8 } }

/-- Two DATA frames and a FIN that arrive last first, one of them twice. -/
def demoActions : List Action :=
  [.send .relay .relayToConnector (.newData 1 1 7 1 0 [65]),
    .send .relay .relayToConnector (.newData 1 1 7 2 0 [66, 67]),
    .send .relay .relayToConnector (.newFin 1 1 7 3 0),
    .receive .connector .relayToConnector (.newFin 1 1 7 3 0),
    .receive .connector .relayToConnector (.newData 1 1 7 2 0 [66, 67]),
    .replayFrames .relay .relayToConnector 1 3 2 9,
    .receive .connector .relayToConnector (.newData 2 9 7 1 0 [65]),
    .receive .connector .relayToConnector (.newData 1 1 7 1 0 [65]),
    .deliver .connector .relayToConnector 2]

theorem delivered_exactly_once_in_order_reversed :
    ∃ l, Link.connect demoConfig = .ok l ∧
      ((@Link.run plainDigest l demoActions).dir .connector .relayToConnector).recvContiguous = 3 ∧
      ((@Link.run plainDigest l demoActions).entered .connector .relayToConnector).map
        (fun f => f.sequence.toNat) = [1, 2, 3] :=
  ⟨_, rfl, by decide,
    (@delivered_exactly_once_in_order plainDigest demoConfig _ rfl demoActions .relay
      .relayToConnector).1⟩

theorem unreceived_frames_retained_closed : ∃ l, Link.connect demoConfig = .ok l ∧
    ((@Link.run plainDigest l demoActions).dir .connector .relayToConnector).receiveTerminal =
      ((@Link.run plainDigest l demoActions).dir .relay .relayToConnector).sendTerminal :=
  ⟨_, rfl, ((@unreceived_frames_retained plainDigest demoConfig _ rfl demoActions .relay
    .relayToConnector).2.2 (by decide)).1⟩

theorem wire_frames_read_back_fin : ∃ l, Link.connect demoConfig = .ok l ∧
    ∃ encoded, (Frame.newFin 1 1 7 3 0).encode = .ok encoded ∧
      Frame.decode encoded = .ok (.newFin 1 1 7 3 0) :=
  ⟨_, rfl, @wire_frames_read_back plainDigest demoConfig _ rfl demoActions .relay
    .relayToConnector _ (by decide)⟩

end AgentUplink
