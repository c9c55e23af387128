import AgentUplink.Sequence.Capacity
import AgentUplink.Sequence.Recovery

/-!
# Resuming from a snapshot

A snapshot of the peer may be used as soon as it is taken, or later, when nothing
has reached this endpoint since but credit. The plan made from it replays exactly
what the peer had not received; fed to the peer in order, the replay brings it up
to date, and only frames that are new to it are charged.
-/

namespace AgentUplink

open Machine Fallible Std DirectionState StreamState List

/-! ## Nothing but credit -/

/-- The call changes nothing at its own endpoint but, at most, the credit to send. -/
def Action.Quiet : Action → Prop
  | .receive _ _ f => f.kind = .windowUpdate
  | a => a.reads = true

/-- The streams agree in everything but the credit to send. -/
structure StreamState.SameButCredit (s t : StreamState) : Prop where
  stream : t.streamId = s.streamId
  direction : ∀ d, ∃ credit, t.direction d = { s.direction d with sendCredit := credit }

namespace StreamState

theorem sameButCredit_refl (s : StreamState) : s.SameButCredit s :=
  ⟨rfl, fun d => ⟨(s.direction d).sendCredit, rfl⟩⟩

theorem SameButCredit.trans {s t u : StreamState} (h : s.SameButCredit t) (h' : t.SameButCredit u) :
    s.SameButCredit u where
  stream := h'.stream.trans h.stream
  direction d := by
    obtain ⟨credit, ht⟩ := h.direction d
    obtain ⟨credit', hu⟩ := h'.direction d
    exact ⟨credit', by rw [hu, ht]⟩

/-- Reconciliation does not look at the credit to send. -/
theorem SameButCredit.reconcile_eq {s t : StreamState} (h : s.SameButCredit t)
    (peer : StreamSnapshot) : t.reconcile peer = s.reconcile peer := by
  obtain ⟨relay, hrelay⟩ := h.direction .relayToConnector
  obtain ⟨connector, hconnector⟩ := h.direction .connectorToRelay
  unfold reconcile
  rw [hrelay, hconnector, h.stream]
  rfl

theorem credits_window {f : Frame} (hvalid : f.validate = .ok ()) (hk : f.kind = .windowUpdate)
    (s : DirectionState) : ∃ credit, credits f s = { s with sendCredit := credit } := by
  have hack : f.ack.toNat = 0 := by rw [Frame.windowUpdate_ack hvalid hk]; rfl
  have hacked : s.acked f.ack.toNat = s := if_neg (by omega)
  unfold credits credited
  rw [if_pos hk, hacked]
  split
  · exact ⟨_, rfl⟩
  · exact ⟨s.sendCredit, rfl⟩

end StreamState

namespace Link

variable [Sha256] {l : Link} {e : Endpoint} {d : Direction} {f : Frame}

theorem Sound.receive_window (h : l.Sound) (hk : f.kind = .windowUpdate) :
    (l.state e).SameButCredit ((l.exec (.receive e d f)).state e) ∧
      (l.exec (.receive e d f)).log = l.log := by
  by_cases hf : f ∈ l.net e.peer d
  · have hc := h.carried e.peer d f hf
    rcases h.receive_cases hf with ⟨_, _, hexec⟩ | ⟨disposition, t, hr, hexec⟩
    · rw [hexec]
      exact ⟨sameButCredit_refl _, rfl⟩
    · rw [hexec]
      refine ⟨?_, rfl⟩
      rw [become_state_self]
      have hsequenced : f.kind.sequenced = false := by rw [hk]; rfl
      have ht : t = (l.state e).direction d := by
        cases hr with
        | unsequenced _ => rfl
        | duplicate hseq _ => cases hsequenced.symm.trans hseq
        | buffered hb => cases hsequenced.symm.trans hb.sequenced
        | accepted ha => cases hsequenced.symm.trans ha.sequenced
      refine ⟨rfl, fun d' => ?_⟩
      rcases Direction.eq_or_eq_opposite d d' with rfl | rfl
      · rw [direction_afterReceive_self, ht]
        exact ⟨_, rfl⟩
      · rw [direction_afterReceive_opposite]
        exact credits_window hc.valid hk _
  · have hexec : l.exec (.receive e d f) = l := if_neg hf
    rw [hexec]
    exact ⟨sameButCredit_refl _, rfl⟩

/-- An action of the peer, or a quiet one of its own, leaves an endpoint as it was but
for the credit to send, and emits nothing in its name. -/
theorem Sound.exec_quiet (h : l.Sound) {a : Action} (hquiet : a.actor = e → a.Quiet) :
    (l.state e).SameButCredit ((l.exec a).state e) ∧ (l.exec a).log e = l.log e := by
  by_cases hactor : a.actor = e
  · have hown : a.Quiet := hquiet hactor
    by_cases hreads : a.reads = true
    · obtain ⟨hstate, hlog⟩ := l.exec_of_reads hreads
      rw [hstate, hlog]
      exact ⟨sameButCredit_refl _, rfl⟩
    · cases a with
      | receive e' d f =>
        cases hactor
        obtain ⟨hsame, hlog⟩ := h.receive_window (e := e') (d := d) hown
        exact ⟨hsame, congrFun hlog e'⟩
      | _ => exact absurd hown hreads
  · obtain ⟨s, d, frames, _, hstate, hlog⟩ := h.exec_moves a
    rw [hstate, hlog, become_state_other _ _ _ (fun heq => hactor heq.symm)]
    refine ⟨sameButCredit_refl _, ?_⟩
    funext d'
    exact extend_other _ (fun hand => hactor hand.1.symm) _

theorem Sound.run_quiet (h : l.Sound) {actions : List Action}
    (hquiet : ∀ a ∈ actions, a.actor = e → a.Quiet) :
    (l.state e).SameButCredit ((l.run actions).state e) ∧ (l.run actions).log e = l.log e := by
  induction actions generalizing l with
  | nil => exact ⟨sameButCredit_refl _, rfl⟩
  | cons a actions ih =>
    obtain ⟨hsame, hlog⟩ := h.exec_quiet (hquiet a mem_cons_self)
    obtain ⟨hsame', hlog'⟩ := ih (h.exec a) fun b hb => hquiet b (mem_cons_of_mem a hb)
    exact ⟨hsame.trans hsame', hlog'.trans hlog⟩

/-! ## Feeding a replay -/

omit [Sha256] in
theorem known_of_inbox_eq {s t : DirectionState} (h : t.inbox = s.inbox) (f : Frame) :
    t.Known f ↔ s.Known f := by
  have hrecv : t.recvContiguous = s.recvContiguous := congrArg Inbox.recvContiguous h
  have hreorder : t.reorder = s.reorder := congrArg Inbox.reorder h
  unfold Known
  rw [hrecv, hreorder]

/-- A new frame that is received next finds room. -/
def Roomy (l : Link) : Action → Prop
  | .receive e d f => ¬ (l.dir e d).Known f → (l.dir e d).inbox.Room f
  | _ => True

theorem Sound.receive_roomy (h : l.Sound) (hg : l.Granted) (hf : f ∈ l.net e.peer d)
    (hroom : l.Roomy (.receive e d f)) :
    ∃ disposition t, (l.dir e d).Received f disposition t ∧
      l.exec (.receive e d f) = l.become e ((l.state e).afterReceive d f t) := by
  rcases h.receive_cases hf with ⟨err, herr, _⟩ | hreceived
  · obtain ⟨⟨_, hnew, hfull⟩, _⟩ := (h.errorOf_receive hg hf).1 herr
    exact absurd (hroom hnew) hfull
  · exact hreceived

/-- What receiving `frames`, in order, in direction `d` leaves alone, and what it charges. -/
structure Fed (l l' : Link) (e : Endpoint) (d : Direction) (frames : List Frame) : Prop where
  peer : l'.state e.peer = l.state e.peer
  log : l'.log = l.log
  net : l'.net = l.net
  other : (l'.dir e d.opposite).inbox = (l.dir e d.opposite).inbox
  bytes : (l'.dir e d).receivedBytes = (l.dir e d).receivedBytes +
    creditSum (frames.filter fun f => ¬ (l.dir e d).Known f)

/-- Frames received in order, starting no further than right after the cursor. -/
structure InOrder (l : Link) (e : Endpoint) (d : Direction) (cursor : Nat)
    (frames : List Frame) : Prop where
  carried : ∀ f ∈ frames, f ∈ l.net e.peer d
  sequenced : ∀ f ∈ frames, f.kind.sequenced = true
  sequence : ∀ i f, frames[i]? = some f → f.sequence.toNat = cursor + 1 + i
  cursor_le : cursor ≤ (l.dir e d).recvContiguous

theorem Sound.feed (h : l.Sound) (hg : l.Granted) {frames : List Frame} {cursor : Nat}
    (horder : l.InOrder e d cursor frames) (hroom : l.Along Roomy (frames.map (.receive e d))) :
    l.Fed (l.run (frames.map (.receive e d))) e d frames ∧
      cursor + frames.length ≤ ((l.run (frames.map (.receive e d))).dir e d).recvContiguous := by
  induction frames generalizing l cursor with
  | nil => exact ⟨⟨rfl, rfl, rfl, rfl, rfl⟩, horder.cursor_le⟩
  | cons f frames ih =>
    have hk := horder.sequenced f mem_cons_self
    have hseq : f.sequence.toNat = cursor + 1 := horder.sequence 0 f rfl
    obtain ⟨disposition, t, hr, hexec⟩ :=
      h.receive_roomy hg (horder.carried f mem_cons_self) hroom.1
    have hself : (l.exec (.receive e d f)).dir e d = t := by
      rw [hexec]
      unfold dir
      rw [become_state_self, direction_afterReceive_self]
    have hother : ((l.exec (.receive e d f)).dir e d.opposite).inbox =
        (l.dir e d.opposite).inbox := by
      rw [hexec]
      unfold dir
      rw [become_state_self, direction_afterReceive_opposite]
      exact inbox_credits _ _
    have hcursor : cursor + 1 ≤ t.recvContiguous :=
      hseq ▸ hr.sequence_le (h.settled e d) hk (by
        rw [hseq]
        exact Nat.succ_le_succ horder.cursor_le)
    have horder' : (l.exec (.receive e d f)).InOrder e d (cursor + 1) frames :=
      { carried := fun g hgm => by
          rw [hexec]
          exact horder.carried g (mem_cons_of_mem f hgm)
        sequenced := fun g hgm => horder.sequenced g (mem_cons_of_mem f hgm)
        sequence := fun i g hgm => by
          have := horder.sequence (i + 1) g hgm
          omega
        cursor_le := by
          rw [hself]
          exact hcursor }
    obtain ⟨hfed, hle⟩ := ih (h.exec _) (Granted.exec h hg _) horder' hroom.2
    -- The frames still to come are known now if and only if they were before.
    have hfilter : (frames.filter fun g => ¬ t.Known g) =
        frames.filter fun g => ¬ (l.dir e d).Known g := by
      apply filter_congr
      intro g hgm
      obtain ⟨i, hi⟩ := List.getElem?_of_mem hgm
      have hlater : g.sequence ≠ f.sequence := by
        intro heq
        have := horder'.sequence i g hi
        rw [heq, hseq] at this
        omega
      have hiff := hr.known_iff (h.settled e d) hk g
      simp only [hlater, or_false] at hiff
      rw [decide_eq_decide, hiff]
    have hbytes := hfed.bytes
    rw [hself, hfilter, hr.receivedBytes_eq (h.settled e d) hk] at hbytes
    refine ⟨⟨?_, ?_, ?_, hfed.other.trans hother, ?_⟩, ?_⟩
    · exact hfed.peer.trans (by rw [hexec, become_state_other _ _ _ (Endpoint.peer_ne e)])
    · exact hfed.log.trans (by rw [hexec]; rfl)
    · exact hfed.net.trans (by rw [hexec]; rfl)
    · refine hbytes.trans ?_
      by_cases hknown : (l.dir e d).Known f
      · rw [filter_cons_of_neg (by simpa using hknown), if_pos hknown, Nat.add_zero]
      · rw [filter_cons_of_pos (by simpa using hknown), if_neg hknown]
        simp only [creditSum, map_cons, sum_cons]
        omega
    · rw [length_cons]
      have hle : cursor + 1 + frames.length ≤
        ((l.run ((f :: frames).map (.receive e d))).dir e d).recvContiguous := hle
      omega

/-- The peer's part of a plan: receive both replays, each in order. -/
def feedActions (e : Endpoint) (replay : PerDirection (List Frame)) : List Action :=
  (replay.get .relayToConnector).map (.receive e .relayToConnector) ++
    (replay.get .connectorToRelay).map (.receive e .connectorToRelay)

theorem Sound.feed_both (h : l.Sound) (hg : l.Granted) {replay : PerDirection (List Frame)}
    {cursor : Direction → Nat} (horder : ∀ d, l.InOrder e d (cursor d) (replay.get d))
    (hroom : l.Along Roomy (feedActions e replay)) :
    (l.run (feedActions e replay)).state e.peer = l.state e.peer ∧
      (l.run (feedActions e replay)).log = l.log ∧ ∀ d,
        cursor d + (replay.get d).length ≤ ((l.run (feedActions e replay)).dir e d).recvContiguous ∧
        ((l.run (feedActions e replay)).dir e d).receivedBytes = (l.dir e d).receivedBytes +
          creditSum ((replay.get d).filter fun f => ¬ (l.dir e d).Known f) := by
  obtain ⟨hroomRelay, hroomConnector⟩ := along_append.1 hroom
  obtain ⟨hfirst, hfirst_le⟩ := h.feed hg (horder .relayToConnector) hroomRelay
  have hrun : l.run (feedActions e replay) =
      (l.run ((replay.get .relayToConnector).map (.receive e .relayToConnector))).run
        ((replay.get .connectorToRelay).map (.receive e .connectorToRelay)) := foldl_append
  rw [hrun]
  generalize hmid :
    l.run ((replay.get .relayToConnector).map (.receive e .relayToConnector)) = mid at *
  have hsound : mid.Sound := hmid ▸ h.run _
  have hgranted : mid.Granted := hmid ▸ hg.run h _
  have hinbox : (mid.dir e .connectorToRelay).inbox = (l.dir e .connectorToRelay).inbox :=
    hfirst.other
  have horder' : mid.InOrder e .connectorToRelay (cursor .connectorToRelay)
      (replay.get .connectorToRelay) :=
    { horder .connectorToRelay with
      carried := fun f hf => by
        rw [hfirst.net]
        exact (horder .connectorToRelay).carried f hf
      cursor_le := by
        rw [show (mid.dir e .connectorToRelay).recvContiguous =
          (l.dir e .connectorToRelay).recvContiguous from congrArg Inbox.recvContiguous hinbox]
        exact (horder .connectorToRelay).cursor_le }
  obtain ⟨hsecond, hsecond_le⟩ := hsound.feed hgranted horder' hroomConnector
  refine ⟨hsecond.peer.trans hfirst.peer, hsecond.log.trans hfirst.log, fun d => ?_⟩
  cases d with
  | relayToConnector =>
    have hother := hsecond.other
    refine ⟨?_, (congrArg Inbox.receivedBytes hother).trans hfirst.bytes⟩
    exact Nat.le_trans hfirst_le (Nat.le_of_eq (congrArg Inbox.recvContiguous hother).symm)
  | connectorToRelay =>
    refine ⟨hsecond_le, ?_⟩
    have hbytes := hsecond.bytes
    rw [show (mid.dir e .connectorToRelay).receivedBytes =
      (l.dir e .connectorToRelay).receivedBytes from congrArg Inbox.receivedBytes hinbox] at hbytes
    simp only [known_of_inbox_eq hinbox] at hbytes
    exact hbytes

def rebound (epoch generation : UInt64) (plan : RecoveryPlan) : PerDirection (List Frame) :=
  plan.replay.map fun frames => frames.map (Frame.onCarrier epoch generation)

/-- Reconciling puts the missing part of the script on the wire, in order. -/
theorem Sound.rebound_inOrder (h : l.Sound) {peer : StreamSnapshot} {plan : RecoveryPlan}
    (hseen : peer ∈ l.snapshots e.peer) (hplan : (l.state e).reconcile peer = .ok plan)
    (hreplay : ∀ d, plan.replay.get d = (l.log e d).drop (peer.direction d).recvContiguous)
    (epoch generation : UInt64) (d : Direction) :
    (l.exec (.reconcileForCarrier e peer epoch generation)).InOrder e.peer d
      (peer.direction d).recvContiguous ((rebound epoch generation plan).get d) := by
  have hexec : l.exec (.reconcileForCarrier e peer epoch generation) =
      l.resendPlan e (.ok { plan with replay := rebound epoch generation plan }) := by
    show (if peer ∈ l.snapshots e.peer then
      l.resendPlan e ((l.state e).reconcileForCarrier peer epoch generation) else l) = _
    rw [if_pos hseen]
    unfold StreamState.reconcileForCarrier
    rw [hplan]
    rfl
  have hframes : (rebound epoch generation plan).get d =
      ((l.log e d).drop (peer.direction d).recvContiguous).map
      (Frame.onCarrier epoch generation) := by
    unfold rebound
    rw [PerDirection.get_map, hreplay]
  have hscript := (h.sender e d).script
  rw [hexec]
  exact
    { carried := fun f hf => by
        rw [Endpoint.peer_peer]
        exact mem_resendPlan l e hf
      sequenced := fun f hf => by
        rw [hframes] at hf
        obtain ⟨g, hg, rfl⟩ := mem_map.1 hf
        exact hscript.sequenced g (mem_of_mem_drop hg)
      sequence := fun i f hf => by
        rw [hframes, List.getElem?_map, List.getElem?_drop] at hf
        obtain ⟨g, hg, rfl⟩ := Option.map_eq_some_iff.1 hf
        have hseq := hscript.sequence _ g hg
        show g.sequence.toNat = _
        omega
      cursor_le := h.seen e.peer peer hseen d }

theorem Sound.resumes (h : l.Sound) (hg : l.Granted) {peer : StreamSnapshot} {plan : RecoveryPlan}
    (hseen : peer ∈ l.snapshots e.peer) (hplan : (l.state e).reconcile peer = .ok plan)
    (hreplay : ∀ d, plan.replay.get d = (l.log e d).drop (peer.direction d).recvContiguous)
    {epoch generation : UInt64} {resent after : Link}
    (hresent : resent = l.exec (.reconcileForCarrier e peer epoch generation))
    (hafter : after = resent.run (feedActions e.peer (rebound epoch generation plan)))
    (hroom : resent.Along Roomy (feedActions e.peer (rebound epoch generation plan))) :
    after.state e = l.state e ∧ ∀ d,
      (after.dir e.peer d).recvContiguous = (l.dir e d).lastEmitted ∧
      (after.dir e.peer d).receivedBytes = (l.dir e.peer d).receivedBytes +
        creditSum (((rebound epoch generation plan).get d).filter fun f =>
          ¬ (l.dir e.peer d).Known f) := by
  have hreads := l.exec_of_reads (a := .reconcileForCarrier e peer epoch generation) rfl
  rw [← hresent] at hreads
  obtain ⟨hstate, hlog⟩ := hreads
  have hsound : resent.Sound := hresent ▸ h.exec _
  have hdir : ∀ e' d, resent.dir e' d = l.dir e' d := fun e' d =>
    congrArg (fun state : Endpoint → StreamState => (state e').direction d) hstate
  have hfed := hsound.feed_both (hresent ▸ Granted.exec h hg _)
    (fun d => hresent ▸ h.rebound_inOrder hseen hplan hreplay epoch generation d) hroom
  rw [← hafter, Endpoint.peer_peer, hstate, hlog] at hfed
  obtain ⟨hpeer, hlogAfter, hparts⟩ := hfed
  refine ⟨hpeer, fun d => ?_⟩
  obtain ⟨hle, hbytes⟩ := hparts d
  rw [hdir] at hbytes
  refine ⟨?_, hbytes⟩
  have hafterSound : after.Sound := hafter ▸ hsound.run _
  have hge : (after.dir e.peer d).recvContiguous ≤ (after.log e.peer.peer d).length :=
    (hafterSound.receiver e.peer d).recv_le
  have hlen : (l.dir e d).lastEmitted = (l.log e d).length := (h.sender e d).lastEmitted
  have hframes : ((rebound epoch generation plan).get d).length =
      (l.log e d).length - (peer.direction d).recvContiguous := by
    unfold rebound
    rw [PerDirection.get_map, hreplay, length_map, length_drop]
  rw [hlogAfter, Endpoint.peer_peer] at hge
  omega

end Link

theorem StreamState.snapshot_direction (s : StreamState) (d : Direction) :
    s.snapshot.direction d = (s.direction d).snapshot := by
  cases d <;> rfl

/-- In every run, a snapshot of the peer that is reconciled when nothing but credit has
reached this endpoint since gives a plan: in each direction the replay is what was emitted
past the peer's cursor, and `peerMissing` is what the peer had emitted past this
endpoint's. Received by the peer on any carrier, with room for what is new, the replay
brings it up to date, charges it for the new frames only, and changes nothing here. -/
theorem reconcile_complete_and_exact [Sha256] {config : LinkConfig} {l : Link}
    (hconfig : config.Compatible) (hopen : Link.connect config = .ok l) (before since : List Action)
    (e : Endpoint) (hquiet : ∀ a ∈ since, a.actor = e → a.Quiet) (epoch generation : UInt64) :
    let peer := ((l.run before).state e.peer).snapshot
    let now := (l.run before).run (.snapshot e.peer :: since)
    ∃ plan, (now.state e).reconcile peer = .ok plan ∧
      (∀ d, plan.replay.get d = (now.log e d).drop (peer.direction d).recvContiguous ∧
        (plan.replay.get d).map (fun f => f.sequence.toNat) =
          List.range' ((peer.direction d).recvContiguous + 1)
            ((now.dir e d).lastEmitted - (peer.direction d).recvContiguous) ∧
        plan.peerMissing.get d =
          if (now.dir e d).recvContiguous < (peer.direction d).lastEmitted then
            some { first := (now.dir e d).recvContiguous + 1
                   through := (peer.direction d).lastEmitted }
          else none) ∧
      let resent := now.exec (.reconcileForCarrier e peer epoch generation)
      let replay := Link.rebound epoch generation plan
      let after := resent.run (Link.feedActions e.peer replay)
      resent.state = now.state ∧
        (resent.Along Link.Roomy (Link.feedActions e.peer replay) →
          after.state e = now.state e ∧ ∀ d,
            (after.dir e.peer d).recvContiguous = (now.dir e d).lastEmitted ∧
            (after.dir e.peer d).receivedBytes = (now.dir e.peer d).receivedBytes +
              creditSum ((replay.get d).filter fun f => ¬ (now.dir e.peer d).Known f)) := by
  intro peer now
  have hthen := (Link.Sound.connect hopen).run before
  have hgrantedThen := (Link.Granted.connect hopen hconfig).run (.connect hopen) before
  have hnow : now.Sound := hthen.run _
  have hgranted : now.Granted := hgrantedThen.run hthen _
  have hquiet' : ∀ a ∈ Action.snapshot e.peer :: since, a.actor = e → a.Quiet := by
    exact forall_mem_cons.2 ⟨fun hactor => absurd hactor (Endpoint.peer_ne e), hquiet⟩
  obtain ⟨hsame, hlog⟩ := hthen.run_quiet hquiet'
  obtain ⟨plan, hplan, hparts⟩ := hthen.reconcile_eq hgrantedThen e
  have hreconcile : (now.state e).reconcile peer = .ok plan := (hsame.reconcile_eq peer).trans hplan
  have hreplay : ∀ d, plan.replay.get d = (now.log e d).drop (peer.direction d).recvContiguous := by
    intro d
    rw [(hparts d).1, hlog, snapshot_direction]
    rfl
  have hseen : peer ∈ now.snapshots e.peer :=
    Link.mem_snapshots_run _ _ (Link.snapshot_mem_exec _ _) since
  refine ⟨plan, hreconcile, fun d => ⟨hreplay d, ?_, ?_⟩, (now.exec_of_reads rfl).1, fun hroom =>
    hnow.resumes hgranted hseen hreconcile hreplay rfl rfl hroom⟩
  · have hlen : (now.dir e d).lastEmitted = (now.log e d).length := (hnow.sender e d).lastEmitted
    rw [hreplay d, hlen]
    exact (hnow.sender e d).script.sequences_drop _
  · obtain ⟨credit, hdir⟩ := hsame.direction d
    have hrecv : (now.dir e d).recvContiguous = ((l.run before).dir e d).recvContiguous := by
      unfold Link.dir
      rw [hdir]
    rw [(hparts d).2, hrecv, snapshot_direction]
    rfl

/-- The first of two DATA frames arrives, the second is lost; then the connector grants
more credit. -/
def lostActions : List Action :=
  [.send .relay .relayToConnector (.newData 1 1 7 1 0 [65]),
    .send .relay .relayToConnector (.newData 1 1 7 2 0 [66, 67]),
    .receive .connector .relayToConnector (.newData 1 1 7 1 0 [65])]

def grantActions : List Action :=
  [.send .connector .connectorToRelay (.newWindowUpdate 1 1 7 16),
    .receive .relay .connectorToRelay (.newWindowUpdate 1 1 7 16)]

set_option maxRecDepth 4000 in
theorem reconcile_complete_and_exact_lost :
    ∃ l, Link.connect demoConfig = .ok l ∧
      let lost := @Link.run plainDigest l lostActions
      let peer := (lost.state .connector).snapshot
      let now := @Link.run plainDigest lost (.snapshot .connector :: grantActions)
      ∃ plan, (now.state .relay).reconcile peer = .ok plan ∧
        (plan.replay.get .relayToConnector).map (fun f => f.sequence.toNat) = [2] ∧
        ((@Link.run plainDigest
          (@Link.exec plainDigest now (.reconcileForCarrier .relay peer 2 9))
          (Link.feedActions .connector (Link.rebound 2 9 plan))).dir .connector
            .relayToConnector).recvContiguous = 2 := by
  refine ⟨_, rfl, ?_⟩
  obtain ⟨plan, hplan, hparts, _, hfeed⟩ := @reconcile_complete_and_exact plainDigest demoConfig _
    (fun _ => Nat.le_refl 8) rfl lostActions grantActions .relay (by
      intro a ha hactor
      simp only [grantActions, mem_cons, not_mem_nil, or_false] at ha
      rcases ha with rfl | rfl
      · cases hactor
      · exact rfl) 2 9
  have hactions : Link.feedActions Endpoint.relay.peer (Link.rebound 2 9 plan) =
      [.receive .connector .relayToConnector (.newData 2 9 7 2 0 [66, 67])] := by
    unfold Link.feedActions Link.rebound
    rw [PerDirection.get_map, PerDirection.get_map, (hparts .relayToConnector).1,
      (hparts .connectorToRelay).1]
    rfl
  refine ⟨plan, hplan, (hparts .relayToConnector).2.1.trans (by decide), ?_⟩
  refine ((hfeed ?_).2 .relayToConnector).1.trans (by decide)
  rw [hactions]
  exact ⟨fun _ => ⟨by decide, by decide⟩, trivial⟩

end AgentUplink
