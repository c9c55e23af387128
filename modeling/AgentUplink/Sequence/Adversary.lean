import AgentUplink.Lib.Trace
import AgentUplink.Sequence.Replay

/-!
# A stream against any peer

Here nothing is assumed about the frames that arrive: they need not come from a
sender, and the same number may arrive with different contents. The results say
what an endpoint's two directions look like after any sequence of calls, whether
the calls succeed or fail.

`entered` lists the frames that have entered the ready queue and `admitted` the
frames that were charged, both read off the calls of the run.
-/

namespace AgentUplink

open Machine Fallible Std DirectionState List KeyedMap

/-! ## What a receiver has taken in -/

namespace Inbox

/-- Whoever sent them, the frames that entered the ready queue form a script. -/
structure Logs (entered : List Frame) (b : Inbox) : Prop extends Queues entered b where
  script : Script entered
  terminal : b.terminal = (closing entered).map Prod.fst
  terminalSequence : b.terminalSequence = (closing entered).map Prod.snd

def Has (b : Inbox) (n : UInt64) : Prop :=
  n.toNat ≤ b.recvContiguous ∨ ∃ f, b.reorder[n.toNat]? = some f

/-- Every number received or buffered was charged once. -/
structure Charges (admitted : List Frame) (b : Inbox) : Prop where
  receivedBytes : b.receivedBytes = creditSum admitted
  once : (admitted.map Frame.sequence).Nodup
  has : ∀ n, (∃ f ∈ admitted, f.sequence = n) ↔ n ≠ 0 ∧ b.Has n

end Inbox

/-- The frame, if receiving it took it in: a duplicate is not taken in again, and a frame
without a sequence number is not kept. -/
def ReceiveDisposition.admitted (disposition : ReceiveDisposition) (f : Frame) : Option Frame :=
  if f.kind.sequenced ∧ disposition ≠ .duplicate then some f else none

namespace DirectionState

variable [Sha256] {s t : DirectionState} {f : Frame} {entered admitted : List Frame}

theorem entered_logs (h : s.inbox.Logs entered) (hheld : s.inbox.Held)
    (hvalid : f.validate = .ok ()) (hseq : f.kind.sequenced = true)
    (hnext : f.sequence.toNat = s.recvContiguous + 1)
    (hfollow : mayFollow s.receiveTerminal f.kind = true) :
    (s.entered f).inbox.Logs (entered ++ [f]) := by
  have hqueues := entered_queues (f := f) h.toQueues hheld hnext
  have hlength : entered.length = s.recvContiguous := h.length
  have hterminal : s.receiveTerminal = (closing entered).map Prod.fst := h.terminal
  have hsequence : s.receiveTerminalSequence = (closing entered).map Prod.snd := h.terminalSequence
  rw [inbox_entered] at hqueues ⊢
  exact
    { toQueues := hqueues
      script := by
        refine h.script.snoc ?_ hvalid hseq ?_
        · rw [hlength, hnext]
        · rw [← hterminal]
          exact hfollow
      terminal := by
        show f.closing.or s.receiveTerminal = (closing (entered ++ [f])).map Prod.fst
        rw [closing_snoc, hterminal]
        cases f.closing <;> rfl
      terminalSequence := by
        show (f.closing.map fun _ => f.sequence.toNat).or s.receiveTerminalSequence =
          (closing (entered ++ [f])).map Prod.snd
        rw [closing_snoc, hsequence]
        cases f.closing <;> rfl }

theorem promoted_logs {frames : List Frame} (h : s.inbox.Logs entered) (hheld : s.inbox.Held)
    (hcons : s.Consecutive frames) (hfollows : Follows s.receiveTerminal frames) :
    (s.promoted frames).inbox.Logs (entered ++ frames) := by
  induction frames generalizing s entered with
  | nil =>
    rw [append_nil]
    exact h
  | cons f frames ih =>
    obtain ⟨hf, hseq⟩ := hcons.head hheld
    obtain ⟨hheld', hcons', _, _⟩ := promote_step hheld hcons
    have hb := hheld.reorder _ f hf
    have hone : ((s.unbuffered f).entered f).inbox.Logs (entered ++ [f]) :=
      entered_logs (s := s.unbuffered f) { h with } (unbuffered_held hheld hf).1 hb.valid
        hb.sequenced hseq hfollows.1
    have hrest := ih hone hheld' hcons' (by
      rw [entered_receiveTerminal]
      exact hfollows.2)
    rw [append_assoc] at hrest
    exact hrest

variable {d : ReceiveDisposition} {admits : Option Frame}

/-- Receiving a frame enters it and what it completes, in order, or nothing. -/
theorem Received.logs (h : s.inbox.Logs entered) (hsettled : s.inbox.Settled)
    (hvalid : f.validate = .ok ()) (hr : s.Received f d t) :
    ∃ new, t.inbox.Logs (entered ++ new) := by
  cases hr with
  | unsequenced hk | duplicate hk known => exact ⟨[], by rw [append_nil]; exact h⟩
  | buffered hb => exact ⟨[], by rw [append_nil]; exact { h with }⟩
  | accepted ha =>
    have hheld := ha.entered_held hsettled
    have hone : ((s.charged f).entered f).inbox.Logs (entered ++ [f]) :=
      entered_logs (s := s.charged f) { h with } (charged_held hsettled.toHeld ha.covers) hvalid
        ha.sequenced ha.next ha.follows.1
    refine ⟨[f] ++ s.completed f, ?_⟩
    rw [← append_assoc]
    refine promoted_logs hone hheld (s.completed_consecutive f) ?_
    rw [entered_receiveTerminal]
    exact ha.follows.2

theorem Received.charges (h : s.inbox.Charges admitted) (hsettled : s.inbox.Settled)
    (hvalid : f.validate = .ok ()) (hr : s.Received f d t) :
    t.inbox.Charges (admitted ++ (d.admitted f).toList) := by
  by_cases hk : f.kind.sequenced = true
  case neg =>
    have hnone : d.admitted f = none := if_neg fun hand => hk hand.1
    cases hr with
    | unsequenced _ => simpa [hnone] using h
    | duplicate hseq _ => exact absurd hseq hk
    | buffered hb => exact absurd hb.sequenced hk
    | accepted ha => exact absurd ha.sequenced hk
  have hknown := fun n => hr.known_iff hsettled hk { f with sequence := n }
  have hbytes := hr.receivedBytes_eq hsettled hk
  by_cases hold : s.Known f
  · have hnone : d.admitted f = none := by
      cases hr with
      | unsequenced hnot => exact absurd hk (by simp [hnot])
      | duplicate _ _ => exact if_neg fun hand => hand.2 rfl
      | buffered hb => exact absurd hold hb.not_known
      | accepted ha => exact absurd hold (ha.not_known hsettled)
    rw [if_pos hold, Nat.add_zero] at hbytes
    rw [hnone, Option.toList_none, append_nil]
    refine ⟨hbytes.trans h.receivedBytes, h.once, fun n => (h.has n).trans ?_⟩
    refine and_congr_right fun _ => ⟨fun hn => (hknown n).2 (.inl hn), fun hn => ?_⟩
    rcases (hknown n).1 hn with hn | hn
    · exact hn
    · have hn : n = f.sequence := hn
      rw [hn]
      exact hold
  · have hsome : d.admitted f = some f := by
      refine if_pos ⟨hk, fun hdup => ?_⟩
      subst hdup
      cases hr with
      | duplicate _ known => exact hold known
    have hpos := Frame.sequence_pos hvalid hk
    rw [if_neg hold] at hbytes
    rw [hsome, Option.toList_some]
    refine ⟨?_, ?_, fun n => ?_⟩
    · have hreceived : s.receivedBytes = creditSum admitted := h.receivedBytes
      show t.receivedBytes = _
      rw [creditSum_snoc, hbytes, hreceived]
    · rw [map_append, map_singleton, nodup_append]
      refine ⟨h.once, nodup_singleton _, ?_⟩
      intro n hn m hm heq
      obtain ⟨g, hg, rfl⟩ := mem_map.1 hn
      rw [mem_singleton.1 hm] at heq
      exact hold ((h.has f.sequence).1 ⟨g, hg, heq⟩).2
    · rw [show t.inbox.Has n ↔ s.inbox.Has n ∨ n = f.sequence from hknown n]
      constructor
      · rintro ⟨g, hg, rfl⟩
        rcases mem_append.1 hg with hg | hg
        · obtain ⟨hne, hhas⟩ := (h.has g.sequence).1 ⟨g, hg, rfl⟩
          exact ⟨hne, .inl hhas⟩
        · rw [mem_singleton.1 hg]
          refine ⟨fun hzero => ?_, .inr rfl⟩
          rw [hzero] at hpos
          exact absurd hpos (by decide)
      · rintro ⟨hne, hhas | rfl⟩
        · obtain ⟨g, hg, hn⟩ := (h.has n).2 ⟨hne, hhas⟩
          exact ⟨g, mem_append_left _ hg, hn⟩
        · exact ⟨f, mem_append_right _ (mem_singleton.2 rfl), rfl⟩

theorem Received.recv_le (hsettled : s.inbox.Settled) (hr : s.Received f d t) :
    s.recvContiguous ≤ t.recvContiguous := by
  cases hr with
  | unsequenced hk | duplicate hk known | buffered hb => exact Nat.le_refl _
  | accepted ha =>
    have hpromoted :=
      (promoted_known (ha.entered_held hsettled) (s.completed_consecutive f) (g := f)).2
    rw [entered_recvContiguous] at hpromoted
    have := ha.next
    omega

theorem Received.received_le (hr : s.Received f d t) : s.receivedBytes ≤ t.receivedBytes := by
  cases hr with
  | unsequenced hk | duplicate hk known => exact Nat.le_refl _
  | buffered hb => exact Nat.le_add_right _ _
  | accepted ha =>
    rw [promoted_receivedBytes, entered_receivedBytes]
    exact Nat.le_add_right _ _

/-! ## What one call does to a direction -/

/-- The effects a call on a stream can have on one of its directions, with the frame it
takes in. -/
inductive Turn (s : DirectionState) : Option Frame → DirectionState → Prop
  | stay : Turn s none s
  | emit {f : Frame} (hvalid : f.validate = .ok ()) (hseq : f.kind.sequenced = true)
      (he : s.Emittable f) : Turn s none (s.emitted f)
  | ack {ack : Nat} (hack : ack ≤ s.lastEmitted) : Turn s none (s.acked ack)
  | credit (limit : UInt64) : Turn s none (s.credited limit.toNat)
  | credits {f : Frame} (hack : f.ack.toNat ≤ s.lastEmitted) :
      Turn s none (StreamState.credits f s)
  | advertise (limit : UInt64) : Turn s none (s.advertised limit.toNat)
  | deliver {through : Nat} (hle : through ≤ s.recvContiguous) : Turn s none (s.delivered through)
  | receive {f : Frame} {d : ReceiveDisposition} {t : DirectionState}
      (hvalid : f.validate = .ok ()) (hr : s.Received f d t) : Turn s (d.admitted f) t

/-- What holds of a direction of an endpoint, whatever its peer does. -/
structure Stands (entered admitted : List Frame) (s : DirectionState) : Prop where
  outbox : ∃ sent, s.outbox.Tracks sent
  settled : s.inbox.Settled
  logs : s.inbox.Logs entered
  charges : s.inbox.Charges admitted

/-- Cursors, acknowledgements, credits and byte totals only grow. -/
structure Grows (s t : DirectionState) : Prop where
  limits : t.limits = s.limits
  lastEmitted : s.lastEmitted ≤ t.lastEmitted
  peerAcked : s.peerAcked ≤ t.peerAcked
  recvContiguous : s.recvContiguous ≤ t.recvContiguous
  deliveredContiguous : s.deliveredContiguous ≤ t.deliveredContiguous
  sendCredit : s.sendCredit ≤ t.sendCredit
  sentBytes : s.sentBytes ≤ t.sentBytes
  receiveCredit : s.receiveCredit ≤ t.receiveCredit
  receivedBytes : s.receivedBytes ≤ t.receivedBytes

section

omit [Sha256]

theorem Grows.of_inbox (hin : t.inbox = s.inbox) (hemitted : s.lastEmitted ≤ t.lastEmitted)
    (hacked : s.peerAcked ≤ t.peerAcked) (hcredit : s.sendCredit ≤ t.sendCredit)
    (hsent : s.sentBytes ≤ t.sentBytes) : s.Grows t where
  limits := congrArg Inbox.limits hin
  lastEmitted := hemitted
  peerAcked := hacked
  recvContiguous := Nat.le_of_eq (congrArg Inbox.recvContiguous hin).symm
  deliveredContiguous := Nat.le_of_eq (congrArg Inbox.deliveredContiguous hin).symm
  sendCredit := hcredit
  sentBytes := hsent
  receiveCredit := Nat.le_of_eq (congrArg Inbox.receiveCredit hin).symm
  receivedBytes := Nat.le_of_eq (congrArg Inbox.receivedBytes hin).symm

theorem Grows.of_outbox (hout : t.outbox = s.outbox) (hrecv : s.recvContiguous ≤ t.recvContiguous)
    (hdelivered : s.deliveredContiguous ≤ t.deliveredContiguous)
    (hcredit : s.receiveCredit ≤ t.receiveCredit) (hreceived : s.receivedBytes ≤ t.receivedBytes) :
    s.Grows t where
  limits := congrArg Outbox.limits hout
  lastEmitted := Nat.le_of_eq (congrArg Outbox.lastEmitted hout).symm
  peerAcked := Nat.le_of_eq (congrArg Outbox.peerAcked hout).symm
  recvContiguous := hrecv
  deliveredContiguous := hdelivered
  sendCredit := Nat.le_of_eq (congrArg Outbox.sendCredit hout).symm
  sentBytes := Nat.le_of_eq (congrArg Outbox.sentBytes hout).symm
  receiveCredit := hcredit
  receivedBytes := hreceived

theorem Grows.refl (s : DirectionState) : s.Grows s :=
  .of_inbox rfl (Nat.le_refl _) (Nat.le_refl _) (Nat.le_refl _) (Nat.le_refl _)

theorem Grows.trans {u : DirectionState} (h : s.Grows t) (h' : t.Grows u) : s.Grows u where
  limits := h'.limits.trans h.limits
  lastEmitted := Nat.le_trans h.lastEmitted h'.lastEmitted
  peerAcked := Nat.le_trans h.peerAcked h'.peerAcked
  recvContiguous := Nat.le_trans h.recvContiguous h'.recvContiguous
  deliveredContiguous := Nat.le_trans h.deliveredContiguous h'.deliveredContiguous
  sendCredit := Nat.le_trans h.sendCredit h'.sendCredit
  sentBytes := Nat.le_trans h.sentBytes h'.sentBytes
  receiveCredit := Nat.le_trans h.receiveCredit h'.receiveCredit
  receivedBytes := Nat.le_trans h.receivedBytes h'.receivedBytes

theorem acked_grows (ack : Nat) (s : DirectionState) : s.Grows (s.acked ack) := by
  have hacked := acked_peerAcked ack s
  refine .of_inbox (inbox_acked ack s) ?_ (by omega) (Nat.le_of_eq (acked_sendCredit ack s).symm) ?_
  all_goals
    unfold acked
    split <;> exact Nat.le_refl _

theorem credited_grows (limit : Nat) (s : DirectionState) : s.Grows (s.credited limit) := by
  have hcredit := credited_sendCredit limit s
  refine .of_inbox (inbox_credited limit s) ?_ ?_ (by omega) ?_
  all_goals
    unfold credited
    split <;> exact Nat.le_refl _

theorem emitted_grows (he : s.Emittable f) : s.Grows (s.emitted f) := by
  have hnext := he.next
  have hemitted : (s.emitted f).lastEmitted = f.sequence.toNat := by
    unfold emitted closeSend
    cases f.closing <;> rfl
  have hsent : (s.emitted f).sentBytes = s.sentBytes + f.credit := by
    unfold emitted closeSend
    cases f.closing <;> rfl
  exact .of_inbox (inbox_emitted f s) (by omega) (Nat.le_of_eq (emitted_peerAcked f s).symm)
    (Nat.le_of_eq (emitted_sendCredit f s).symm) (by omega)

theorem credits_grows (f : Frame) (s : DirectionState) : s.Grows (StreamState.credits f s) := by
  unfold StreamState.credits
  split
  · exact (acked_grows _ s).trans (credited_grows _ _)
  · exact acked_grows _ s

theorem advertised_grows (limit : Nat) (s : DirectionState) : s.Grows (s.advertised limit) := by
  have hle : s.receiveCredit ≤ (s.advertised limit).receiveCredit := by
    unfold advertised
    split
    next hgt => exact Nat.le_of_lt hgt
    next => exact Nat.le_refl _
  refine .of_outbox (outbox_advertised limit s) ?_ ?_ hle ?_
  all_goals
    unfold advertised
    split <;> exact Nat.le_refl _

theorem delivered_grows (through : Nat) (s : DirectionState) : s.Grows (s.delivered through) := by
  have hdelivered := delivered_deliveredContiguous through s
  refine .of_outbox (outbox_delivered through s) ?_ (by omega) ?_ ?_
  all_goals
    unfold delivered
    split <;> exact Nat.le_refl _

section

variable (h : s.Stands entered admitted)
include h

theorem Stands.of_inbox {sent : List Frame} (hout : t.outbox.Tracks sent)
    (hin : t.inbox = s.inbox) : t.Stands (entered ++ gained s.ready t.ready) admitted := by
  have hready : t.ready = s.ready := congrArg Inbox.ready hin
  rw [hready, gained_self, append_nil]
  exact ⟨⟨sent, hout⟩, hin ▸ h.settled, hin ▸ h.logs, hin ▸ h.charges⟩

/-- A step that leaves the outbox, and what has entered and was charged, alone. -/
theorem Stands.of_outbox (hout : t.outbox = s.outbox) (hsettled : t.inbox.Settled)
    (hlogs : t.inbox.Logs entered) (hcharges : t.inbox.Charges admitted)
    (hready : gained s.ready t.ready = []) :
    t.Stands (entered ++ gained s.ready t.ready) admitted := by
  rw [hready, append_nil]
  exact ⟨hout ▸ h.outbox, hsettled, hlogs, hcharges⟩

theorem Stands.advertise (limit : Nat) :
    (s.advertised limit).Stands (entered ++ gained s.ready (s.advertised limit).ready)
      admitted := by
  have hsettled := advertised_settled limit h.settled
  unfold advertised at hsettled ⊢
  by_cases hgt : limit > s.receiveCredit
  · rw [if_pos hgt] at hsettled ⊢
    exact h.of_outbox rfl hsettled { h.logs with } { h.charges with } (gained_self _)
  · rw [if_neg hgt, gained_self, append_nil]
    exact h

theorem Stands.deliver {through : Nat} (hle : through ≤ s.recvContiguous) :
    (s.delivered through).Stands (entered ++ gained s.ready (s.delivered through).ready)
      admitted := by
  have hsettled := delivered_settled h.settled hle
  have hqueues := delivered_queues through h.logs.toQueues
  have hgained := (gained_of_delivered h.logs.toQueues h.settled.toHeld hle).1
  unfold delivered at hsettled hqueues hgained ⊢
  by_cases hpast : through ≤ s.deliveredContiguous
  · rw [if_pos hpast, gained_self, append_nil]
    exact h
  · rw [if_neg hpast] at hsettled hqueues hgained ⊢
    exact h.of_outbox rfl hsettled
      { hqueues with
        script := h.logs.script
        terminal := h.logs.terminal
        terminalSequence := h.logs.terminalSequence } { h.charges with } hgained

end

end

theorem Turn.grows (hsettled : s.inbox.Settled) (h : s.Turn admits t) : s.Grows t := by
  cases h with
  | stay => exact .refl s
  | emit _ _ he => exact emitted_grows he
  | ack _ => exact acked_grows _ s
  | credit limit => exact credited_grows limit.toNat s
  | credits _ => exact credits_grows _ s
  | advertise limit => exact advertised_grows limit.toNat s
  | deliver _ => exact delivered_grows _ s
  | receive _ hr =>
    exact .of_outbox hr.outbox_eq (hr.recv_le hsettled) (Nat.le_of_eq hr.delivered_eq.symm)
      (Nat.le_of_eq hr.receiveCredit_eq.symm) hr.received_le

theorem Turn.stands (h : s.Stands entered admitted) (hturn : s.Turn admits t) :
    t.Stands (entered ++ gained s.ready t.ready) (admitted ++ admits.toList) := by
  obtain ⟨sent, hsent⟩ := h.outbox
  cases hturn with
  | stay => simpa [gained_self] using h
  | emit hvalid hseq he =>
    simpa using h.of_inbox (emitted_tracks hsent hvalid hseq he) (inbox_emitted _ s)
  | ack hack => simpa using h.of_inbox (acked_tracks hsent hack) (inbox_acked _ s)
  | credit limit => simpa using h.of_inbox (credited_tracks limit.toNat hsent) (inbox_credited _ s)
  | credits hack =>
    simpa using h.of_inbox (StreamState.credits_tracks hsent hack) (StreamState.inbox_credits _ s)
  | advertise limit => simpa using h.advertise limit.toNat
  | deliver hle => simpa using h.deliver hle
  | receive hvalid hr =>
    have hsettled := hr.settled h.settled hvalid
    obtain ⟨new, hlogs⟩ := hr.logs h.logs h.settled hvalid
    have hgained := (gained_of_entered h.logs.toQueues h.settled.toHeld hlogs.toQueues
      hsettled.toHeld hr.delivered_eq).1
    rw [hgained]
    exact ⟨⟨sent, hr.outbox_eq ▸ hsent⟩, hsettled, hlogs, hr.charges h.charges h.settled hvalid⟩

theorem stands_new (sendCredit receiveCredit : Nat) {limits : SequenceLimits}
    (hlimits : limits.validate = .ok ()) :
    (DirectionState.new sendCredit receiveCredit limits).Stands [] [] where
  outbox := ⟨[], outbox_new_tracks sendCredit receiveCredit hlimits⟩
  settled := inbox_new_settled sendCredit receiveCredit hlimits
  logs :=
    { (inbox_new_tracks sendCredit receiveCredit limits).queues with
      script := .nil
      terminal := rfl
      terminalSequence := rfl }
  charges :=
    { receivedBytes := rfl
      once := nodup_nil
      has := by
        intro n
        constructor
        · rintro ⟨f, hf, _⟩
          cases hf
        · rintro ⟨hne, hle | ⟨f, hf⟩⟩
          · have hle : n.toNat ≤ 0 := hle
            exact absurd (UInt64.toNat_inj.1 (Nat.le_zero.1 hle)) hne
          · have hf : (∅ : ExtTreeMap Nat Frame)[n.toNat]? = some f := hf
            rw [ExtTreeMap.getElem?_empty] at hf
            cases hf }

end DirectionState

end AgentUplink
