import AgentUplink.Sequence.Receive

/-!
# A receiver and the script it is fed from

`Inbox.Tracks log entered` relates a receiving half to the script `log` of its
sender and to `entered`, the frames that have entered its ready queue so far:
everything held agrees, up to the carrier, with the script. It is kept by every
effect of receiving a frame that the sender emitted.
-/

namespace AgentUplink

open Machine Fallible Std DirectionState List KeyedMap Ledger ExtTreeMap

/-- The frame is a copy, on some carrier, of the script's frame of its number. -/
def CopyOf (log : List Frame) (f : Frame) : Prop :=
  ∃ g, log[f.sequence.toNat - 1]? = some g ∧ f.SameLogical g

theorem CopyOf.append {log : List Frame} {f : Frame} (h : CopyOf log f) (more : List Frame) :
    CopyOf (log ++ more) f := by
  obtain ⟨g, hg, hsame⟩ := h
  exact ⟨g, (List.getElem?_append_left (List.getElem?_eq_some_iff.1 hg).1).trans hg, hsame⟩

theorem FrameFingerprint.of_sameLogical [Sha256] {f g : Frame} (h : f.SameLogical g) :
    FrameFingerprint.of f = FrameFingerprint.of g :=
  h.congr FrameFingerprint.of fun _ => rfl

namespace Inbox

/-- The ready queue is the part of what has entered that was not delivered yet. -/
structure Queues (entered : List Frame) (b : Inbox) : Prop where
  length : entered.length = b.recvContiguous
  ready : ∀ k : Nat, b.deliveredContiguous < k → b.ready[k]? = entered[k - 1]?

/-- What the inbox holds agrees with the script. -/
structure Agrees [Sha256] (log entered : List Frame) (b : Inbox) : Prop where
  recv_le : b.recvContiguous ≤ log.length
  length : entered.length = b.recvContiguous
  same : ∀ (i : Nat) (f : Frame), entered[i]? = some f → ∃ g, log[i]? = some g ∧ f.SameLogical g
  ready : ∀ k : Nat, b.deliveredContiguous < k → b.ready[k]? = entered[k - 1]?
  reorder : ∀ (k : Nat) f, b.reorder[k]? = some f → CopyOf log f
  fingerprints : ∀ (k : Nat) p, b.fingerprints[k]? = some p →
    ∃ g, log[k - 1]? = some g ∧ p = FrameFingerprint.of g
  terminal : b.terminal = (closing (log.take b.recvContiguous)).map Prod.fst
  terminalSequence : b.terminalSequence = (closing (log.take b.recvContiguous)).map Prod.snd

structure Tracks [Sha256] (log entered : List Frame) (b : Inbox) : Prop
    extends Agrees log entered b where
  receivedBytes : b.receivedBytes =
    creditSum (log.take b.recvContiguous) + mass Frame.credit b.reorder

variable [Sha256] {log entered : List Frame} {b : Inbox}

theorem Agrees.queues (h : Agrees log entered b) : Queues entered b := ⟨h.length, h.ready⟩

theorem Agrees.append (h : Agrees log entered b) (more : List Frame) :
    Agrees (log ++ more) entered b where
  recv_le := by
    have := h.recv_le
    rw [length_append]
    omega
  length := h.length
  same i f hf := by
    obtain ⟨g, hg, hsame⟩ := h.same i f hf
    exact ⟨g, (List.getElem?_append_left (List.getElem?_eq_some_iff.1 hg).1).trans hg, hsame⟩
  ready := h.ready
  reorder k f hf := (h.reorder k f hf).append more
  fingerprints k p hp := by
    obtain ⟨g, hg, hof⟩ := h.fingerprints k p hp
    exact ⟨g, (List.getElem?_append_left (List.getElem?_eq_some_iff.1 hg).1).trans hg, hof⟩
  terminal := by
    rw [take_append_of_le_length h.recv_le]
    exact h.terminal
  terminalSequence := by
    rw [take_append_of_le_length h.recv_le]
    exact h.terminalSequence

theorem Tracks.append (h : Tracks log entered b) (more : List Frame) :
    Tracks (log ++ more) entered b :=
  { h.toAgrees.append more with
    receivedBytes := by
      rw [take_append_of_le_length h.recv_le]
      exact h.receivedBytes }

/-- So they do together with one more new frame. -/
theorem Agrees.mass_add_le (h : Agrees log entered b) (hheld : b.Held) {f : Frame}
    (hcopy : CopyOf log f) (habove : b.recvContiguous < f.sequence.toNat)
    (hfresh : b.reorder[f.sequence.toNat]? = none) {w u : Frame → Nat}
    (hw : ∀ (k : Nat) g x, b.reorder[k]? = some g → g.SameLogical x → w g ≤ u x)
    (hwf : ∀ x, f.SameLogical x → w f ≤ u x) :
    mass w b.reorder + w f ≤ ((log.drop b.recvContiguous).map u).sum := by
  rw [← mass_insert hfresh]
  apply mass_le_sum_drop
  intro k g hg
  rcases get_insert_eq_some.1 hg with ⟨rfl, rfl⟩ | ⟨-, hg⟩
  · obtain ⟨x, hx, hsame⟩ := hcopy
    exact ⟨habove, x, hx, hwf x hsame⟩
  · have hb := hheld.reorder k g hg
    obtain ⟨x, hx, hsame⟩ := h.reorder k g hg
    rw [hb.sequence] at hx
    exact ⟨hb.above, x, hx, hw k g x hg hsame⟩

/-- What the receiver has charged, with one more new frame, is within the script. -/
theorem Tracks.charge_le (h : Tracks log entered b) (hheld : b.Held) {f : Frame}
    (hcopy : CopyOf log f) (habove : b.recvContiguous < f.sequence.toNat)
    (hfresh : b.reorder[f.sequence.toNat]? = none) :
    b.receivedBytes + f.credit ≤ creditSum log := by
  have hmass := h.mass_add_le hheld hcopy habove hfresh (w := Frame.credit) (u := Frame.credit)
    (fun _ _ _ _ hsame => Nat.le_of_eq hsame.credit_eq)
    (fun _ hsame => Nat.le_of_eq hsame.credit_eq)
  have hsplit := creditSum_take_add_drop b.recvContiguous log
  have hbytes := h.receivedBytes
  unfold creditSum at hsplit hbytes ⊢
  omega

theorem Tracks.receivedBytes_le (h : Tracks log entered b) (hheld : b.Held) :
    b.receivedBytes ≤ creditSum log := by
  have hmass : mass Frame.credit b.reorder ≤ creditSum (log.drop b.recvContiguous) := by
    apply mass_le_sum_drop
    intro k g hg
    have hb := hheld.reorder k g hg
    obtain ⟨x, hx, hsame⟩ := h.reorder k g hg
    rw [hb.sequence] at hx
    exact ⟨hb.above, x, hx, Nat.le_of_eq hsame.credit_eq⟩
  have hsplit := creditSum_take_add_drop b.recvContiguous log
  have hbytes := h.receivedBytes
  omega

end Inbox

namespace DirectionState

variable [Sha256] {log : List Frame} {s : DirectionState} {f : Frame}

variable {entered : List Frame} {t : DirectionState} {d : ReceiveDisposition}

theorem unbuffered_agrees (h : s.inbox.Agrees log entered) :
    (s.unbuffered f).inbox.Agrees log entered :=
  { h with
    reorder := by
      intro k g hg
      have hg : (s.reorder.erase f.sequence.toNat)[k]? = some g := hg
      rw [get_erase] at hg
      split at hg
      · cases hg
      · exact h.reorder k g hg }

omit [Sha256] in
theorem entered_queues [Sha256] (h : s.inbox.Queues entered) (hheld : s.inbox.Held)
    (hnext : f.sequence.toNat = s.recvContiguous + 1) :
    (s.entered f).inbox.Queues (entered ++ [f]) := by
  have hlen : entered.length = s.recvContiguous := h.length
  have hdelivered : s.deliveredContiguous ≤ s.recvContiguous := hheld.delivered_le
  rw [inbox_entered]
  refine ⟨by simp [hlen, hnext], fun k hk => ?_⟩
  have hk : s.deliveredContiguous < k := hk
  have hready : s.ready[k]? = entered[k - 1]? := h.ready k hk
  show (s.ready.insert f.sequence.toNat f)[k]? = (entered ++ [f])[k - 1]?
  rw [get_insert, List.getElem?_append, hlen]
  by_cases hkf : f.sequence.toNat = k
  · rw [if_pos hkf, if_neg (by omega), show k - 1 - s.recvContiguous = 0 by omega]
    rfl
  · rw [if_neg hkf, hready]
    split
    · rfl
    · rw [List.getElem?_eq_none (by omega), List.getElem?_eq_none]
      rw [length_singleton]
      omega

/-- Entering the next frame of the script extends what has entered by that frame. -/
theorem entered_agrees (h : s.inbox.Agrees log entered) (hheld : s.inbox.Held)
    (hcopy : CopyOf log f) (hnext : f.sequence.toNat = s.recvContiguous + 1) :
    (s.entered f).inbox.Agrees log (entered ++ [f]) := by
  obtain ⟨g, hg, hsame⟩ := hcopy
  have hqueues := entered_queues (f := f) h.queues hheld hnext
  have hlen : entered.length = s.recvContiguous := h.length
  rw [hnext, Nat.add_sub_cancel] at hg
  have hlt : s.recvContiguous < log.length := (List.getElem?_eq_some_iff.1 hg).1
  have hclosing := Script.closing_take_succ hg
  rw [← hsame.closing_eq, ← hsame.sequence_eq, hnext] at hclosing
  rw [inbox_entered] at hqueues ⊢
  exact
    { recv_le := by
        show f.sequence.toNat ≤ log.length
        omega
      length := hqueues.length
      ready := hqueues.ready
      same := by
        intro i x hx
        rcases lt_or_ge i entered.length with hi | hi
        · rw [List.getElem?_append_left hi] at hx
          exact h.same i x hx
        · rw [List.getElem?_append_right hi, List.getElem?_singleton] at hx
          split at hx
          · cases hx
            have hi : i = s.recvContiguous := by omega
            exact ⟨g, hi ▸ hg, hsame⟩
          · cases hx
      reorder := h.reorder
      fingerprints := by
        intro k p hp
        rcases get_insert_eq_some.1 (mem_expireFingerprints hp) with ⟨rfl, rfl⟩ | ⟨-, hp⟩
        · refine ⟨g, ?_, FrameFingerprint.of_sameLogical hsame⟩
          rw [hnext, Nat.add_sub_cancel]
          exact hg
        · exact h.fingerprints k p hp
      terminal := by
        have hterm : s.receiveTerminal = (closing (log.take s.recvContiguous)).map Prod.fst :=
          h.terminal
        show f.closing.or s.receiveTerminal = (closing (log.take f.sequence.toNat)).map Prod.fst
        rw [hnext, hclosing, hterm]
        cases f.closing <;> rfl
      terminalSequence := by
        have hterm : s.receiveTerminalSequence =
            (closing (log.take s.recvContiguous)).map Prod.snd := h.terminalSequence
        show (f.closing.map fun _ => f.sequence.toNat).or s.receiveTerminalSequence =
          (closing (log.take f.sequence.toNat)).map Prod.snd
        rw [hnext, hclosing, hterm]
        cases f.closing <;> rfl }

section

variable (h : s.inbox.Tracks log entered)
include h

theorem charged_entered_tracks (hheld : s.inbox.Held) (hcovers : s.inbox.Covers f)
    (hcopy : CopyOf log f) (hnext : f.sequence.toNat = s.recvContiguous + 1) :
    ((s.charged f).entered f).inbox.Tracks log (entered ++ [f]) := by
  have hagrees := entered_agrees (s := s.charged f) { h.toAgrees with } (charged_held hheld hcovers)
    hcopy hnext
  obtain ⟨g, hg, hsame⟩ := hcopy
  rw [hnext, Nat.add_sub_cancel] at hg
  refine { hagrees with receivedBytes := ?_ }
  rw [inbox_entered]
  show s.receivedBytes + f.credit =
    creditSum (log.take f.sequence.toNat) + mass Frame.credit s.reorder
  have hbytes : s.receivedBytes =
      creditSum (log.take s.recvContiguous) + mass Frame.credit s.reorder :=
    h.receivedBytes
  rw [hnext, creditSum_take_succ hg, hsame.credit_eq]
  omega

theorem promoted_tracks {frames : List Frame} (hheld : s.inbox.Held)
    (hcons : s.Consecutive frames) : (s.promoted frames).inbox.Tracks log (entered ++ frames) := by
  induction frames generalizing s entered with
  | nil =>
    rw [append_nil]
    exact h
  | cons f frames ih =>
    obtain ⟨hf, hseq⟩ := hcons.head hheld
    obtain ⟨hheld', hcons', _, _⟩ := promote_step hheld hcons
    have hcopy := h.reorder _ f hf
    have hagrees := entered_agrees (unbuffered_agrees (f := f) h.toAgrees)
      (unbuffered_held hheld hf).1 hcopy hseq
    obtain ⟨g, hg, hsame⟩ := hcopy
    rw [hseq, Nat.add_sub_cancel] at hg
    have htracks : ((s.unbuffered f).entered f).inbox.Tracks log (entered ++ [f]) := by
      refine { hagrees with receivedBytes := ?_ }
      rw [inbox_entered]
      show s.receivedBytes = creditSum (log.take f.sequence.toNat) +
        mass Frame.credit (s.reorder.erase f.sequence.toNat)
      have hbytes : s.receivedBytes =
          creditSum (log.take s.recvContiguous) + mass Frame.credit s.reorder :=
        h.receivedBytes
      have hmass := mass_erase hf Frame.credit
      rw [hseq] at hmass ⊢
      rw [creditSum_take_succ hg, ← hsame.credit_eq]
      omega
    have := ih htracks hheld' hcons'
    rw [append_assoc] at this
    exact this

theorem buffered_tracks (hcopy : CopyOf log f) (hfresh : s.reorder[f.sequence.toNat]? = none) :
    ((s.charged f).bufferReorder f).inbox.Tracks log entered := by
  refine { h with reorder := ?_, receivedBytes := ?_ }
  · intro k g hg
    rcases get_insert_eq_some.1 hg with ⟨-, rfl⟩ | ⟨-, hg⟩
    · exact hcopy
    · exact h.reorder k g hg
  · show s.receivedBytes + f.credit = creditSum (log.take s.recvContiguous) +
      mass Frame.credit (s.reorder.insert f.sequence.toNat f)
    have hbytes : s.receivedBytes =
        creditSum (log.take s.recvContiguous) + mass Frame.credit s.reorder :=
      h.receivedBytes
    rw [mass_insert hfresh]
    omega

/-- The frames a call of `receive` moved to the ready queue, oldest first. -/
theorem Received.tracks (hsettled : s.inbox.Settled)
    (hcopy : f.kind.sequenced = true → CopyOf log f) (hr : s.Received f d t) :
    ∃ new, t.inbox.Tracks log (entered ++ new) := by
  cases hr with
  | unsequenced hk | duplicate hk known => exact ⟨[], by rw [append_nil]; exact h⟩
  | buffered hb =>
    exact ⟨[], by rw [append_nil]; exact buffered_tracks h (hcopy hb.sequenced) hb.fresh⟩
  | accepted ha =>
    have hheld := ha.entered_held hsettled
    have htracks := charged_entered_tracks h hsettled.toHeld ha.covers (hcopy ha.sequenced) ha.next
    exact ⟨[f] ++ s.completed f, by
      rw [← append_assoc]
      exact promoted_tracks htracks hheld (s.completed_consecutive f)⟩

end

theorem Received.delivered_eq (hr : s.Received f d t) :
    t.deliveredContiguous = s.deliveredContiguous := by
  cases hr with
  | unsequenced hk | duplicate hk known | buffered hb => rfl
  | accepted ha =>
    rw [promoted_keeps _ fun f s => entered_deliveredContiguous f (s.unbuffered f)]
    exact entered_deliveredContiguous ..

theorem Received.receiveCredit_eq (hr : s.Received f d t) : t.receiveCredit = s.receiveCredit := by
  cases hr with
  | unsequenced hk | duplicate hk known | buffered hb => rfl
  | accepted ha =>
    rw [promoted_keeps _ fun f s => entered_receiveCredit f (s.unbuffered f)]
    exact entered_receiveCredit ..

/-! ## The ready queue as part of what has entered -/

omit [Sha256] in
theorem mem_ready (h : s.inbox.Queues entered) (hheld : s.inbox.Held) {k : Nat} {x : Frame} :
    s.ready[k]? = some x ↔ s.deliveredContiguous < k ∧ entered[k - 1]? = some x := by
  by_cases hk : s.deliveredContiguous < k
  · have hready : s.ready[k]? = entered[k - 1]? := h.ready k hk
    simp [hready, hk]
  · have hnone : s.ready[k]? = none := (hheld.ready k).2 fun hmem => hk hmem.1
    simp [hnone, hk]

omit [Sha256] in
theorem readyFrames_eq (h : s.inbox.Queues entered) (hheld : s.inbox.Held) :
    s.readyFrames = entered.drop s.deliveredContiguous := by
  unfold readyFrames
  rw [eq_numbered (toList_pairwise s.ready) (l := entered)
    (a := s.deliveredContiguous), map_snd_numbered]
  intro k v
  rw [mem_toList_iff_getElem?_eq_some, mem_ready h hheld]

omit [Sha256] in
/-- A state that has entered more has gained exactly that, and lost nothing. -/
theorem gained_of_entered {new : List Frame} (hs : s.inbox.Queues entered) (hheld : s.inbox.Held)
    (ht : t.inbox.Queues (entered ++ new)) (hheld' : t.inbox.Held)
    (hdelivered : t.deliveredContiguous = s.deliveredContiguous) :
    gained s.ready t.ready = new ∧ gained t.ready s.ready = [] := by
  have hlen : entered.length = s.recvContiguous := hs.length
  have hle : s.deliveredContiguous ≤ s.recvContiguous := hheld.delivered_le
  constructor
  · rw [gained_eq_drop (l := entered ++ new) (a := entered.length), drop_left]
    intro k v
    rw [mem_ready ht hheld', Ne, mem_ready hs hheld, hdelivered]
    rcases lt_or_ge (k - 1) entered.length with hlt | hge
    · rw [List.getElem?_append_left hlt]
      constructor
      · rintro ⟨⟨hk, hv⟩, hno⟩
        exact absurd ⟨hk, hv⟩ hno
      · rintro ⟨hk, hv⟩
        omega
    · constructor
      · rintro ⟨⟨hk, hv⟩, _⟩
        refine ⟨?_, hv⟩
        by_contra hnot
        omega
      · rintro ⟨hk, hv⟩
        refine ⟨⟨by omega, hv⟩, ?_⟩
        rintro ⟨_, hv'⟩
        have := (List.getElem?_eq_some_iff.1 hv').1
        omega
  · apply gained_eq_nil
    intro k v hv
    rw [mem_ready hs hheld] at hv
    rw [mem_ready ht hheld', hdelivered]
    exact ⟨hv.1, (List.getElem?_append_left (List.getElem?_eq_some_iff.1 hv.2).1).trans hv.2⟩

/-! ## Delivery -/

omit [Sha256] in
theorem delivered_deliveredContiguous (through : Nat) (s : DirectionState) :
    (s.delivered through).deliveredContiguous = max through s.deliveredContiguous := by
  unfold delivered
  by_cases hthrough : through ≤ s.deliveredContiguous
  · rw [if_pos hthrough]
    omega
  · rw [if_neg hthrough]
    show through = _
    omega

omit [Sha256] in
theorem delivered_queues (through : Nat) (h : s.inbox.Queues entered) :
    (s.delivered through).inbox.Queues entered := by
  unfold delivered
  by_cases hthrough : through ≤ s.deliveredContiguous
  · rw [if_pos hthrough]
    exact h
  · rw [if_neg hthrough]
    refine ⟨h.length, fun k hk => ?_⟩
    have hk : through < k := hk
    show (dropThrough payloadLength through s.ready s.readyBytes).1[k]? = entered[k - 1]?
    rw [get_dropThrough, if_neg (by omega)]
    exact h.ready k (by
      show s.deliveredContiguous < k
      omega)

theorem delivered_tracks (through : Nat) (h : s.inbox.Tracks log entered) :
    (s.delivered through).inbox.Tracks log entered := by
  have hready := (delivered_queues through h.queues).ready
  unfold delivered at hready ⊢
  by_cases hthrough : through ≤ s.deliveredContiguous
  · rw [if_pos hthrough]
    exact h
  · rw [if_neg hthrough] at hready ⊢
    exact { h with ready := hready }

omit [Sha256] in
theorem gained_of_delivered {through : Nat} (h : s.inbox.Queues entered) (hheld : s.inbox.Held)
    (hle : through ≤ s.recvContiguous) :
    gained s.ready (s.delivered through).ready = [] ∧
      gained (s.delivered through).ready s.ready =
        (entered.take (s.delivered through).deliveredContiguous).drop s.deliveredContiguous := by
  have hheld' := delivered_held hheld hle
  have hqueues := delivered_queues through h
  have hmax := delivered_deliveredContiguous through s
  constructor
  · apply gained_eq_nil
    intro k v hv
    rw [mem_ready hqueues hheld'] at hv
    rw [mem_ready h hheld]
    exact ⟨by omega, hv.2⟩
  · apply gained_eq_drop
    intro k v
    rw [mem_ready h hheld, Ne, mem_ready hqueues hheld', List.getElem?_take]
    constructor
    · rintro ⟨⟨hk, hv⟩, hno⟩
      refine ⟨hk, ?_⟩
      rw [if_pos, hv]
      by_contra hnot
      exact hno ⟨by omega, hv⟩
    · rintro ⟨hk, hv⟩
      split at hv
      · exact ⟨⟨hk, hv⟩, fun hmem => by omega⟩
      · cases hv

theorem advertised_tracks (limit : Nat) (h : s.inbox.Tracks log entered) :
    (s.advertised limit).inbox.Tracks log entered := by
  unfold advertised
  split
  · exact { h with }
  · exact h

end DirectionState

theorem inbox_new_tracks [Sha256] (sendCredit receiveCredit : Nat) (limits : SequenceLimits) :
    (DirectionState.new sendCredit receiveCredit limits).inbox.Tracks [] [] where
  recv_le := Nat.le_refl 0
  length := rfl
  same i f hf := by simp at hf
  ready k _ := by
    show (∅ : ExtTreeMap Nat Frame)[k]? = _
    rw [getElem?_empty, List.getElem?_nil]
  reorder k f hf := by
    have hf : (∅ : ExtTreeMap Nat Frame)[k]? = some f := hf
    rw [getElem?_empty] at hf
    cases hf
  fingerprints k p hp := by
    have hp : (∅ : ExtTreeMap Nat FrameFingerprint)[k]? = some p := hp
    rw [getElem?_empty] at hp
    cases hp
  terminal := rfl
  terminalSequence := rfl
  receivedBytes := (mass_empty Frame.credit).symm

end AgentUplink
