import AgentUplink.Sequence.Representation

/-!
# The order of arrival

Frames of one sender may reach its peer in any order and any number of times. What
the receiver holds afterwards under a number above its delivery cursor is what it held
before, or else the first frame of that number that arrived (`Arrived.held`). The
contiguous cursor, the charge and the terminals follow from that and the script.
-/

namespace AgentUplink

open Machine Fallible Std DirectionState StreamState List Option Ledger ExtTreeMap KeyedMap

/-- A sequenced frame that carries the number `k`. -/
def Frame.numbered (k : Nat) (f : Frame) : Bool :=
  f.kind.sequenced && f.sequence.toNat == k

theorem Frame.numbered_iff {k : Nat} {f : Frame} :
    f.numbered k = true ↔ f.kind.sequenced = true ∧ f.sequence.toNat = k := by
  simp [numbered]

/-- Frames of one number are alike under `q`. -/
def CopiesAgree {β : Type} (q : Frame → β) (frames : List Frame) : Prop :=
  ∀ f ∈ frames, ∀ g ∈ frames, f.kind.sequenced = true → g.kind.sequenced = true →
    f.sequence = g.sequence → q f = q g

namespace DirectionState

def held (s : DirectionState) (k : Nat) : Option Frame := s.reorder[k]?.or s.ready[k]?

/-- Above the contiguous cursor it is buffered, and up to it ready. -/
theorem held_split {s : DirectionState} (h : s.inbox.Held) (k : Nat) :
    s.reorder[k]? = (if s.recvContiguous < k then s.held k else none) ∧
      s.ready[k]? =
        if s.deliveredContiguous < k ∧ k ≤ s.recvContiguous then s.held k else none := by
  have hready : s.ready[k]? = none ↔ ¬ (s.deliveredContiguous < k ∧ k ≤ s.recvContiguous) :=
    h.ready k
  unfold held
  by_cases hk : s.recvContiguous < k
  · have hnone : s.ready[k]? = none := hready.2 (by omega)
    rw [if_pos hk, if_neg (by omega), hnone, or_none]
    exact ⟨rfl, rfl⟩
  · have hnone : s.reorder[k]? = none := by
      cases hx : s.reorder[k]? with
      | none => rfl
      | some x => exact absurd (h.reorder k x hx).above hk
    rw [if_neg hk, hnone, none_or]
    refine ⟨rfl, ?_⟩
    by_cases hin : s.deliveredContiguous < k ∧ k ≤ s.recvContiguous
    · rw [if_pos hin]
    · rw [if_neg hin, hready.2 hin]

variable [Sha256] {s t : DirectionState} {f : Frame}

theorem held_entered (hgone : s.reorder[f.sequence.toNat]? = none) (k : Nat) :
    (s.entered f).held k = if f.sequence.toNat = k then some f else s.held k := by
  unfold held
  rw [entered_reorder, entered_ready, get_insert]
  by_cases hk : f.sequence.toNat = k
  · rw [if_pos hk, if_pos hk, ← hk, hgone, none_or]
  · rw [if_neg hk, if_neg hk]

theorem held_promoted {frames : List Frame} (h : s.inbox.Held) (hcons : s.Consecutive frames)
    (k : Nat) : (s.promoted frames).held k = s.held k := by
  induction frames generalizing s with
  | nil => rfl
  | cons f frames ih =>
    obtain ⟨hf, _⟩ := hcons.head h
    obtain ⟨hheld, hcons', _, _⟩ := promote_step h hcons
    have hgone : (s.unbuffered f).reorder[f.sequence.toNat]? = none := by
      show (s.reorder.erase f.sequence.toNat)[f.sequence.toNat]? = none
      rw [get_erase, if_pos rfl]
    refine (ih hheld hcons').trans ((held_entered hgone k).trans ?_)
    show (if f.sequence.toNat = k then some f
      else (s.reorder.erase f.sequence.toNat)[k]?.or s.ready[k]?) = s.reorder[k]?.or s.ready[k]?
    rw [get_erase]
    by_cases hk : f.sequence.toNat = k
    · rw [if_pos hk, ← hk, hf, some_or]
    · rw [if_neg hk, if_neg hk]

/-- Receiving a frame leaves what is held and adds that frame where nothing was held. -/
theorem Received.held_eq {d : ReceiveDisposition} (h : s.inbox.Settled) (hr : s.Received f d t)
    {k : Nat} (hk : s.deliveredContiguous < k) :
    t.held k = (s.held k).or ([f].find? (Frame.numbered k)) := by
  rw [List.find?_singleton]
  -- A frame that is new to the receiver is held from then on.
  have hnew (hseq : f.kind.sequenced = true) (hnot : ¬ s.Known f) :
      (if f.sequence.toNat = k then some f else s.held k) =
        (s.held k).or (if f.numbered k = true then some f else none) := by
    obtain ⟨habove, hfresh⟩ := not_known hnot
    by_cases hfk : f.sequence.toNat = k
    · have hnone : s.held k = none := by
        rw [← hfk, ← hfresh, (held_split h.toHeld _).1, if_pos habove]
      rw [if_pos hfk, if_pos (Frame.numbered_iff.2 ⟨hseq, hfk⟩), hnone, none_or]
    · rw [if_neg hfk, if_neg fun hn => hfk (Frame.numbered_iff.1 hn).2, or_none]
  cases hr with
  | unsequenced hseq =>
    rw [if_neg fun hn => Bool.false_ne_true (hseq.symm.trans (Frame.numbered_iff.1 hn).1), or_none]
  | duplicate hseq known =>
    by_cases hn : f.numbered k = true
    · have hsome : s.held k ≠ none := by
        rw [Known, (Frame.numbered_iff.1 hn).2] at known
        intro hnone
        rcases known with hle | ⟨g, hg⟩
        · have hready := (held_split h.toHeld k).2
          rw [hnone, ite_self] at hready
          exact (h.ready k).1 hready ⟨hk, hle⟩
        · rw [held, hg, some_or] at hnone
          cases hnone
      cases hs : s.held k with
      | none => exact absurd hs hsome
      | some g => rw [some_or]
    · rw [if_neg hn, or_none]
  | buffered hb =>
    rw [← hnew hb.sequenced hb.not_known]
    show (s.reorder.insert f.sequence.toNat f)[k]?.or s.ready[k]? = _
    rw [get_insert]
    by_cases hfk : f.sequence.toNat = k
    · rw [if_pos hfk, if_pos hfk, some_or]
    · rw [if_neg hfk, if_neg hfk]
      rfl
  | accepted ha =>
    have hgone := (not_known (ha.not_known h)).2
    rw [← hnew ha.sequenced (ha.not_known h),
      held_promoted (ha.entered_held h) (s.completed_consecutive f),
      held_entered (s := s.charged f) hgone]
    rfl

/-! ## A run of arrivals -/

/-- The state `t` of a receiver that was in state `s` when `frames` began to arrive. -/
structure Arrived (log : List Frame) (s : DirectionState) (frames : List Frame)
    (t : DirectionState) : Prop where
  settled : t.inbox.Settled
  tracks : ∃ entered, t.inbox.Tracks log entered
  outbox : t.outbox = s.outbox
  delivered : t.deliveredContiguous = s.deliveredContiguous
  held : ∀ k, s.deliveredContiguous < k → t.held k = (s.held k).or (frames.find? (Frame.numbered k))

variable {log fs gs : List Frame} {t' : DirectionState}

theorem Arrived.cons {d : ReceiveDisposition} {u : DirectionState} (hs : s.inbox.Settled)
    (hr : s.Received f d u) (h : Arrived log u fs t) : Arrived log s (f :: fs) t where
  settled := h.settled
  tracks := h.tracks
  outbox := h.outbox.trans hr.outbox_eq
  delivered := h.delivered.trans hr.delivered_eq
  held k hk := by
    rw [h.held k (hr.delivered_eq ▸ hk), hr.held_eq hs hk, Option.or_assoc,
      ← List.find?_append, singleton_append]

/-- A receiver that was given more has not stopped earlier. -/
theorem Arrived.recv_le (h : Arrived log s fs t) (h' : Arrived log s gs t')
    (hsub : ∀ f ∈ fs, f ∈ gs) : t.recvContiguous ≤ t'.recvContiguous := by
  by_contra hlt
  have hle : t'.deliveredContiguous ≤ t'.recvContiguous := h'.settled.delivered_le
  have hdelivered := h.delivered.trans h'.delivered.symm
  have hk : s.deliveredContiguous < t'.recvContiguous + 1 := by
    rw [← h'.delivered]
    omega
  -- The number after the cursor of `t'` is held by `t` and not by `t'`.
  have hnone : t'.held (t'.recvContiguous + 1) = none := by
    have hgap : t'.reorder[t'.recvContiguous + 1]? = none := h'.settled.gap
    rwa [(held_split h'.settled.toHeld _).1, if_pos (Nat.lt_succ_self _)] at hgap
  have hsome : t.held (t'.recvContiguous + 1) ≠ none := by
    intro hheld
    have hready := (held_split h.settled.toHeld (t'.recvContiguous + 1)).2
    rw [hheld, ite_self] at hready
    refine (h.settled.ready _).1 hready ⟨?_, ?_⟩
    · show t.deliveredContiguous < _
      omega
    · show _ ≤ t.recvContiguous
      omega
  rw [h'.held _ hk, or_eq_none_iff, List.find?_eq_none] at hnone
  apply hsome
  rw [h.held _ hk, or_eq_none_iff, List.find?_eq_none]
  exact ⟨hnone.1, fun f hf => hnone.2 f (hsub f hf)⟩

/-- Whatever the copies of one number agree on, the two receivers agree on. -/
theorem Arrived.held_map {β : Type} {q : Frame → β} (h : Arrived log s fs t)
    (h' : Arrived log s gs t') (hset : ∀ f, f ∈ fs ↔ f ∈ gs) (hq : CopiesAgree q fs) {k : Nat}
    (hk : s.deliveredContiguous < k) : (t.held k).map q = (t'.held k).map q := by
  rw [h.held k hk, h'.held k hk]
  cases hs : s.held k with
  | some x => rw [some_or, some_or]
  | none =>
    cases hf : fs.find? (Frame.numbered k) with
    | none =>
      have hg : gs.find? (Frame.numbered k) = none := by
        rw [List.find?_eq_none] at hf ⊢
        exact fun g hg => hf g ((hset g).2 hg)
      rw [hg]
    | some f =>
      have hmem := mem_of_find?_eq_some hf
      have hnum := Frame.numbered_iff.1 (List.find?_some hf)
      cases hg : gs.find? (Frame.numbered k) with
      | none =>
        exact absurd (List.find?_some hf) (List.find?_eq_none.1 hg f ((hset f).1 hmem))
      | some g =>
        have hmem' := (hset g).2 (mem_of_find?_eq_some hg)
        have hnum' := Frame.numbered_iff.1 (List.find?_some hg)
        have hsame := UInt64.toNat_inj.1 (hnum.2.trans hnum'.2.symm)
        exact congrArg some (hq f hmem g hmem' hnum.1 hnum'.1 hsame)

theorem Arrived.agree {β : Type} {q : Frame → β} (h : Arrived log s fs t) (h' : Arrived log s gs t')
    (hset : ∀ f, f ∈ fs ↔ f ∈ gs) (hq : CopiesAgree q fs) :
    t.recvContiguous = t'.recvContiguous ∧ ∀ k : Nat,
      t.ready[k]?.map q = t'.ready[k]?.map q ∧ t.reorder[k]?.map q = t'.reorder[k]?.map q := by
  have hrecv : t.recvContiguous = t'.recvContiguous :=
    Nat.le_antisymm (h.recv_le h' fun f hf => (hset f).1 hf)
      (h'.recv_le h fun f hf => (hset f).2 hf)
  have hle : t.deliveredContiguous ≤ t.recvContiguous := h.settled.delivered_le
  refine ⟨hrecv, fun k => ?_⟩
  obtain ⟨hreorder, hready⟩ := held_split h.settled.toHeld k
  obtain ⟨hreorder', hready'⟩ := held_split h'.settled.toHeld k
  rw [h.delivered] at hle hready
  rw [h'.delivered, ← hrecv] at hready'
  rw [← hrecv] at hreorder'
  rw [hready, hready', hreorder, hreorder']
  constructor
  · by_cases hk : s.deliveredContiguous < k ∧ k ≤ t.recvContiguous
    · rw [if_pos hk, if_pos hk, h.held_map h' hset hq hk.1]
    · rw [if_neg hk, if_neg hk]
  · by_cases hk : t.recvContiguous < k
    · rw [if_pos hk, if_pos hk, h.held_map h' hset hq (by omega)]
    · rw [if_neg hk, if_neg hk]

end DirectionState

/-! ## Frames given to a stream one after another -/

/-- Receive the frames in this order; the first error ends it. -/
def receiveFrames [Sha256] (d : Direction) :
    List Frame → EStateM SequenceError StreamState Unit
  | [] => pure ()
  | f :: fs => do
    let _ ← receiveFrame d f
    receiveFrames d fs

theorem receiveFrames_arrived [Sha256] {log fs : List Frame} {d : Direction} {s t : StreamState}
    (hsettled : (s.direction d).inbox.Settled)
    (htracks : ∃ entered, (s.direction d).inbox.Tracks log entered)
    (hcopy : ∀ f ∈ fs, f.kind.sequenced = true → CopyOf log f)
    (h : (receiveFrames d fs).run s = .ok () t) :
    Arrived log (s.direction d) fs (t.direction d) := by
  induction fs generalizing s with
  | nil =>
    obtain ⟨_, rfl⟩ := pure_ok.1 h
    exact ⟨hsettled, htracks, rfl, rfl, fun k _ => (or_none).symm⟩
  | cons f fs ih =>
    obtain ⟨disposition, u, hf, hrest⟩ := bind_ok.1 h
    rcases receiveFrame_cases f hsettled with
      ⟨e, herr⟩ | ⟨disposition', v, hvalid, _, hr, hok⟩
    · cases herr.symm.trans hf
    · cases hok.symm.trans hf
      have hv := direction_afterReceive_self s d f v
      obtain ⟨entered, htracks⟩ := htracks
      obtain ⟨new, htracks'⟩ := hr.tracks htracks hsettled (hcopy f mem_cons_self)
      have harrived := ih (by rw [hv]; exact hr.settled hsettled hvalid)
        ⟨entered ++ new, by rw [hv]; exact htracks'⟩
        (fun g hg => hcopy g (mem_cons_of_mem f hg)) hrest
      rw [hv] at harrived
      exact harrived.cons hsettled hr

/-- In every reachable state of a receiver, frames its peer put on the wire lead, in any
order and with any repetitions, to the same cursors, charge and terminals, and to the
same ready queue and reorder buffer: up to the carrier when copies of one frame on
different carriers are among them, and exactly when the frames are as first emitted. -/
theorem arrival_order_irrelevant [Sha256] {config : LinkConfig} {l : Link}
    (hopen : Link.connect config = .ok l) (actions : List Action) (e : Endpoint) (d : Direction)
    {fs gs : List Frame} (hfs : ∀ f ∈ fs, f ∈ (l.run actions).net e.peer d)
    (hset : ∀ f, f ∈ fs ↔ f ∈ gs) {t t' : StreamState}
    (ht : (receiveFrames d fs).run ((l.run actions).state e) = .ok () t)
    (ht' : (receiveFrames d gs).run ((l.run actions).state e) = .ok () t') :
    let r := t.direction d
    let r' := t'.direction d
    (r.recvContiguous = r'.recvContiguous ∧ r.deliveredContiguous = r'.deliveredContiguous ∧
        r.outbox = r'.outbox) ∧
      r.receivedBytes = r'.receivedBytes ∧
      (r.receiveTerminal = r'.receiveTerminal ∧
        r.receiveTerminalSequence = r'.receiveTerminalSequence) ∧
      (r.ready.map (fun _ f => f.onCarrier 0 0) = r'.ready.map (fun _ f => f.onCarrier 0 0) ∧
        r.reorder.map (fun _ f => f.onCarrier 0 0) =
          r'.reorder.map (fun _ f => f.onCarrier 0 0)) ∧
      ((∀ f ∈ fs, f.kind.sequenced = true → f ∈ (l.run actions).log e.peer d) →
        r.ready = r'.ready ∧ r.reorder = r'.reorder) := by
  have hsound := (Link.Sound.connect hopen).run actions
  have hscript := (hsound.sender e.peer d).script
  have hcopy : ∀ f ∈ fs, f.kind.sequenced = true → CopyOf ((l.run actions).log e.peer d) f :=
    fun f hf => (hsound.carried e.peer d f (hfs f hf)).copy
  have h := receiveFrames_arrived (hsound.settled e d) ⟨_, hsound.receiver e d⟩ hcopy ht
  have h' := receiveFrames_arrived (hsound.settled e d) ⟨_, hsound.receiver e d⟩
    (fun g hg => hcopy g ((hset g).2 hg)) ht'
  obtain ⟨entered, hr⟩ := h.tracks
  obtain ⟨entered', hr'⟩ := h'.tracks
  -- Copies of one number are copies of one frame of the script.
  have hlogical : CopiesAgree (Frame.onCarrier 0 0) fs := by
    intro f hf g hg hfs hgs heq
    obtain ⟨x, hx, hfx⟩ := hcopy f hf hfs
    obtain ⟨y, hy, hgy⟩ := hcopy g hg hgs
    rw [heq, hy] at hx
    cases hx
    exact hfx.trans hgy.symm
  obtain ⟨hrecv, hmaps⟩ := h.agree h' hset hlogical
  change (t.direction d).inbox.recvContiguous = (t'.direction d).inbox.recvContiguous at hrecv
  have hreorder : (t.direction d).inbox.reorder.map (fun _ => Frame.onCarrier 0 0) =
      (t'.direction d).inbox.reorder.map (fun _ => Frame.onCarrier 0 0) :=
    ext_getElem? fun k => by
      rw [ExtTreeMap.getElem?_map, ExtTreeMap.getElem?_map]
      exact (hmaps k).2
  have hmass := congrArg (mass Frame.credit) hreorder
  rw [mass_map, mass_map] at hmass
  refine ⟨⟨hrecv, h.delivered.trans h'.delivered.symm, h.outbox.trans h'.outbox.symm⟩, ?_,
    ⟨?_, ?_⟩, ⟨?_, hreorder⟩, fun hlog => ?_⟩
  · refine hr.receivedBytes.trans (.trans ?_ hr'.receivedBytes.symm)
    rw [hrecv]
    exact congrArg _ hmass
  · exact hr.terminal.trans (hrecv ▸ hr'.terminal.symm)
  · exact hr.terminalSequence.trans (hrecv ▸ hr'.terminalSequence.symm)
  · apply ExtTreeMap.ext_getElem?
    intro k
    rw [ExtTreeMap.getElem?_map, ExtTreeMap.getElem?_map]
    exact (hmaps k).1
  · have hexact : CopiesAgree id fs := by
      intro f hf g hg hfs hgs heq
      obtain ⟨i, hi⟩ := mem_iff_getElem?.1 (hlog f hf hfs)
      obtain ⟨j, hj⟩ := mem_iff_getElem?.1 (hlog g hg hgs)
      have hfi := hscript.sequence i f hi
      have hgj := hscript.sequence j g hj
      rw [heq] at hfi
      rw [show j = i by omega, hi] at hj
      exact Option.some.inj hj
    have hsame := (h.agree h' hset hexact).2
    exact ⟨ext_getElem? fun k => by simpa using (hsame k).1,
      ext_getElem? fun k => by simpa using (hsame k).2⟩

def demoFrames : List Frame :=
  [.newData 1 1 7 1 0 [65], .newData 1 1 7 2 0 [66, 67], .newFin 1 1 7 3 0]

section

variable (l : Link) (fs : List Frame)

/-- What the connector makes of frames once the three have been sent. -/
def demoReceive :=
  (@receiveFrames plainDigest .relayToConnector fs).run
    ((@Link.run plainDigest l (demoActions.take 3)).state .connector)

def demoCursor : Option Nat :=
  match demoReceive l fs with
  | .ok _ t => some (t.direction .relayToConnector).recvContiguous
  | .error _ _ => none

theorem exists_of_demoCursor {n : Nat} (h : demoCursor l fs = some n) :
    ∃ t, demoReceive l fs = .ok () t ∧ (t.direction .relayToConnector).recvContiguous = n := by
  unfold demoCursor at h
  split at h
  · next t ht => exact ⟨t, ht, Option.some.inj h⟩
  · cases h

end

/-- The frames in order, and last first across a gap with the last one twice. -/
theorem arrival_order_irrelevant_reversed :
    ∃ l t t', Link.connect demoConfig = .ok l ∧ demoReceive l demoFrames = .ok () t ∧
      demoReceive l (.newFin 1 1 7 3 0 :: demoFrames.reverse) = .ok () t' ∧
      (t.direction .relayToConnector).recvContiguous = 3 ∧
      (t.direction .relayToConnector).ready = (t'.direction .relayToConnector).ready := by
  obtain ⟨l, hl, hsent, hcursor, hcursor'⟩ : ∃ l, Link.connect demoConfig = .ok l ∧
      (∀ f ∈ demoFrames,
        f ∈ (@Link.run plainDigest l (demoActions.take 3)).net .relay .relayToConnector ∧
        f ∈ (@Link.run plainDigest l (demoActions.take 3)).log .relay .relayToConnector) ∧
      demoCursor l demoFrames = some 3 ∧
      demoCursor l (.newFin 1 1 7 3 0 :: demoFrames.reverse) = some 3 :=
    ⟨_, rfl, by decide +kernel⟩
  obtain ⟨t, ht, hrecv⟩ := exists_of_demoCursor l _ hcursor
  obtain ⟨t', ht', -⟩ := exists_of_demoCursor l _ hcursor'
  have hset (f : Frame) : f ∈ demoFrames ↔ f ∈ Frame.newFin 1 1 7 3 0 :: demoFrames.reverse := by
    rw [mem_cons, mem_reverse]
    exact (or_iff_right_of_imp fun h => h ▸ by simp [demoFrames]).symm
  obtain ⟨-, -, -, -, hsame⟩ := @arrival_order_irrelevant plainDigest demoConfig l hl
    (demoActions.take 3) .connector .relayToConnector _ _ (fun f hf => (hsent f hf).1) hset t t'
    ht ht'
  exact ⟨l, t, t', hl, ht, ht', hrecv, (hsame fun f hf _ => (hsent f hf).2).1⟩

end AgentUplink
