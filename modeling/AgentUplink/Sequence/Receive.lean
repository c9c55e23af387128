import AgentUplink.Sequence.Inbox

/-!
# What receiving a frame can do

`receive` first runs `preflightReceive`, which walks the whole promotion without
changing anything, and then repeats the walk with effects. The results here say
that the second walk cannot fail once the first has passed, and list everything a
call can do: fail without a trace, recognise a duplicate, buffer the frame, or
enter it together with the run of buffered frames it completes.

Nothing here assumes an honest peer.
-/

namespace AgentUplink

open Machine Fallible Std DirectionState Ledger KeyedMap

/-- Frames that may follow a terminal, one after the other. -/
def Follows : Option Terminal → List Frame → Prop
  | _, [] => True
  | t, f :: frames => mayFollow t f.kind = true ∧ Follows (f.closing.or t) frames

theorem Follows.all_reset {t : Terminal} {frames : List Frame} (h : Follows (some t) frames) :
    ∀ f ∈ frames, f.kind = .reset := by
  induction frames generalizing t with
  | nil => simp
  | cons f frames ih =>
    obtain ⟨hfollow, hrest⟩ := h
    have hsome : ∃ t', f.closing.or (some t) = some t' := by
      cases f.closing <;> simp
    obtain ⟨t', ht'⟩ := hsome
    rw [ht'] at hrest
    exact List.forall_mem_cons.2 ⟨(mayFollow_some hfollow).2, ih hrest⟩

theorem isTerminal_closing {f : Frame} (hvalid : f.validate = .ok ())
    (h : f.kind.isTerminal = true) : ∃ t, f.closing = some t := by
  cases hk : f.kind with
  | fin => exact ⟨.fin, Frame.closing_of_fin hk⟩
  | reset =>
    obtain ⟨reason, hr⟩ := Frame.closing_of_reset hvalid hk
    exact ⟨_, hr⟩
  | data | ack | windowUpdate =>
    rw [hk] at h
    cases h

/-- Behind a terminal only terminals follow, so the reserve that admitted the first
frame of a run admits the rest. -/
theorem Follows.reserve_le {t : Option Terminal} {f : Frame} {frames : List Frame}
    (h : Follows t (f :: frames)) (hvalid : f.validate = .ok ()) :
    ∀ g ∈ frames, terminalReserve f.kind ≤ terminalReserve g.kind := by
  intro g hg
  by_cases hterm : f.kind.isTerminal = true
  · obtain ⟨t', ht'⟩ := isTerminal_closing hvalid hterm
    have hrest := h.2
    rw [ht', Option.some_or] at hrest
    have hk := hrest.all_reset g hg
    have hg : terminalReserve g.kind = 2 := by rw [hk]; rfl
    rw [hg]
    exact terminalReserve_le f.kind
  · simp [terminalReserve, hterm]

namespace DirectionState

/-! ## The checks -/

variable {s t : DirectionState} {f : Frame} {d : ReceiveDisposition}

theorem held_totals_lt (h : s.inbox.Held) (hvalid : f.validate = .ok ()) :
    s.reorder.size + s.ready.size + 1 < wordBound ∧
      s.reorderBytes + s.readyBytes + f.payload.length < wordBound := by
  obtain ⟨_, _, hf, hb⟩ := SequenceLimits.bounds_of_validate h.limits
  obtain ⟨hframes, hbytes⟩ := totals_le h
  have hpayload := Frame.payload_le_of_validate hvalid
  have hword : wordBound = 18446744073709551616 := rfl
  have hmax : maxPayloadLen = 65536 := rfl
  simp only [inbox] at hf hb
  omega

/-- The error of a receiver that has no room for a frame. -/
abbrev full (s : DirectionState) : SequenceError :=
  .reorderBufferFull (s.reorder.size + s.ready.size) (s.reorderBytes + s.readyBytes)

theorem ensureReceiveCapacityValues_eq (h : s.inbox.Held) (hvalid : f.validate = .ok ()) :
    ensureReceiveCapacityValues s.limits (s.reorder.size + s.ready.size)
        (s.reorderBytes + s.readyBytes) f =
      if s.inbox.Room f then .ok ()
      else .error s.full := by
  obtain ⟨_, _, hf, hb⟩ := SequenceLimits.bounds_of_validate h.limits
  obtain ⟨hframes, hbytes⟩ := held_totals_lt h hvalid
  have hreserve := terminalReserve_le f.kind
  have hword : wordBound = 18446744073709551616 := rfl
  simp only [inbox] at hf hb
  unfold ensureReceiveCapacityValues
  rw [checkedAdd_of_lt hframes, checkedAdd_of_lt hbytes, saturatingAdd_of_lt (by omega),
    saturatingAdd_of_lt (by omega)]
  by_cases hroom : s.inbox.Room f
  · rw [if_pos hroom]
    rw [room_iff] at hroom
    exact if_neg (by omega)
  · rw [if_neg hroom]
    rw [room_iff] at hroom
    exact if_pos (by omega)

theorem ensureReceiveCapacity_eq (h : s.inbox.Held) (hvalid : f.validate = .ok ()) :
    s.ensureReceiveCapacity f =
      if s.inbox.Room f then .ok ()
      else .error s.full := by
  obtain ⟨hframes, hbytes⟩ := held_totals_lt h hvalid
  unfold ensureReceiveCapacity
  rw [checkedAdd_of_lt (by omega)]
  exact ensureReceiveCapacityValues_eq h hvalid

theorem checkedReceivedBytes_ok {r r' : Nat} (hvalid : f.validate = .ok ()) :
    s.checkedReceivedBytes f r = .ok r' ↔
      r + f.credit = r' ∧
        (f.kind = .data → r + f.credit < wordBound ∧ r + f.credit ≤ s.receiveCredit) := by
  have hpayload := Frame.payload_le_of_validate hvalid
  unfold checkedReceivedBytes Frame.credit
  by_cases hk : f.kind = .data
  · simp only [hk, ne_eq, not_true_eq_false, if_false, if_true, forall_const]
    rw [if_neg (by omega)]
    cases hadd : checkedAdd r f.payload.length with
    | none =>
      have := checkedAdd_eq_none.1 hadd
      simp only [reduceCtorEq, false_iff, not_and]
      omega
    | some attempted =>
      obtain ⟨hlt, rfl⟩ := checkedAdd_eq_some.1 hadd
      simp only [ite_error_ok]
      constructor
      · rintro ⟨hle, rfl⟩
        exact ⟨rfl, hlt, by omega⟩
      · rintro ⟨rfl, _, hle⟩
        exact ⟨by omega, rfl⟩
  · simp [hk]

/-! ## The preflight walk -/

theorem lookup_next (h : s.inbox.Held) (cursor : Nat) :
    ((checkedAdd cursor 1).bind fun sequence => s.reorder[sequence]?) = s.reorder[cursor + 1]? := by
  rcases lt_or_ge (cursor + 1) wordBound with hlt | hge
  · rw [checkedAdd_of_lt hlt]
    rfl
  · rw [checkedAdd_eq_none.2 hge]
    -- Buffered keys are 64-bit sequence numbers.
    cases hf : s.reorder[cursor + 1]? with
    | none => rfl
    | some f =>
      have hseq := (h.reorder _ f hf).sequence
      exact absurd (hseq ▸ f.sequence.toNat_lt) (Nat.not_lt.2 hge)

theorem preflightStep_eq {p : Promotion} (hseq : f.sequence.toNat = p.cursor + 1)
    (hvalid : f.validate = .ok ()) (isNew : Bool) :
    s.preflightStep f isNew p = (validateTerminal p.terminal f.kind >>= fun _ =>
      (if isNew then s.preflightCharge f p else .ok p) >>= fun p =>
        .ok { p with cursor := f.sequence.toNat, terminal := f.closing.or p.terminal }) := by
  have hlt : p.cursor + 1 < wordBound := hseq ▸ f.sequence.toNat_lt
  unfold preflightStep
  rw [checkedAdd_of_lt hlt, terminalOf_of_validate hvalid]
  simp only [hseq, ne_eq, not_true_eq_false, if_false]
  cases isNew <;> rfl

/-- The walk past the received frame passes exactly when the buffered run after the
cursor may follow the terminal in force. -/
theorem preflightTail_ok (h : s.inbox.Held) (n : Nat) (p : Promotion) (d : ReceiveDisposition) :
    (match (checkedAdd p.cursor 1).bind fun sequence => s.reorder[sequence]? with
      | some next => s.preflightLoop n next false p
      | none => .ok .accepted) = .ok d ↔
      d = .accepted ∧ Follows p.terminal (chain s.reorder n (p.cursor + 1)) := by
  induction n generalizing p with
  | zero =>
    rw [lookup_next h]
    cases s.reorder[p.cursor + 1]? <;>
      simp [preflightLoop, chain, Follows, eq_comm]
  | succ n ih =>
    rw [lookup_next h]
    unfold chain
    cases hf : s.reorder[p.cursor + 1]? with
    | none => simp [Follows, eq_comm]
    | some f =>
      have hb := h.reorder _ f hf
      show s.preflightLoop (n + 1) f false p = .ok d ↔
        d = .accepted ∧ mayFollow p.terminal f.kind = true ∧ Follows _ _
      rw [preflightLoop, preflightStep_eq hb.sequence hb.valid, ← validateTerminal_eq_ok]
      cases validateTerminal p.terminal f.kind with
      | error e => simp [except_bind_eq_ok]
      | ok u =>
        rw [and_iff_right (show Except.ok u = .ok () from rfl), ← hb.sequence]
        exact ih { p with cursor := f.sequence.toNat, terminal := f.closing.or p.terminal }

/-- The loop variables `preflightReceive` starts with. -/
def promotion (s : DirectionState) : Promotion :=
  { cursor := s.recvContiguous, terminal := s.receiveTerminal, receivedBytes := s.receivedBytes,
    frameCount := s.reorder.size + s.ready.size, bufferedBytes := s.reorderBytes + s.readyBytes }

theorem preflightCharge_eq (h : s.inbox.Held) (hvalid : f.validate = .ok ()) :
    s.preflightCharge f s.promotion =
      if s.inbox.Room f then
        (s.checkedReceivedBytes f s.receivedBytes).map fun receivedBytes =>
          { s.promotion with
            receivedBytes
            frameCount := s.reorder.size + s.ready.size + 1
            bufferedBytes := s.reorderBytes + s.readyBytes + f.payload.length }
      else .error s.full := by
  obtain ⟨hframes, hbytes⟩ := held_totals_lt h hvalid
  unfold preflightCharge
  simp only [promotion]
  rw [ensureReceiveCapacityValues_eq h hvalid, checkedAdd_of_lt hframes, checkedAdd_of_lt hbytes]
  by_cases hroom : s.inbox.Room f
  · rw [if_pos hroom, if_pos hroom]
    cases s.checkedReceivedBytes f s.receivedBytes <;> rfl
  · rw [if_neg hroom, if_neg hroom]
    rfl

/-- The run of frames that receiving `f` makes contiguous. -/
def completed (s : DirectionState) (f : Frame) : List Frame :=
  chain s.reorder s.reorder.size (f.sequence.toNat + 1)

theorem preflightLoop_of_covers (h : s.inbox.Held) (hvalid : f.validate = .ok ())
    (hseq : f.sequence.toNat = s.recvContiguous + 1)
    (hfollows : Follows s.receiveTerminal (f :: s.completed f)) (hcovers : s.inbox.Covers f) :
    s.preflightLoop (s.reorder.size + 1) f true s.promotion =
      if s.inbox.Room f then .ok .accepted
      else .error s.full := by
  have hterm : validateTerminal s.promotion.terminal f.kind = .ok () :=
    validateTerminal_eq_ok.2 hfollows.1
  rw [preflightLoop, preflightStep_eq hseq hvalid, hterm, if_pos rfl, preflightCharge_eq h hvalid]
  by_cases hroom : s.inbox.Room f
  · have hcharge : s.checkedReceivedBytes f s.receivedBytes = .ok (s.receivedBytes + f.credit) :=
      (checkedReceivedBytes_ok hvalid).2 ⟨rfl, hcovers⟩
    rw [if_pos hroom, if_pos hroom, hcharge]
    refine except_bind_eq_ok.2 ⟨_, rfl, (preflightTail_ok h _ _ _).2 ⟨rfl, ?_⟩⟩
    exact hfollows.2
  · rw [if_neg hroom, if_neg hroom]
    rfl

theorem preflightLoop_new_ok (h : s.inbox.Held) (hvalid : f.validate = .ok ())
    (hseq : f.sequence.toNat = s.recvContiguous + 1)
    (hok : s.preflightLoop (s.reorder.size + 1) f true s.promotion = .ok d) :
    d = .accepted ∧ Follows s.receiveTerminal (f :: s.completed f) ∧ s.inbox.Room f ∧
      s.inbox.Covers f := by
  rw [preflightLoop, preflightStep_eq hseq hvalid] at hok
  simp only [except_bind_eq_ok, if_true] at hok
  obtain ⟨p, ⟨u, hterm, q, hcharge, hp⟩, hok⟩ := hok
  obtain ⟨rfl, htail⟩ := (preflightTail_ok h s.reorder.size p d).1 hok
  rw [preflightCharge_eq h hvalid] at hcharge
  split_ifs at hcharge with hroom
  obtain ⟨receivedBytes, hreceived, rfl⟩ := except_map_eq_ok.1 hcharge
  cases hp
  exact ⟨rfl, ⟨validateTerminal_eq_ok.1 hterm, htail⟩, hroom,
    ((checkedReceivedBytes_ok hvalid).1 hreceived).2⟩

/-! ## What the preflight admits -/

def Known (s : DirectionState) (f : Frame) : Prop :=
  f.sequence.toNat ≤ s.recvContiguous ∨ ∃ g, s.reorder[f.sequence.toNat]? = some g

theorem not_known (h : ¬ s.Known f) :
    s.recvContiguous < f.sequence.toNat ∧ s.reorder[f.sequence.toNat]? = none := by
  refine ⟨Nat.lt_of_not_le fun hle => h (.inl hle), ?_⟩
  cases hx : s.reorder[f.sequence.toNat]? with
  | none => rfl
  | some x => exact absurd (.inr ⟨x, hx⟩) h

structure Bufferable (s : DirectionState) (f : Frame) : Prop where
  sequenced : f.kind.sequenced = true
  above : s.recvContiguous < f.sequence.toNat
  fresh : s.reorder[f.sequence.toNat]? = none
  gap : f.sequence.toNat ≠ s.recvContiguous + 1
  room : s.inbox.Room f
  covers : s.inbox.Covers f

structure Acceptable (s : DirectionState) (f : Frame) : Prop where
  sequenced : f.kind.sequenced = true
  next : f.sequence.toNat = s.recvContiguous + 1
  follows : Follows s.receiveTerminal (f :: s.completed f)
  room : s.inbox.Room f
  covers : s.inbox.Covers f

/-- What each disposition of the preflight stands for. -/
inductive Admits (s : DirectionState) (f : Frame) : ReceiveDisposition → Prop
  | unsequenced (h : f.kind.sequenced = false) : Admits s f .accepted
  | duplicate (h : f.kind.sequenced = true) (known : s.Known f) : Admits s f .duplicate
  | buffered (h : s.Bufferable f) : Admits s f .buffered
  | accepted (h : s.Acceptable f) : Admits s f .accepted

theorem preflightReceive_admits [Sha256] (h : s.inbox.Held) (hvalid : f.validate = .ok ())
    (hok : s.preflightReceive f = .ok d) : s.Admits f d := by
  unfold preflightReceive at hok
  by_cases hseq : f.kind.sequenced = true
  case neg =>
    rw [if_pos hseq] at hok
    cases hok
    exact .unsequenced (by simpa using hseq)
  rw [if_neg (not_not.2 hseq)] at hok
  by_cases hle : f.sequence.toNat ≤ s.recvContiguous
  · rw [if_pos hle] at hok
    split at hok
    · obtain ⟨_, rfl⟩ := ite_error_ok.1 hok
      exact .duplicate hseq (.inl hle)
    · cases hok
      exact .duplicate hseq (.inl hle)
  rw [if_neg hle] at hok
  cases hg : s.reorder[f.sequence.toNat]? with
  | some g =>
    rw [hg] at hok
    obtain ⟨_, rfl⟩ := ite_error_ok.1 hok
    exact .duplicate hseq (.inr ⟨g, hg⟩)
  | none =>
    rw [hg] at hok
    cases hnext : checkedAdd s.recvContiguous 1 with
    | none =>
      rw [hnext] at hok
      cases hok
    | some expected =>
      obtain ⟨_, rfl⟩ := checkedAdd_eq_some.1 hnext
      simp only [hnext] at hok
      by_cases hgap : f.sequence.toNat = s.recvContiguous + 1
      · rw [if_neg (not_not.2 hgap)] at hok
        obtain ⟨rfl, hfollows, hroom, hcovers⟩ := preflightLoop_new_ok h hvalid hgap hok
        exact .accepted ⟨hseq, hgap, hfollows, hroom, hcovers⟩
      · rw [if_pos hgap] at hok
        split at hok
        · cases hok
        · simp only [ensureReceiveCapacity_eq h hvalid, except_bind_eq_ok] at hok
          obtain ⟨_, _, _, hfits, receivedBytes, hcharge, hok⟩ := hok
          cases hok
          split_ifs at hfits with hroom
          exact .buffered ⟨hseq, by omega, hg, hgap, hroom,
            ((checkedReceivedBytes_ok hvalid).1 hcharge).2⟩

/-! ## The walk with effects -/

theorem chargeReceived_run (hvalid : f.validate = .ok ()) (hcovers : s.inbox.Covers f) :
    (chargeReceived f).run s = .ok () (s.charged f) := by
  simp only [chargeReceived, bind_ok, get_ok, check_ok, modify_ok]
  exact ⟨s, s, ⟨rfl, rfl⟩, _, s, ⟨(checkedReceivedBytes_ok hvalid).2 ⟨rfl, hcovers⟩, rfl⟩, rfl⟩

theorem acceptContiguous_run [Sha256] (h : s.inbox.Held) (hvalid : f.validate = .ok ())
    (hnext : f.sequence.toNat = s.recvContiguous + 1)
    (hfollow : mayFollow s.receiveTerminal f.kind = true) (hroom : s.inbox.Room f) (charge : Bool)
    (hcharge : (if charge then chargeReceived f else pure ()).run s = .ok () t) :
    (acceptContiguous f charge).run s = .ok () (t.entered f) := by
  have hlt : s.recvContiguous + 1 < wordBound := hnext ▸ f.sequence.toNat_lt
  have hcapacity : s.ensureReceiveCapacity f = .ok () := by
    rw [ensureReceiveCapacity_eq h hvalid, if_pos hroom]
  have hterm : s.validateReceiveTerminal f.kind = .ok () := validateTerminal_eq_ok.2 hfollow
  simp only [acceptContiguous, bind_ok, get_ok, check_ok, orFail_ok, failIf_ok, modify_ok,
    terminalOf_of_validate hvalid]
  exact ⟨s, s, ⟨rfl, rfl⟩, (), s, ⟨hterm, rfl⟩, _, s, ⟨checkedAdd_of_lt hlt, rfl⟩, (), s,
    ⟨not_not.2 hnext, rfl⟩, (), s, ⟨hcapacity, rfl⟩, (), t, hcharge, (), _, rfl, (), _, rfl,
    (), _, rfl, _, _, ⟨rfl, rfl⟩, rfl⟩

/-- Draining succeeds when the buffered run may follow the terminal in force and
the totals, which a promotion does not change, fit the bound of every promoted frame. -/
theorem drainLoop_run [Sha256] {n : Nat} (h : s.inbox.Held)
    (hfollows : Follows s.receiveTerminal (chain s.reorder n (s.recvContiguous + 1)))
    (hroom : ∀ f ∈ chain s.reorder n (s.recvContiguous + 1),
      s.reorder.size + s.ready.size ≤ s.limits.maxReorderFrames + terminalReserve f.kind ∧
        s.reorderBytes + s.readyBytes ≤ s.limits.maxReorderBytes + terminalReserve f.kind) :
    (drainLoop n).run s = .ok () (s.promoted (chain s.reorder n (s.recvContiguous + 1))) := by
  induction n generalizing s with
  | zero => rfl
  | succ n ih =>
    refine bind_ok.2 ⟨s, s, rfl, ?_⟩
    cases hf : s.reorder[s.recvContiguous + 1]? with
    | none =>
      have hchain : chain s.reorder (n + 1) (s.recvContiguous + 1) = [] := by
        unfold chain
        rw [hf]
      rw [hchain]
      cases hadd : checkedAdd s.recvContiguous 1 with
      | none => rfl
      | some expected =>
        obtain ⟨_, rfl⟩ := checkedAdd_eq_some.1 hadd
        simp only [hf]
        rfl
    | some f =>
      have hb := h.reorder _ f hf
      have hseq : f.sequence.toNat = s.recvContiguous + 1 := hb.sequence
      have hlt : s.recvContiguous + 1 < wordBound := hseq ▸ f.sequence.toNat_lt
      have hchain : chain s.reorder (n + 1) (s.recvContiguous + 1) =
          f :: chain s.reorder n (s.recvContiguous + 1 + 1) := by
        conv_lhs => unfold chain
        rw [hf]
      rw [hchain] at hfollows hroom ⊢
      have hcons : s.Consecutive [f] := by
        intro i g hg
        cases i with
        | zero =>
          cases hg
          exact hf
        | succ i => cases hg
      obtain ⟨hheld', _, hrecv', hreorder'⟩ := promote_step h hcons
      have hf' : s.reorder[f.sequence.toNat]? = some f := by rw [hseq, hf]
      obtain ⟨hheld, hsize, hbytes⟩ := unbuffered_held h hf'
      obtain ⟨hfitFrames, hfitBytes⟩ := hroom f List.mem_cons_self
      have hroom' : (s.unbuffered f).inbox.Room f := by
        rw [room_iff, show (s.unbuffered f).limits = s.limits from rfl,
          show (s.unbuffered f).ready = s.ready from rfl,
          show (s.unbuffered f).readyBytes = s.readyBytes from rfl]
        omega
      have haccept := acceptContiguous_run hheld hb.valid hseq hfollows.1 hroom' false rfl
      rw [checkedAdd_of_lt hlt]
      simp only [hf]
      refine bind_ok.2 ⟨⟨⟩, s.unbuffered f, ?_, bind_ok.2 ⟨(), _, haccept, ?_⟩⟩
      · rw [← hseq]
        rfl
      · -- The rest of the run is the run of the state after this promotion.
        have hrest : chain s.reorder n (s.recvContiguous + 1 + 1) =
            chain ((s.unbuffered f).entered f).reorder n
              (((s.unbuffered f).entered f).recvContiguous + 1) := by
          rw [hrecv', hreorder']
          apply chain_congr
          intro j hj
          rw [get_erase, if_neg (by omega)]
        have hfresh := ready_fresh h hseq
        rw [ih hheld']
        · rw [← hrest]
          rfl
        · rw [← hrest, entered_receiveTerminal]
          exact hfollows.2
        · rw [← hrest]
          intro g hg
          obtain ⟨hframes, hpayload⟩ := hroom g (List.mem_cons_of_mem f hg)
          have hreorderSize : ((s.unbuffered f).entered f).reorder.size + 1 = s.reorder.size := by
            rw [hreorder', ← hseq]
            exact hsize
          rw [entered_ready, entered_readyBytes, entered_reorderBytes, entered_limits,
            show (s.unbuffered f).ready = s.ready from rfl, size_insert_of_none hfresh,
            show (s.unbuffered f).readyBytes = s.readyBytes from rfl,
            show (s.unbuffered f).limits = s.limits from rfl]
          omega

/-! ## The whole call -/

/-- Everything a successful call of `receive` can do. -/
inductive Received [Sha256] (s : DirectionState) (f : Frame) :
    ReceiveDisposition → DirectionState → Prop
  | unsequenced (h : f.kind.sequenced = false) : Received s f .accepted s
  | duplicate (h : f.kind.sequenced = true) (known : s.Known f) : Received s f .duplicate s
  | buffered (h : s.Bufferable f) : Received s f .buffered ((s.charged f).bufferReorder f)
  | accepted (h : s.Acceptable f) :
      Received s f .accepted (((s.charged f).entered f).promoted (s.completed f))

theorem completed_consecutive [Sha256] (f : Frame) (s : DirectionState) :
    ((s.charged f).entered f).Consecutive (s.completed f) := by
  have hcons := ((s.charged f).entered f).consecutive_chain s.reorder.size
  rwa [entered_reorder, entered_recvContiguous] at hcons

theorem charged_held (h : s.inbox.Held) (hcovers : s.inbox.Covers f) : (s.charged f).inbox.Held :=
  { h with received_le := hcovers.received_le h.received_le }

theorem Acceptable.entered_held [Sha256] (h : s.inbox.Settled) (ha : s.Acceptable f) :
    ((s.charged f).entered f).inbox.Held := by
  have hreserve := terminalReserve_le f.kind
  obtain ⟨hframes, hbytes⟩ := room_iff.1 ha.room
  apply DirectionState.entered_held (charged_held h.toHeld ha.covers) ha.next
  · rw [ha.next]
    exact h.gap
  · show s.reorder.size + s.ready.size + 1 ≤ s.limits.maxReorderFrames + 2
    omega
  · show s.reorderBytes + s.readyBytes + f.payload.length ≤ s.limits.maxReorderBytes + 2
    omega

theorem Acceptable.drain_run [Sha256] (h : s.inbox.Settled) (hvalid : f.validate = .ok ())
    (ha : s.Acceptable f) :
    drainReorder.run ((s.charged f).entered f) =
      .ok () (((s.charged f).entered f).promoted (s.completed f)) := by
  have hfresh := ready_fresh h.toHeld ha.next
  have hchain : chain ((s.charged f).entered f).reorder
      ((s.charged f).entered f).reorder.size (((s.charged f).entered f).recvContiguous + 1) =
      s.completed f := by
    rw [entered_reorder, entered_recvContiguous]
    rfl
  obtain ⟨hframes, hbytes⟩ := room_iff.1 ha.room
  refine bind_ok.2 ⟨_, _, rfl, ?_⟩
  rw [drainLoop_run (ha.entered_held h), hchain]
  · rw [hchain, entered_receiveTerminal]
    exact ha.follows.2
  · rw [hchain]
    intro g hg
    have hreserve := ha.follows.reserve_le hvalid g hg
    rw [entered_reorder, entered_ready, entered_readyBytes, entered_reorderBytes, entered_limits]
    show s.reorder.size + (s.ready.insert f.sequence.toNat f).size ≤ s.limits.maxReorderFrames + _ ∧
      s.reorderBytes + (s.readyBytes + f.payload.length) ≤ s.limits.maxReorderBytes + _
    rw [size_insert_of_none hfresh]
    omega

theorem receive_run [Sha256] (h : s.inbox.Settled) (hvalid : f.validate = .ok ()) :
    (∃ e, s.preflightReceive f = .error e ∧ (receive f).run s = .error e s) ∨
      ∃ d t, (receive f).run s = .ok d t ∧ s.Received f d t := by
  cases hpre : s.preflightReceive f with
  | error e =>
    refine .inl ⟨e, rfl, ?_⟩
    unfold receive
    rw [run_bind_of_ok (get_ok.2 ⟨rfl, rfl⟩), hpre]
    rfl
  | ok d =>
    right
    unfold receive
    rw [run_bind_of_ok (get_ok.2 ⟨rfl, rfl⟩), run_bind_of_ok (check_ok.2 ⟨hpre, rfl⟩)]
    cases preflightReceive_admits h.toHeld hvalid hpre with
    | unsequenced hk => exact ⟨.accepted, s, by simp [hk], .unsequenced hk⟩
    | duplicate hk known => exact ⟨.duplicate, s, by simp, .duplicate hk known⟩
    | buffered hb =>
      have hlt : s.recvContiguous + 1 < wordBound := Nat.lt_of_le_of_lt hb.above f.sequence.toNat_lt
      have hcharge := chargeReceived_run hvalid hb.covers
      refine ⟨.buffered, _, ?_, .buffered hb⟩
      rw [if_neg (by decide), if_neg (not_not.2 hb.sequenced)]
      refine bind_ok.2 ⟨_, s, orFail_ok.2 ⟨checkedAdd_of_lt hlt, rfl⟩, ?_⟩
      rw [if_pos hb.gap]
      exact bind_ok.2 ⟨(), _, hcharge, bind_ok.2 ⟨⟨⟩, _, rfl, rfl⟩⟩
    | accepted ha =>
      have hlt : s.recvContiguous + 1 < wordBound := ha.next ▸ f.sequence.toNat_lt
      have haccept := acceptContiguous_run h.toHeld hvalid ha.next ha.follows.1 ha.room true
        (chargeReceived_run hvalid ha.covers)
      refine ⟨.accepted, _, ?_, .accepted ha⟩
      rw [if_neg (by decide), if_neg (not_not.2 ha.sequenced)]
      refine bind_ok.2 ⟨_, s, orFail_ok.2 ⟨checkedAdd_of_lt hlt, rfl⟩, ?_⟩
      rw [if_neg (not_not.2 ha.next)]
      exact bind_ok.2 ⟨(), _, haccept, bind_ok.2 ⟨(), _, ha.drain_run h hvalid, rfl⟩⟩

/-- Receiving keeps the inbox, whatever the frame. -/
theorem Received.settled [Sha256] (h : s.inbox.Settled) (hvalid : f.validate = .ok ())
    (hr : s.Received f d t) : t.inbox.Settled := by
  cases hr with
  | unsequenced hk | duplicate hk known => exact h
  | buffered hb =>
    refine { buffered_held h.toHeld ⟨hb.above, rfl, hvalid, hb.sequenced⟩ hb.fresh hb.room
      hb.covers with gap := ?_ }
    show (s.reorder.insert f.sequence.toNat f)[s.recvContiguous + 1]? = none
    rw [get_insert, if_neg hb.gap]
    exact h.gap
  | accepted ha =>
    have hsettled := promoted_chain_settled (ha.entered_held h)
      (Nat.le_refl ((s.charged f).entered f).reorder.size)
    rwa [entered_reorder, entered_recvContiguous] at hsettled

theorem Received.outbox_eq [Sha256] (hr : s.Received f d t) : t.outbox = s.outbox := by
  cases hr with
  | unsequenced hk | duplicate hk known | buffered hb => rfl
  | accepted ha =>
    rw [promoted_keeps _ fun f s => outbox_entered f (s.unbuffered f)]
    exact outbox_entered ..

/-! ## What becomes known, and what is charged -/

instance (s : DirectionState) (f : Frame) : Decidable (s.Known f) :=
  decidable_of_iff (f.sequence.toNat ≤ s.recvContiguous ∨
    (s.reorder[f.sequence.toNat]?).isSome = true) (by rw [Option.isSome_iff_exists]; rfl)

/-- Promotions move frames from the buffer to the ready queue, and lose none. -/
theorem promoted_known [Sha256] {frames : List Frame} (h : s.inbox.Held)
    (hcons : s.Consecutive frames) {g : Frame} :
    ((s.promoted frames).Known g ↔ s.Known g) ∧
      s.recvContiguous ≤ (s.promoted frames).recvContiguous := by
  induction frames generalizing s with
  | nil => exact ⟨Iff.rfl, Nat.le_refl _⟩
  | cons f frames ih =>
    obtain ⟨hf, hseq⟩ := hcons.head h
    obtain ⟨hheld, hcons', hrecv, hreorder⟩ := promote_step h hcons
    obtain ⟨hknown, hle⟩ := ih hheld hcons'
    have hstep : ((s.unbuffered f).entered f).Known g ↔ s.Known g := by
      unfold Known
      rw [hrecv, hreorder, get_erase]
      by_cases hg : s.recvContiguous + 1 = g.sequence.toNat
      · rw [if_pos hg, ← hg, ← hseq]
        exact ⟨fun _ => .inr ⟨f, hf⟩, fun _ => .inl (by omega)⟩
      · rw [if_neg hg]
        exact or_congr (by omega) Iff.rfl
    have hone : s.recvContiguous ≤ ((s.unbuffered f).entered f).recvContiguous := by omega
    exact ⟨hknown.trans hstep, Nat.le_trans hone hle⟩

variable [Sha256] {s t : DirectionState} {f : Frame} {d : ReceiveDisposition}

theorem Acceptable.entered_known (ha : s.Acceptable f) (g : Frame) :
    ((s.charged f).entered f).Known g ↔ s.Known g ∨ g.sequence = f.sequence := by
  have hnext := ha.next
  unfold Known
  rw [entered_recvContiguous, entered_reorder, ← UInt64.toNat_inj, hnext]
  constructor
  · rintro (hle | hbuffered)
    · rcases lt_or_ge s.recvContiguous g.sequence.toNat with hlt | hge
      · exact .inr (by omega)
      · exact .inl (.inl hge)
    · exact .inl (.inr hbuffered)
  · rintro ((hle | hbuffered) | heq)
    · exact .inl (by omega)
    · exact .inr hbuffered
    · exact .inl (by omega)

theorem Received.known_iff (h : s.inbox.Settled) (hk : f.kind.sequenced = true)
    (hr : s.Received f d t) (g : Frame) : t.Known g ↔ s.Known g ∨ g.sequence = f.sequence := by
  cases hr with
  | unsequenced hnot => cases hk.symm.trans hnot
  | duplicate _ known =>
    refine ⟨.inl, ?_⟩
    rintro (hknown | heq)
    · exact hknown
    · unfold Known at known ⊢
      rwa [heq]
  | buffered hb =>
    show g.sequence.toNat ≤ s.recvContiguous ∨
      (∃ x, (s.reorder.insert f.sequence.toNat f)[g.sequence.toNat]? = some x) ↔ _
    rw [get_insert, ← UInt64.toNat_inj]
    by_cases hg : f.sequence.toNat = g.sequence.toNat
    · rw [if_pos hg]
      exact ⟨fun _ => .inr hg.symm, fun _ => .inr ⟨f, rfl⟩⟩
    · rw [if_neg hg]
      exact ⟨.inl, fun hor => hor.resolve_right fun heq => hg heq.symm⟩
  | accepted ha =>
    exact (promoted_known (ha.entered_held h) (s.completed_consecutive f)).1.trans
      (ha.entered_known g)

omit [Sha256] in
theorem Bufferable.not_known (hb : s.Bufferable f) : ¬ s.Known f := by
  rintro (hle | ⟨x, hx⟩)
  · exact absurd hb.above (Nat.not_lt.2 hle)
  · cases hb.fresh.symm.trans hx

omit [Sha256] in
theorem Acceptable.not_known (h : s.inbox.Settled) (ha : s.Acceptable f) : ¬ s.Known f := by
  have hnext := ha.next
  rintro (hle | ⟨x, hx⟩)
  · omega
  · rw [hnext] at hx
    cases h.gap.symm.trans hx

theorem Received.receivedBytes_eq (h : s.inbox.Settled) (hk : f.kind.sequenced = true)
    (hr : s.Received f d t) :
    t.receivedBytes = s.receivedBytes + if s.Known f then 0 else f.credit := by
  cases hr with
  | unsequenced hnot => cases hk.symm.trans hnot
  | duplicate _ known => rw [if_pos known, add_zero]
  | buffered hb =>
    rw [if_neg hb.not_known]
    rfl
  | accepted ha =>
    rw [if_neg (ha.not_known h), promoted_receivedBytes, entered_receivedBytes]
    rfl

/-- A frame that arrives in order is within the contiguous part afterwards. -/
theorem Received.sequence_le (h : s.inbox.Settled) (hk : f.kind.sequenced = true)
    (hr : s.Received f d t) (hle : f.sequence.toNat ≤ s.recvContiguous + 1) :
    f.sequence.toNat ≤ t.recvContiguous := by
  cases hr with
  | unsequenced hnot => cases hk.symm.trans hnot
  | duplicate _ known =>
    rcases known with hle | ⟨x, hx⟩
    · exact hle
    · have habove : s.recvContiguous < f.sequence.toNat := (h.reorder _ x hx).above
      rw [show f.sequence.toNat = s.recvContiguous + 1 by omega] at hx
      cases h.gap.symm.trans hx
  | buffered hb =>
    have := hb.above
    exact absurd (by omega) hb.gap
  | accepted ha =>
    have hpromoted := (promoted_known (ha.entered_held h) (s.completed_consecutive f) (g := f)).2
    rw [entered_recvContiguous] at hpromoted
    exact hpromoted

end DirectionState

end AgentUplink
