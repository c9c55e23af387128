import AgentUplink.Sequence.Outbox

/-!
# The receiving half of a direction

`Inbox` is the part of a `DirectionState` that receiving reads and writes, and
`Inbox.Held` is what holds of it whatever the peer sends: buffered frames lie
above the contiguous cursor, the ready queue is the interval between the two
cursors, and the byte counters are the payload held.

The transforms below are the effects of `receive` and `markDelivered` without
their checks.
-/

namespace AgentUplink

open Machine Fallible Std DirectionState KeyedMap Ledger

structure Inbox where
  limits : SequenceLimits
  recvContiguous : Nat
  deliveredContiguous : Nat
  receiveCredit : Nat
  receivedBytes : Nat
  terminal : Option Terminal
  terminalSequence : Option Nat
  fingerprints : ExtTreeMap Nat FrameFingerprint
  reorder : ExtTreeMap Nat Frame
  reorderBytes : Nat
  ready : ExtTreeMap Nat Frame
  readyBytes : Nat

def DirectionState.inbox (s : DirectionState) : Inbox :=
  { limits := s.limits, recvContiguous := s.recvContiguous,
    deliveredContiguous := s.deliveredContiguous, receiveCredit := s.receiveCredit,
    receivedBytes := s.receivedBytes, terminal := s.receiveTerminal,
    terminalSequence := s.receiveTerminalSequence, fingerprints := s.fingerprints,
    reorder := s.reorder, reorderBytes := s.reorderBytes, ready := s.ready,
    readyBytes := s.readyBytes }

/-- A frame the reorder buffer may hold under key `k`. -/
structure Buffered (recvContiguous k : Nat) (f : Frame) : Prop where
  above : recvContiguous < k
  sequence : f.sequence.toNat = k
  valid : f.validate = .ok ()
  sequenced : f.kind.sequenced = true

namespace Inbox

structure Held (b : Inbox) : Prop where
  limits : b.limits.validate = .ok ()
  delivered_le : b.deliveredContiguous ≤ b.recvContiguous
  recv_lt : b.recvContiguous < wordBound
  reorder : ∀ k f, b.reorder[k]? = some f → Buffered b.recvContiguous k f
  ready : ∀ k, b.ready[k]? = none ↔ ¬ (b.deliveredContiguous < k ∧ k ≤ b.recvContiguous)
  reorderBytes : b.reorderBytes = mass payloadLength b.reorder
  readyBytes : b.readyBytes = mass payloadLength b.ready
  frames_le : b.reorder.size + b.ready.size ≤ b.limits.maxReorderFrames + 2
  bytes_le : b.reorderBytes + b.readyBytes ≤ b.limits.maxReorderBytes + 2
  received_le : b.receivedBytes ≤ b.receiveCredit

/-- Between operations, the frame after the contiguous cursor is never buffered. -/
structure Settled (b : Inbox) : Prop extends Held b where
  gap : b.reorder[b.recvContiguous + 1]? = none

/-- There is room for one more frame, the terminal reserve included. -/
def Room (b : Inbox) (f : Frame) : Prop :=
  b.reorder.size + b.ready.size + 1 ≤ b.limits.maxReorderFrames + terminalReserve f.kind ∧
    b.reorderBytes + b.readyBytes + f.payload.length ≤
      b.limits.maxReorderBytes + terminalReserve f.kind

instance (b : Inbox) (f : Frame) : Decidable (b.Room f) := inferInstanceAs (Decidable (_ ∧ _))

def Covers (b : Inbox) (f : Frame) : Prop :=
  f.kind = .data → b.receivedBytes + f.credit < wordBound ∧
    b.receivedBytes + f.credit ≤ b.receiveCredit

theorem Covers.received_le {b : Inbox} {f : Frame} (hb : b.receivedBytes ≤ b.receiveCredit)
    (h : b.Covers f) : b.receivedBytes + f.credit ≤ b.receiveCredit := by
  by_cases hk : f.kind = .data
  · exact (h hk).2
  · simpa [Frame.credit, hk] using hb

end Inbox

theorem terminalReserve_le (kind : FrameKind) : terminalReserve kind ≤ 2 := by
  unfold terminalReserve
  split <;> omega

theorem inbox_new_settled (sendCredit receiveCredit : Nat) {limits : SequenceLimits}
    (h : limits.validate = .ok ()) :
    (DirectionState.new sendCredit receiveCredit limits).inbox.Settled where
  limits := h
  delivered_le := Nat.le_refl 0
  recv_lt := by show 0 < wordBound; decide
  reorder k f hf := by
    have hf : (∅ : ExtTreeMap Nat Frame)[k]? = some f := hf
    cases hf
  ready k := by
    show (∅ : ExtTreeMap Nat Frame)[k]? = none ↔ ¬ (0 < k ∧ k ≤ 0)
    rw [ExtTreeMap.getElem?_empty]
    simp only [true_iff]
    omega
  reorderBytes := (mass_empty payloadLength).symm
  readyBytes := (mass_empty payloadLength).symm
  frames_le := by
    show (∅ : ExtTreeMap Nat Frame).size + (∅ : ExtTreeMap Nat Frame).size ≤ _
    rw [ExtTreeMap.size_empty]
    omega
  bytes_le := Nat.zero_le _
  received_le := Nat.zero_le _
  gap := ExtTreeMap.getElem?_empty

namespace DirectionState

/-! ## Effects -/

def charged (f : Frame) (s : DirectionState) : DirectionState :=
  { s with receivedBytes := s.receivedBytes + f.credit }

def unbuffered (f : Frame) (s : DirectionState) : DirectionState :=
  { s with
    reorder := s.reorder.erase f.sequence.toNat
    reorderBytes := s.reorderBytes - f.payload.length }

def entered [Sha256] (f : Frame) (s : DirectionState) : DirectionState :=
  let fingerprinted :=
    retainFingerprint f.sequence.toNat (.of f) { s with recvContiguous := f.sequence.toNat }
  closeReceive f f.closing
    { fingerprinted with
      readyBytes := s.readyBytes + f.payload.length
      ready := s.ready.insert f.sequence.toNat f }

/-- Move buffered frames, oldest first, to the ready queue. -/
def promoted [Sha256] (frames : List Frame) (s : DirectionState) : DirectionState :=
  frames.foldl (fun s f => (s.unbuffered f).entered f) s

def delivered (through : Nat) (s : DirectionState) : DirectionState :=
  if through ≤ s.deliveredContiguous then s
  else
    let (ready, readyBytes) := dropThrough payloadLength through s.ready s.readyBytes
    { s with ready, readyBytes, deliveredContiguous := through }

def advertised (limit : Nat) (s : DirectionState) : DirectionState :=
  if limit > s.receiveCredit then { s with receiveCredit := limit } else s

theorem mem_expireFingerprints {n : Nat} {m : ExtTreeMap Nat FrameFingerprint} {k : Nat}
    {p : FrameFingerprint} (h : (expireFingerprints n m)[k]? = some p) : m[k]? = some p := by
  induction n generalizing m with
  | zero => exact h
  | succ n ih =>
    unfold expireFingerprints at h
    split at h
    · split at h
      · have := ih h
        rw [get_erase] at this
        split at this
        · cases this
        · exact this
      · exact h
    · exact h

/-- What `entered` does to the inbox, field by field. -/
theorem inbox_entered [Sha256] (f : Frame) (s : DirectionState) :
    (s.entered f).inbox =
      { s.inbox with
        recvContiguous := f.sequence.toNat
        terminal := f.closing.or s.receiveTerminal
        terminalSequence :=
          (f.closing.map fun _ => f.sequence.toNat).or s.receiveTerminalSequence
        fingerprints := (retainFingerprint f.sequence.toNat (.of f) s).fingerprints
        ready := s.ready.insert f.sequence.toNat f
        readyBytes := s.readyBytes + f.payload.length } := by
  unfold entered closeReceive
  cases f.closing <;> rfl

section Entered

variable [Sha256] (f : Frame) (s : DirectionState)

@[simp] theorem entered_limits : (s.entered f).limits = s.limits :=
  congrArg Inbox.limits (inbox_entered f s)

@[simp] theorem entered_recvContiguous : (s.entered f).recvContiguous = f.sequence.toNat :=
  congrArg Inbox.recvContiguous (inbox_entered f s)

@[simp] theorem entered_deliveredContiguous :
    (s.entered f).deliveredContiguous = s.deliveredContiguous :=
  congrArg Inbox.deliveredContiguous (inbox_entered f s)

@[simp] theorem entered_receiveCredit : (s.entered f).receiveCredit = s.receiveCredit :=
  congrArg Inbox.receiveCredit (inbox_entered f s)

@[simp] theorem entered_receivedBytes : (s.entered f).receivedBytes = s.receivedBytes :=
  congrArg Inbox.receivedBytes (inbox_entered f s)

@[simp] theorem entered_receiveTerminal :
    (s.entered f).receiveTerminal = f.closing.or s.receiveTerminal :=
  congrArg Inbox.terminal (inbox_entered f s)

@[simp] theorem entered_reorder : (s.entered f).reorder = s.reorder :=
  congrArg Inbox.reorder (inbox_entered f s)

@[simp] theorem entered_reorderBytes : (s.entered f).reorderBytes = s.reorderBytes :=
  congrArg Inbox.reorderBytes (inbox_entered f s)

@[simp] theorem entered_ready : (s.entered f).ready = s.ready.insert f.sequence.toNat f :=
  congrArg Inbox.ready (inbox_entered f s)

@[simp] theorem entered_readyBytes : (s.entered f).readyBytes = s.readyBytes + f.payload.length :=
  congrArg Inbox.readyBytes (inbox_entered f s)

end Entered

theorem outbox_entered [Sha256] (f : Frame) (s : DirectionState) :
    (s.entered f).outbox = s.outbox := by
  unfold entered closeReceive
  cases f.closing <;> rfl

theorem promoted_keeps [Sha256] {α : Type} (view : DirectionState → α)
    (hstep : ∀ f s, view ((s.unbuffered f).entered f) = view s) (frames : List Frame)
    (s : DirectionState) : view (s.promoted frames) = view s := by
  induction frames generalizing s with
  | nil => rfl
  | cons f frames ih => exact (ih _).trans (hstep f s)

theorem promoted_receivedBytes [Sha256] (frames : List Frame) (s : DirectionState) :
    (s.promoted frames).receivedBytes = s.receivedBytes :=
  promoted_keeps receivedBytes (fun f s => entered_receivedBytes f (s.unbuffered f)) frames s

theorem outbox_delivered (through : Nat) (s : DirectionState) :
    (s.delivered through).outbox = s.outbox := by
  unfold delivered
  split <;> rfl

theorem outbox_advertised (limit : Nat) (s : DirectionState) :
    (s.advertised limit).outbox = s.outbox := by
  unfold advertised
  split <;> rfl

theorem inbox_acked (ack : Nat) (s : DirectionState) : (s.acked ack).inbox = s.inbox := by
  unfold acked
  split <;> rfl

theorem inbox_credited (limit : Nat) (s : DirectionState) : (s.credited limit).inbox = s.inbox := by
  unfold credited
  split <;> rfl

theorem inbox_emitted (f : Frame) (s : DirectionState) : (s.emitted f).inbox = s.inbox := by
  unfold emitted closeSend
  cases f.closing <;> rfl

/-! ## The effects keep the inbox -/

variable {s : DirectionState} {f : Frame} {frames : List Frame}

theorem room_iff : s.inbox.Room f ↔
    s.reorder.size + s.ready.size + 1 ≤ s.limits.maxReorderFrames + terminalReserve f.kind ∧
      s.reorderBytes + s.readyBytes + f.payload.length ≤
        s.limits.maxReorderBytes + terminalReserve f.kind := Iff.rfl

theorem ready_fresh (h : s.inbox.Held) (hnext : f.sequence.toNat = s.recvContiguous + 1) :
    s.ready[f.sequence.toNat]? = none := by
  refine (h.ready _).2 ?_
  show ¬ (s.deliveredContiguous < f.sequence.toNat ∧ f.sequence.toNat ≤ s.recvContiguous)
  omega

theorem totals_le (h : s.inbox.Held) :
    s.reorder.size + s.ready.size ≤ s.limits.maxReorderFrames + 2 ∧
      s.reorderBytes + s.readyBytes ≤ s.limits.maxReorderBytes + 2 := ⟨h.frames_le, h.bytes_le⟩

theorem buffered_held (h : s.inbox.Held) (hnew : Buffered s.recvContiguous f.sequence.toNat f)
    (hfresh : s.reorder[f.sequence.toNat]? = none) (hroom : s.inbox.Room f)
    (hcovers : s.inbox.Covers f) : ((s.charged f).bufferReorder f).inbox.Held := by
  have hreserve := terminalReserve_le f.kind
  obtain ⟨hframes, hbytes⟩ := room_iff.1 hroom
  exact
    { h with
      reorder := by
        intro k g hg
        rcases get_insert_eq_some.1 hg with ⟨rfl, rfl⟩ | ⟨-, hg⟩
        · exact hnew
        · exact h.reorder k g hg
      reorderBytes := by
        show s.reorderBytes + f.payload.length = _
        have hb : s.reorderBytes = mass payloadLength s.reorder := h.reorderBytes
        rw [hb]
        exact (mass_insert hfresh payloadLength f).symm
      frames_le := by
        show (s.reorder.insert f.sequence.toNat f).size + s.ready.size ≤
          s.limits.maxReorderFrames + 2
        rw [size_insert_of_none hfresh]
        omega
      bytes_le := by
        show s.reorderBytes + f.payload.length + s.readyBytes ≤ s.limits.maxReorderBytes + 2
        omega
      received_le := hcovers.received_le h.received_le }

/-- Entering the frame after the cursor keeps the inbox when there is room for it. -/
theorem entered_held [Sha256] (h : s.inbox.Held) (hnext : f.sequence.toNat = s.recvContiguous + 1)
    (hgone : s.reorder[f.sequence.toNat]? = none)
    (hframes : s.reorder.size + s.ready.size + 1 ≤ s.limits.maxReorderFrames + 2)
    (hbytes : s.reorderBytes + s.readyBytes + f.payload.length ≤ s.limits.maxReorderBytes + 2) :
    (s.entered f).inbox.Held := by
  have hdelivered : s.deliveredContiguous ≤ s.recvContiguous := h.delivered_le
  have hready : ∀ k, s.ready[k]? = none ↔
      ¬ (s.deliveredContiguous < k ∧ k ≤ s.recvContiguous) := h.ready
  have hfresh := ready_fresh h hnext
  rw [inbox_entered]
  exact
    { h with
      delivered_le := by
        show s.deliveredContiguous ≤ f.sequence.toNat
        omega
      recv_lt := f.sequence.toNat_lt
      reorder := by
        intro k g hg
        have hb := h.reorder k g hg
        refine ⟨?_, hb.sequence, hb.valid, hb.sequenced⟩
        show f.sequence.toNat < k
        have habove : s.recvContiguous < k := hb.above
        have hne : f.sequence.toNat ≠ k := by
          rintro rfl
          cases hgone.symm.trans hg
        omega
      ready := by
        intro k
        show (s.ready.insert f.sequence.toNat f)[k]? = none ↔
          ¬ (s.deliveredContiguous < k ∧ k ≤ f.sequence.toNat)
        rw [get_insert]
        by_cases hk : f.sequence.toNat = k
        · rw [if_pos hk]
          simp only [reduceCtorEq, false_iff, not_not]
          omega
        · rw [if_neg hk, hready]
          omega
      readyBytes := by
        have hb : s.readyBytes = mass payloadLength s.ready := h.readyBytes
        rw [hb]
        exact (mass_insert hfresh payloadLength f).symm
      frames_le := by
        show s.reorder.size + (s.ready.insert f.sequence.toNat f).size ≤
          s.limits.maxReorderFrames + 2
        rw [size_insert_of_none hfresh]
        omega
      bytes_le := by
        show s.reorderBytes + (s.readyBytes + f.payload.length) ≤ s.limits.maxReorderBytes + 2
        omega }

theorem unbuffered_held (h : s.inbox.Held) (hf : s.reorder[f.sequence.toNat]? = some f) :
    (s.unbuffered f).inbox.Held ∧
      (s.unbuffered f).reorder.size + 1 = s.reorder.size ∧
      (s.unbuffered f).reorderBytes + f.payload.length = s.reorderBytes := by
  have hmass := mass_erase hf payloadLength
  have hsize := size_erase_of_some hf
  have hb : s.reorderBytes = mass payloadLength s.reorder := h.reorderBytes
  have hlen : payloadLength f = f.payload.length := rfl
  obtain ⟨hframes, hbytes⟩ := totals_le h
  refine ⟨?_, hsize.symm, ?_⟩
  · exact { h with
      reorder := by
        intro k g hg
        have hg : (s.reorder.erase f.sequence.toNat)[k]? = some g := hg
        rw [get_erase] at hg
        split at hg
        · cases hg
        · exact h.reorder k g hg
      reorderBytes := by
        show s.reorderBytes - f.payload.length =
          mass payloadLength (s.reorder.erase f.sequence.toNat)
        omega
      frames_le := by
        show (s.reorder.erase f.sequence.toNat).size + s.ready.size ≤ s.limits.maxReorderFrames + 2
        omega
      bytes_le := by
        show s.reorderBytes - f.payload.length + s.readyBytes ≤ s.limits.maxReorderBytes + 2
        omega }
  · show s.reorderBytes - f.payload.length + f.payload.length = s.reorderBytes
    omega

/-- The frames stand in the reorder buffer under the keys right after the cursor. -/
def Consecutive (s : DirectionState) (frames : List Frame) : Prop :=
  ∀ i f, frames[i]? = some f → s.reorder[s.recvContiguous + 1 + i]? = some f

theorem Consecutive.head (h : s.Consecutive (f :: frames)) (hs : s.inbox.Held) :
    s.reorder[f.sequence.toNat]? = some f ∧ f.sequence.toNat = s.recvContiguous + 1 := by
  have hf : s.reorder[s.recvContiguous + 1]? = some f := h 0 f rfl
  have hseq : f.sequence.toNat = s.recvContiguous + 1 := (hs.reorder _ f hf).sequence
  rw [hseq]
  exact ⟨hf, rfl⟩

/-- One promotion step: its effect on the cursor and the buffer, and the frames left. -/
theorem promote_step [Sha256] (hs : s.inbox.Held) (h : s.Consecutive (f :: frames)) :
    ((s.unbuffered f).entered f).inbox.Held ∧
      ((s.unbuffered f).entered f).Consecutive frames ∧
      ((s.unbuffered f).entered f).recvContiguous = s.recvContiguous + 1 ∧
      ((s.unbuffered f).entered f).reorder = s.reorder.erase (s.recvContiguous + 1) := by
  obtain ⟨hf, hseq⟩ := h.head hs
  obtain ⟨hheld, hsize, hbytes⟩ := unbuffered_held hs hf
  obtain ⟨hframes, hpayload⟩ := totals_le hs
  have hrecv := entered_recvContiguous f (s.unbuffered f)
  have hreorder : ((s.unbuffered f).entered f).reorder = s.reorder.erase f.sequence.toNat :=
    entered_reorder f (s.unbuffered f)
  refine ⟨?_, ?_, hrecv.trans hseq, ?_⟩
  · apply entered_held hheld hseq
    · show (s.reorder.erase f.sequence.toNat)[f.sequence.toNat]? = none
      rw [get_erase, if_pos rfl]
    · show (s.unbuffered f).reorder.size + s.ready.size + 1 ≤ s.limits.maxReorderFrames + 2
      omega
    · show (s.unbuffered f).reorderBytes + s.readyBytes + f.payload.length ≤
        s.limits.maxReorderBytes + 2
      omega
  · intro i g hg
    rw [hreorder, hrecv, get_erase, if_neg (by omega), hseq]
    have := h (i + 1) g hg
    rw [← this]
    congr 1
    omega
  · rw [hreorder, hseq]

theorem promoted_held [Sha256] (hs : s.inbox.Held) (h : s.Consecutive frames) :
    (s.promoted frames).inbox.Held ∧
      (s.promoted frames).recvContiguous = s.recvContiguous + frames.length ∧
      ∀ k, s.recvContiguous + frames.length < k →
      (s.promoted frames).reorder[k]? = s.reorder[k]? := by
  induction frames generalizing s with
  | nil => exact ⟨hs, rfl, fun k _ => rfl⟩
  | cons f frames ih =>
    obtain ⟨hheld, hnext, hrecv, hreorder⟩ := promote_step hs h
    obtain ⟨ihheld, ihrecv, ihreorder⟩ := ih hheld hnext
    refine ⟨ihheld, ?_, ?_⟩
    · show (((s.unbuffered f).entered f).promoted frames).recvContiguous = _
      rw [ihrecv, hrecv, List.length_cons]
      omega
    · intro k hk
      rw [List.length_cons] at hk
      show (((s.unbuffered f).entered f).promoted frames).reorder[k]? = _
      rw [ihreorder k (by omega), hreorder, get_erase, if_neg (by omega)]

theorem consecutive_chain (s : DirectionState) (n : Nat) :
    s.Consecutive (chain s.reorder n (s.recvContiguous + 1)) := fun _ _ hf =>
  get_of_chain hf

theorem promoted_chain_settled [Sha256] (hs : s.inbox.Held) {n : Nat} (hn : s.reorder.size ≤ n) :
    (s.promoted (chain s.reorder n (s.recvContiguous + 1))).inbox.Settled := by
  obtain ⟨hheld, hrecv, hreorder⟩ := promoted_held hs (s.consecutive_chain n)
  refine { hheld with gap := ?_ }
  show (s.promoted _).reorder[(s.promoted _).recvContiguous + 1]? = none
  rw [hrecv, hreorder _ (by omega)]
  have := chain_stops (k := s.recvContiguous + 1) hn
  rw [← this]
  congr 1
  omega

theorem delivered_held {through : Nat} (h : s.inbox.Held) (hle : through ≤ s.recvContiguous) :
    (s.delivered through).inbox.Held := by
  unfold delivered
  by_cases hthrough : through ≤ s.deliveredContiguous
  · rw [if_pos hthrough]
    exact h
  · rw [if_neg hthrough]
    have hb : s.readyBytes = mass payloadLength s.ready := h.readyBytes
    have hready : ∀ k, s.ready[k]? = none ↔
        ¬ (s.deliveredContiguous < k ∧ k ≤ s.recvContiguous) := h.ready
    have hget := get_dropThrough payloadLength through s.ready s.readyBytes
    have htotal := dropThrough_total payloadLength through s.ready
    rw [← hb] at htotal
    generalize dropThrough payloadLength through s.ready s.readyBytes = dropped
      at hget htotal ⊢
    have hless (w : Frame → Nat) : mass w dropped.1 ≤ mass w s.ready :=
      mass_le_of_get fun k v hv => by
        rw [hget] at hv
        split at hv
        · cases hv
        · exact hv
    have hsize := hless fun _ => 1
    rw [mass_one, mass_one] at hsize
    have hbytes := hless payloadLength
    obtain ⟨hframesOld, hbytesOld⟩ := totals_le h
    exact
      { h with
        delivered_le := hle
        ready := by
          intro k
          show dropped.1[k]? = none ↔ ¬ (through < k ∧ k ≤ s.recvContiguous)
          rw [hget]
          by_cases hk : k ≤ through
          · rw [if_pos hk]
            simp only [true_iff]
            omega
          · rw [if_neg hk, hready]
            omega
        readyBytes := htotal
        frames_le := by
          show s.reorder.size + dropped.1.size ≤ s.limits.maxReorderFrames + 2
          omega
        bytes_le := by
          show s.reorderBytes + dropped.2 ≤ s.limits.maxReorderBytes + 2
          omega }

theorem delivered_settled {through : Nat} (h : s.inbox.Settled) (hle : through ≤ s.recvContiguous) :
    (s.delivered through).inbox.Settled := by
  refine { delivered_held h.toHeld hle with gap := ?_ }
  unfold delivered
  split <;> exact h.gap

theorem advertised_settled (limit : Nat) (h : s.inbox.Settled) :
    (s.advertised limit).inbox.Settled := by
  unfold advertised
  by_cases hgt : limit > s.receiveCredit
  · rw [if_pos hgt]
    have hle : s.receivedBytes ≤ s.receiveCredit := h.received_le
    exact { h with
      received_le := by
        show s.receivedBytes ≤ limit
        omega }
  · rw [if_neg hgt]
    exact h

end DirectionState

end AgentUplink
