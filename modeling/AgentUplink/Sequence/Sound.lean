import AgentUplink.Sequence.Link

/-!
# The invariant of a link

`Link.Sound` ties the four parts of every flow together: what the sender has
emitted and retains, what the receiver holds, what is on the wire, and what each
side has told the other. Every action keeps it, so it holds after every run.

An action changes one endpoint. `Advance` is what that endpoint owes its peer
for the invariant to survive; everything the peer relies on only grows.
-/

namespace AgentUplink

open Machine Fallible Std DirectionState List KeyedMap

namespace Link

def dir (l : Link) (e : Endpoint) (d : Direction) : DirectionState := (l.state e).direction d

/-- A frame that endpoint `e` may have on the wire in direction `d`. -/
structure Carried (l : Link) (e : Endpoint) (d : Direction) (f : Frame) : Prop where
  valid : f.validate = .ok ()
  stream : f.streamId = (l.state e).streamId
  ack_le : f.ack.toNat ≤ (l.dir e d.opposite).recvContiguous
  window_le : f.kind = .windowUpdate → f.window.toNat ≤ (l.dir e d.opposite).receiveCredit
  copy : f.kind.sequenced = true → CopyOf (l.log e d) f

structure Sound [Sha256] (l : Link) : Prop where
  stream : ∀ e, (l.state e.peer).streamId = (l.state e).streamId
  sender : ∀ e d, (l.dir e d).outbox.Tracks (l.log e d)
  settled : ∀ e d, (l.dir e d).inbox.Settled
  receiver : ∀ e d, (l.dir e d).inbox.Tracks (l.log e.peer d) (l.entered e d)
  acked : ∀ e d, (l.dir e d).peerAcked ≤ (l.dir e.peer d).recvContiguous
  logged : ∀ e d f, f ∈ l.log e d → l.Carried e d f
  carried : ∀ e d f, f ∈ l.net e d → l.Carried e d f
  seen : ∀ e, ∀ snapshot ∈ l.snapshots e, ∀ d,
    (snapshot.direction d).recvContiguous ≤ (l.dir e d).recvContiguous
  handed : ∀ e d, l.handed e d = (l.entered e d).take (l.dir e d).deliveredContiguous

/-- What one step of an endpoint does to one of its receiving halves. -/
structure InboxStep [Sha256] (log entered handed : List Frame) (s t : DirectionState) : Prop where
  settled : t.inbox.Settled
  tracks : t.inbox.Tracks log (entered ++ gained s.ready t.ready)
  handed : handed ++ gained t.ready s.ready =
    (entered ++ gained s.ready t.ready).take t.deliveredContiguous
  recv_le : s.recvContiguous ≤ t.recvContiguous
  credit_le : s.receiveCredit ≤ t.receiveCredit
  limits : t.limits = s.limits

section InboxStep

variable [Sha256] {log entered handed : List Frame} {s t : DirectionState}

theorem InboxStep.of_ready_eq (hsettled : t.inbox.Settled) (htracks : t.inbox.Tracks log entered)
    (hhanded : handed = entered.take t.deliveredContiguous) (hready : t.ready = s.ready)
    (hrecv : s.recvContiguous ≤ t.recvContiguous) (hcredit : s.receiveCredit ≤ t.receiveCredit)
    (hlimits : t.limits = s.limits) : InboxStep log entered handed s t := by
  have hgained : gained s.ready t.ready = [] := by rw [hready, gained_self]
  have hlost : gained t.ready s.ready = [] := by rw [hready, gained_self]
  exact
    { settled := hsettled
      tracks := by
        rw [hgained, append_nil]
        exact htracks
      handed := by
        rw [hgained, hlost, append_nil, append_nil]
        exact hhanded
      recv_le := hrecv
      credit_le := hcredit
      limits := hlimits }

variable (hsettled : s.inbox.Settled) (htracks : s.inbox.Tracks log entered)
  (hhanded : handed = entered.take s.deliveredContiguous)
include hsettled htracks hhanded

theorem InboxStep.of_inbox_eq (heq : t.inbox = s.inbox) : InboxStep log entered handed s t := by
  refine .of_ready_eq (heq ▸ hsettled) (heq ▸ htracks) ?_ (congrArg Inbox.ready heq)
    (Nat.le_of_eq (congrArg Inbox.recvContiguous heq).symm)
    (Nat.le_of_eq (congrArg Inbox.receiveCredit heq).symm) (congrArg Inbox.limits heq)
  rw [show t.deliveredContiguous = s.deliveredContiguous from
    congrArg Inbox.deliveredContiguous heq]
  exact hhanded

theorem InboxStep.of_received {f : Frame} {disposition : ReceiveDisposition}
    (hvalid : f.validate = .ok ()) (hcopy : f.kind.sequenced = true → CopyOf log f)
    (hr : s.Received f disposition t) : InboxStep log entered handed s t := by
  obtain ⟨new, htracks'⟩ := hr.tracks htracks hsettled hcopy
  have hsettled' := hr.settled hsettled hvalid
  have hdelivered := hr.delivered_eq
  obtain ⟨hgained, hlost⟩ := gained_of_entered htracks.queues hsettled.toHeld htracks'.queues
    hsettled'.toHeld hdelivered
  have hlen : entered.length = s.recvContiguous := htracks.length
  have hle : s.deliveredContiguous ≤ s.recvContiguous := hsettled.delivered_le
  exact
    { settled := hsettled'
      tracks := by
        rw [hgained]
        exact htracks'
      handed := by
        rw [hgained, hlost, append_nil, hdelivered, take_append_of_le_length (by omega)]
        exact hhanded
      recv_le := by
        have hlen' : (entered ++ new).length = t.recvContiguous := htracks'.length
        rw [length_append] at hlen'
        omega
      credit_le := Nat.le_of_eq hr.receiveCredit_eq.symm
      limits := congrArg Outbox.limits hr.outbox_eq }

theorem InboxStep.of_delivered {through : Nat} (hle : through ≤ s.recvContiguous) :
    InboxStep log entered handed s (s.delivered through) := by
  obtain ⟨hgained, hlost⟩ := gained_of_delivered htracks.queues hsettled.toHeld hle
  have hmax := delivered_deliveredContiguous through s
  have hkeep : (s.delivered through).recvContiguous = s.recvContiguous ∧
      (s.delivered through).receiveCredit = s.receiveCredit ∧
      (s.delivered through).limits = s.limits := by
    unfold delivered
    split <;> exact ⟨rfl, rfl, rfl⟩
  exact
    { settled := delivered_settled hsettled hle
      tracks := by
        rw [hgained, append_nil]
        exact delivered_tracks through htracks
      handed := by
        rw [hgained, hlost, append_nil, hhanded]
        -- What was handed over before, and then the rest up to the new cursor.
        have hmin : s.deliveredContiguous =
            min s.deliveredContiguous (s.delivered through).deliveredContiguous := by omega
        conv_lhs => rw [hmin, ← take_take]
        rw [← hmin, take_append_drop]
      recv_le := Nat.le_of_eq hkeep.1.symm
      credit_le := Nat.le_of_eq hkeep.2.1.symm
      limits := hkeep.2.2 }

theorem InboxStep.of_advertised (limit : Nat) :
    InboxStep log entered handed s (s.advertised limit) := by
  have hsettled' := advertised_settled limit hsettled
  have htracks' := advertised_tracks limit htracks
  unfold advertised at hsettled' htracks' ⊢
  by_cases hgt : limit > s.receiveCredit
  · rw [if_pos hgt] at hsettled' htracks' ⊢
    exact .of_ready_eq hsettled' htracks' hhanded rfl (Nat.le_refl _) (Nat.le_of_lt hgt) rfl
  · rw [if_neg hgt]
    exact .of_inbox_eq hsettled htracks hhanded rfl

end InboxStep

theorem Carried.mono {l l' : Link} {e : Endpoint} {d : Direction} {f : Frame} (h : l.Carried e d f)
    (hstream : (l'.state e).streamId = (l.state e).streamId)
    (hrecv : (l.dir e d.opposite).recvContiguous ≤ (l'.dir e d.opposite).recvContiguous)
    (hcredit : (l.dir e d.opposite).receiveCredit ≤ (l'.dir e d.opposite).receiveCredit)
    (hlog : ∃ more, l'.log e d = l.log e d ++ more) : l'.Carried e d f where
  valid := h.valid
  stream := h.stream.trans hstream.symm
  ack_le := Nat.le_trans h.ack_le hrecv
  window_le hk := Nat.le_trans (h.window_le hk) hcredit
  copy hk := by
    obtain ⟨more, hmore⟩ := hlog
    rw [hmore]
    exact (h.copy hk).append more

/-- What an endpoint's move to state `s`, emitting `frames` in direction `d`, has to keep. -/
structure Advance [Sha256] (l : Link) (e : Endpoint) (s : StreamState) (d : Direction)
    (frames : List Frame) : Prop where
  stream : s.streamId = (l.state e).streamId
  sender : ∀ d', (s.direction d').outbox.Tracks (extend l.log e d frames e d')
  inbox : ∀ d', InboxStep (l.log e.peer d') (l.entered e d') (l.handed e d') (l.dir e d')
    (s.direction d')
  acked : ∀ d', (s.direction d').peerAcked ≤ (l.dir e.peer d').recvContiguous
  credit : ∀ d', (s.direction d').sendCredit ≤
    max (l.dir e d').sendCredit (l.dir e.peer d').receiveCredit
  fresh : ∀ f ∈ frames, ((l.become e s).record e d frames).Carried e d f

section Advance

variable [Sha256] {l : Link} {e : Endpoint} {s : StreamState} {d : Direction}
  {frames : List Frame}

def moved (l : Link) (e : Endpoint) (s : StreamState) (d : Direction)
    (frames : List Frame) : Link :=
  (l.become e s).record e d frames

omit [Sha256] in
theorem moved_dir_self (d' : Direction) : (l.moved e s d frames).dir e d' = s.direction d' :=
  congrArg (fun s : StreamState => s.direction d') (become_state_self l e s)

variable {e' : Endpoint} {d' : Direction} {f : Frame}

omit [Sha256] in
theorem moved_dir_other (h : e' ≠ e) (d' : Direction) :
    (l.moved e s d frames).dir e' d' = l.dir e' d' :=
  congrArg (fun s : StreamState => s.direction d') (become_state_other l e s h)

section

variable (ha : Advance l e s d frames)
include ha

theorem Advance.limits (e' : Endpoint) (d' : Direction) :
    ((l.moved e s d frames).dir e' d').limits = (l.dir e' d').limits := by
  by_cases he : e' = e
  · subst he
    rw [moved_dir_self]
    exact (ha.inbox d').limits
  · rw [moved_dir_other he]

/-- Everything the other endpoint relies on only grows. -/
theorem Advance.grows (e' : Endpoint) (d' : Direction) :
    ((l.moved e s d frames).state e').streamId = (l.state e').streamId ∧
      (l.dir e' d').recvContiguous ≤ ((l.moved e s d frames).dir e' d').recvContiguous ∧
      (l.dir e' d').receiveCredit ≤ ((l.moved e s d frames).dir e' d').receiveCredit := by
  by_cases he : e' = e
  · subst he
    rw [moved_dir_self]
    refine ⟨?_, (ha.inbox d').recv_le, (ha.inbox d').credit_le⟩
    show ((l.become e' s).state e').streamId = _
    rw [become_state_self]
    exact ha.stream
  · rw [moved_dir_other he]
    refine ⟨?_, Nat.le_refl _, Nat.le_refl _⟩
    show ((l.become e s).state e').streamId = _
    rw [become_state_other _ _ _ he]

theorem Advance.carried_mono (h : l.Carried e' d' f) : (l.moved e s d frames).Carried e' d' f :=
  h.mono (ha.grows e' d').1 (ha.grows e' d'.opposite).2.1 (ha.grows e' d'.opposite).2.2
    (extend_exists l.log e e' d d' frames)

end

theorem Sound.advance (h : l.Sound) (ha : Advance l e s d frames) :
    (l.moved e s d frames).Sound where
  stream e' := by
    rw [(ha.grows e'.peer d).1, (ha.grows e' d).1]
    exact h.stream e'
  sender e' d' := by
    by_cases he : e' = e
    · subst he
      rw [moved_dir_self]
      exact ha.sender d'
    · rw [moved_dir_other he]
      show (l.dir e' d').outbox.Tracks (extend l.log e d frames e' d')
      rw [extend_other _ (fun hand => he hand.1)]
      exact h.sender e' d'
  settled e' d' := by
    by_cases he : e' = e
    · subst he
      rw [moved_dir_self]
      exact (ha.inbox d').settled
    · rw [moved_dir_other he]
      exact h.settled e' d'
  receiver e' d' := by
    show ((l.moved e s d frames).dir e' d').inbox.Tracks (extend l.log e d frames e'.peer d')
      ((l.become e s).entered e' d')
    by_cases he : e' = e
    · subst he
      rw [moved_dir_self, become_entered_self,
        extend_other _ (fun hand => Endpoint.peer_ne e' hand.1)]
      exact (ha.inbox d').tracks
    · obtain ⟨more, hmore⟩ := extend_exists l.log e e'.peer d d' frames
      rw [moved_dir_other he, become_entered_other _ _ _ he, hmore]
      exact (h.receiver e' d').append more
  acked e' d' := by
    by_cases he : e' = e
    · subst he
      rw [moved_dir_self, moved_dir_other (Endpoint.peer_ne e')]
      exact ha.acked d'
    · rw [moved_dir_other he]
      exact Nat.le_trans (h.acked e' d') (ha.grows e'.peer d').2.1
  logged e' d' f hf := by
    rcases mem_extend hf with hold | ⟨rfl, rfl, hnew⟩
    · exact ha.carried_mono (h.logged e' d' f hold)
    · exact ha.fresh f hnew
  carried e' d' f hf := ha.carried_mono (h.carried e' d' f hf)
  seen e' snapshot hmem d' := Nat.le_trans (h.seen e' snapshot hmem d') (ha.grows e' d').2.1
  handed e' d' := by
    show (l.become e s).handed e' d' = ((l.become e s).entered e' d').take _
    by_cases he : e' = e
    · subst he
      rw [moved_dir_self, become_handed_self, become_entered_self]
      exact (ha.inbox d').handed
    · rw [moved_dir_other he, become_handed_other _ _ _ he, become_entered_other _ _ _ he]
      exact h.handed e' d'

omit [Sha256] in
theorem Carried.carry (h : l.Carried e' d' f) : (l.carry e d frames).Carried e' d' f :=
  h.mono rfl (Nat.le_refl _) (Nat.le_refl _) ⟨[], (append_nil _).symm⟩

theorem Sound.carry (h : l.Sound) (hf : ∀ f ∈ frames, l.Carried e d f) :
    (l.carry e d frames).Sound :=
  { h with
    logged := fun e' d' f hmem => (h.logged e' d' f hmem).carry
    carried := by
      intro e' d' f hmem
      rcases mem_extend hmem with hold | ⟨rfl, rfl, hnew⟩
      · exact (h.carried e' d' f hold).carry
      · exact (hf f hnew).carry }

omit [Sha256] in
theorem record_nil (l : Link) (e : Endpoint) (d : Direction) : l.record e d [] = l := by
  unfold record
  rw [extend_nil]

/-- What an action of endpoint `e` does but for a snapshot: `e` moves, and frames go on the
wire. -/
inductive Moves (l : Link) (e : Endpoint) : Link → Prop
  | done {s : StreamState} {d : Direction} {frames : List Frame} : Advance l e s d frames →
      l.Moves e (l.moved e s d frames)
  | carry {l' : Link} {d : Direction} {frames : List Frame} : l.Moves e l' →
      (∀ f ∈ frames, l'.Carried e d f) → l.Moves e (l'.carry e d frames)

/-- The shape most moves have: nothing emitted. -/
theorem Moves.become (ha : Advance l e s d []) : l.Moves e (l.become e s) := by
  have hdone := Moves.done ha
  unfold moved at hdone
  rwa [record_nil] at hdone

variable {l' : Link}

theorem Moves.sound (h : l.Sound) (hm : l.Moves e l') : l'.Sound := by
  induction hm with
  | done ha => exact h.advance ha
  | carry _ hf ih => exact ih.carry hf

theorem Moves.exists_advance (hm : l.Moves e l') : ∃ s d frames, Advance l e s d frames ∧
    l'.state = (l.become e s).state ∧ l'.log = extend l.log e d frames := by
  induction hm with
  | done ha => exact ⟨_, _, _, ha, rfl, rfl⟩
  | carry _ _ ih => exact ih

theorem Moves.resend (hm : l.Moves e l') {r : Except SequenceError (List Frame)}
    (hr : ∀ frames, r = .ok frames → ∀ f ∈ frames, l'.Carried e d f) :
    l.Moves e (l'.resend e d r) := by
  cases r with
  | error err => exact hm
  | ok frames => exact hm.carry (hr frames rfl)

theorem Moves.resendPlan (hm : l.Moves e l') {r : Except SequenceError RecoveryPlan}
    (hr : ∀ plan, r = .ok plan → ∀ d, ∀ f ∈ plan.replay.get d, l'.Carried e d f) :
    l.Moves e (l'.resendPlan e r) := by
  cases r with
  | error err => exact hm
  | ok plan =>
    exact (hm.carry (hr plan rfl .relayToConnector)).carry fun f hf =>
      (hr plan rfl .connectorToRelay f hf).carry

end Advance

end Link

end AgentUplink
