/-
A stream identifier is dispatched at most once in a session.

`Move` lists what the events of a connector can do to its tables. A stream is opened
only under an identifier that is neither in the table nor at or below the watermark of
forgotten streams, and a stream leaves the table only when the watermark reaches it.
So no identifier is ever used again, whatever is deferred, refused, given up or
reclaimed in between.
-/
import AgentUplink.Connector.StreamForget

namespace AgentUplink

open Machine Fallible Std Relation List Option

namespace M2Actor

variable [Platform]

/-! ## Events -/

/-- What the actor reacts to. `elsewhere` is everything else that happens in the connector:
it changes the surroundings and the streams there are, and opens or closes none. -/
inductive Event
  | request (message : Open) (r : Readings)
  | flush (r : Readings)
  | forget (message : StreamForget) (now : Nat)
  | barrier (key : CarrierKey) (now : Nat)
  | ready (now : Nat)
  | retry (now : Nat)
  | cancel (message : Cancel)
  | elsewhere (around : Surroundings) (progress : UInt64 → M2Stream → M2Stream)

def Event.exec : Event → Connecting Unit
  | request message r => handleOpen message r
  | flush r => flushPendingOpen r
  | forget message now => handleStreamForget message now
  | barrier key now => handleBarrierComplete key now
  | ready now => completeReadyStreamForgets now
  | retry now => retryPendingForgetBarriers now
  | cancel message => handleCancel message
  | elsewhere around progress =>
    modify fun s => { s with around, streams := s.streams.map progress }

def Event.next (event : Event) (s : M2Actor) : M2Actor := stateOf (event.exec.run s)

def run (s : M2Actor) (events : List Event) : M2Actor := Trace.run Event.next s events

/-! ## Moves -/

section

omit [Platform]

def Holds (s : M2Actor) (request : Open) : Prop :=
  ∃ canonical, encodeControlMessage (.request request) = .ok canonical ∧
    s.openJournal.Holds request.messageId canonical request.streamId request.operationId

/-- Only the surroundings changed: messages were queued. -/
def Sends (s t : M2Actor) : Prop := ∃ around, t = { s with around }

/-- Answers were sent or recorded. -/
def Answers (s t : M2Actor) : Prop :=
  ∃ around journal, s.openJournal.SameRequests journal ∧
    t = { s with around, openJournal := journal }

inductive Move (s : M2Actor) : M2Actor → Prop
  | answered {t : M2Actor} (h : s.Answers t) : Move s t
  | elsewhere (around : Surroundings) {streams : ExtTreeMap UInt64 M2Stream}
      (forgets : ExtTreeMap UInt64 PendingStreamForget) (retired : RetiredStreamIds)
      (hids : ∀ id : UInt64, streams[id]? = none ↔ s.streams[id]? = none) :
      Move s { s with around, streams, pendingForgets := forgets, retiredStreams := retired }
  | journaled {request : Open} {canonical : String} {journal : OpenJournal}
      (hholds : journal.Holds request.messageId canonical request.streamId request.operationId)
      (habsent : s.openJournal.entries[request.messageId]? = none)
      (hother : ∀ other, other ≠ request.messageId →
        journal.entries[other]? = s.openJournal.entries[other]?) :
      Move s { s with openJournal := journal }
  | requests (head : Option PendingOpen) (queue : List PendingOpen)
      (hheld : ∀ p ∈ head.toList ++ queue, p ∈ s.deferred ∨ s.Holds p.request) :
      Move s { s with pendingOpen := head, pendingOpenQueue := queue }
  | dispatch (id : UInt64) (stream : M2Stream) (hfree : s.streams[id]? = none)
      (habove : s.forgottenStreamThrough < id) :
      Move s { s with streams := s.streams.insert id stream, dispatched := s.dispatched ++ [id] }
  | reclaim (id : UInt64) (operationId : String) : Move s (s.reclaim id operationId)

abbrev Moves : M2Actor → M2Actor → Prop := ReflTransGen Move

variable {s t u : M2Actor}

theorem Sends.refl (s : M2Actor) : s.Sends s := ⟨s.around, rfl⟩

theorem Sends.answers (h : s.Sends t) : s.Answers t := by
  obtain ⟨around, rfl⟩ := h
  exact ⟨around, s.openJournal, .refl _, rfl⟩

theorem Answers.refl (s : M2Actor) : s.Answers s := ⟨s.around, s.openJournal, .refl _, rfl⟩

theorem Answers.trans (h : s.Answers t) (h' : t.Answers u) : s.Answers u := by
  obtain ⟨_, _, hsame, rfl⟩ := h
  obtain ⟨around, journal, hsame', rfl⟩ := h'
  exact ⟨around, journal, hsame.trans hsame', rfl⟩

theorem Answers.moves (h : s.Answers t) : Moves s t := .single (.answered h)

theorem Answers.holds (h : s.Answers t) {request : Open} (hs : s.Holds request) :
    t.Holds request := by
  obtain ⟨_, _, hsame, rfl⟩ := h
  obtain ⟨canonical, hencode, hholds⟩ := hs
  exact ⟨canonical, hencode, hsame.holds hholds⟩

theorem Sends.moves (h : s.Sends t) : Moves s t := h.answers.moves

theorem Move.forgets (forgets : ExtTreeMap UInt64 PendingStreamForget) :
    Moves s { s with pendingForgets := forgets } :=
  .single (.elsewhere s.around forgets s.retiredStreams fun _ => Iff.rfl)

theorem Move.retire (retired : RetiredStreamIds) : Moves s { s with retiredStreams := retired } :=
  .single (.elsewhere s.around s.pendingForgets retired fun _ => Iff.rfl)

/-! ## What the moves keep -/

/-- An identifier that was dispatched is in the table or at or below the watermark, none was
dispatched twice, and the journal holds every deferred request. -/
structure Sound (s : M2Actor) : Prop where
  once : s.dispatched.Nodup
  spent : ∀ id ∈ s.dispatched, s.streams[id]? = none → id ≤ s.forgottenStreamThrough
  backed : ∀ p ∈ s.deferred, s.Holds p.request

theorem Sound.journal (h : s.Sound) {journal : OpenJournal}
    (hholds : ∀ messageId canonical streamId operationId,
      s.openJournal.Holds messageId canonical streamId operationId →
        journal.Holds messageId canonical streamId operationId) (around : Surroundings) :
    Sound { s with around, openJournal := journal } := by
  refine ⟨h.once, h.spent, fun p hp => ?_⟩
  obtain ⟨canonical, hencode, hold⟩ := h.backed p hp
  exact ⟨canonical, hencode, hholds _ _ _ _ hold⟩

theorem Sound.dispatch (h : s.Sound) {id : UInt64} (stream : M2Stream)
    (hfree : s.streams[id]? = none) (habove : s.forgottenStreamThrough < id) :
    Sound { s with streams := s.streams.insert id stream, dispatched := s.dispatched ++ [id] } := by
  have hfresh : id ∉ s.dispatched := by
    intro hmem
    exact absurd (h.spent id hmem hfree) (UInt64.not_le.2 habove)
  refine ⟨?_, fun other hother hnone => ?_, h.backed⟩
  · refine nodup_append.2 ⟨h.once, nodup_singleton id, fun a ha b hb heq => ?_⟩
    exact hfresh (mem_singleton.1 hb ▸ heq ▸ ha)
  · rw [Ledger.get_insert] at hnone
    split at hnone
    · cases hnone
    · next hne =>
      rcases mem_append.1 hother with hold | hnew
      · exact h.spent other hold hnone
      · exact absurd (mem_singleton.1 hnew).symm hne

/-- Only the stream that is reclaimed leaves the table, and the watermark is not below it. -/
theorem reclaim_absent {id other : UInt64} {operationId : String}
    (h : (s.reclaim id operationId).streams[other]? = none) :
    s.streams[other]? = none ∨ other ≤ (s.reclaim id operationId).forgottenStreamThrough := by
  have herase : (s.streams.erase id)[other]? = none := h
  rw [Ledger.get_erase] at herase
  by_cases heq : id = other
  · right
    rw [← heq]
    exact word_le_max_right _ _
  · left
    rwa [if_neg heq] at herase

theorem Sound.reclaim (h : s.Sound) (id : UInt64) (operationId : String) :
    (s.reclaim id operationId).Sound := by
  refine ⟨h.once, fun other hother hnone => ?_, fun p hp => ?_⟩
  · rcases reclaim_absent hnone with hold | hgone
    · exact UInt64.le_trans (h.spent other hother hold) (word_le_max_left ..)
    · exact hgone
  · -- A request that is still deferred is of another operation, so its entry stays.
    have hkept : p ∈ s.deferred ∧ ¬ p.IsFor id operationId := by
      rcases mem_append.1 hp with hhead | hqueue
      · obtain ⟨hhead, hother⟩ := filter_eq_some_iff.1 (mem_toList.1 hhead)
        exact ⟨mem_append_left _ (mem_toList.2 hhead), of_decide_eq_true hother⟩
      · obtain ⟨hqueue, hother⟩ := mem_filter.1 hqueue
        exact ⟨mem_append_right _ hqueue, of_decide_eq_true hother⟩
    obtain ⟨canonical, hencode, hholds⟩ := h.backed p hkept.1
    exact ⟨canonical, hencode, OpenJournal.releaseMatching_holds hholds hkept.2⟩

theorem Move.sound (hmove : Move s t) (h : s.Sound) : t.Sound := by
  cases hmove with
  | answered hanswers =>
    obtain ⟨around, journal, hsame, rfl⟩ := hanswers
    exact h.journal (fun _ _ _ _ => hsame.holds) around
  | elsewhere around forgets retired hids =>
    exact ⟨h.once, fun id hid hnone => h.spent id hid ((hids id).1 hnone), h.backed⟩
  | journaled hholds habsent hother =>
    refine h.journal (fun messageId _ _ _ hold => ?_) s.around
    obtain ⟨entry, hentry, hrest⟩ := hold
    refine ⟨entry, ?_, hrest⟩
    rw [hother messageId, hentry]
    rintro rfl
    cases habsent.symm.trans hentry
  | requests head queue hheld =>
    refine ⟨h.once, h.spent, fun p hp => ?_⟩
    rcases hheld p hp with hold | hnew
    · exact h.backed p hold
    · exact hnew
  | dispatch id stream hfree habove => exact h.dispatch stream hfree habove
  | reclaim id operationId => exact h.reclaim id operationId

theorem Moves.sound (hmoves : Moves s t) (h : s.Sound) : t.Sound := by
  induction hmoves with
  | refl => exact h
  | tail _ hmove ih => exact hmove.sound ih

/-- What a state keeps of the identifiers that cannot be dispatched any more. -/
structure Fences (s t : M2Actor) : Prop where
  watermark : s.forgottenStreamThrough ≤ t.forgottenStreamThrough
  present : ∀ id : UInt64, s.streams[id]? ≠ none → t.streams[id]? = none →
    id ≤ t.forgottenStreamThrough
  fresh : ∀ id ∈ t.dispatched, id ∉ s.dispatched →
    s.forgottenStreamThrough < id ∧ s.streams[id]? = none

theorem Fences.move (h : s.Fences t) (hmove : Move t u) : s.Fences u := by
  cases hmove with
  | answered hanswers =>
    obtain ⟨_, _, _, rfl⟩ := hanswers
    exact ⟨h.watermark, h.present, h.fresh⟩
  | elsewhere around forgets retired hids =>
    exact ⟨h.watermark, fun id hs hnone => h.present id hs ((hids id).1 hnone), h.fresh⟩
  | journaled _ _ _ | requests head queue _ => exact ⟨h.watermark, h.present, h.fresh⟩
  | dispatch id stream hfree habove =>
    refine ⟨h.watermark, fun other hs hnone => ?_, fun other hother hnew => ?_⟩
    · rw [Ledger.get_insert] at hnone
      split at hnone
      · cases hnone
      · exact h.present other hs hnone
    · rcases mem_append.1 hother with hold | hlast
      · exact h.fresh other hold hnew
      · rw [mem_singleton.1 hlast]
        refine ⟨UInt64.lt_of_le_of_lt h.watermark habove, ?_⟩
        by_contra hs
        exact absurd (h.present id hs hfree) (UInt64.not_le.2 habove)
  | reclaim id operationId =>
    have hraised : t.forgottenStreamThrough ≤ (t.reclaim id operationId).forgottenStreamThrough :=
      word_le_max_left ..
    refine ⟨UInt64.le_trans h.watermark hraised, fun other hs hnone => ?_, h.fresh⟩
    rcases reclaim_absent hnone with hold | hgone
    · exact UInt64.le_trans (h.present other hs hold) hraised
    · exact hgone

theorem Moves.fences (hmoves : Moves s t) : s.Fences t := by
  induction hmoves with
  | refl =>
    exact ⟨UInt64.le_refl _, fun _ hs hnone => absurd hnone hs, fun _ hid hnew => absurd hid hnew⟩
  | tail _ hmove ih => exact ih.move hmove

/-! ## Answers -/

instance : IsTrans M2Actor Answers := ⟨fun _ _ _ => Answers.trans⟩

abbrev OnlySends {α ε : Type} (x : EStateM ε M2Actor α) (s : M2Actor) : Prop :=
  wp x s (fun _ t => s.Sends t) fun _ t => s.Sends t

abbrev OnlyAnswers {α ε : Type} (x : EStateM ε M2Actor α) (s : M2Actor) : Prop :=
  wp x s (fun _ t => s.Answers t) fun _ t => s.Answers t

variable {fail : ClientError → M2Actor → Prop} {α ε : Type} {x : EStateM ε M2Actor α}

theorem wp_changeAround (g : Surroundings → Surroundings) {post : Unit → M2Actor → Prop} :
    wp (changeAround g) s post fail ↔ post () { s with around := g s.around } := Iff.rfl

theorem OnlySends.answers (h : OnlySends x s) : OnlyAnswers x s :=
  wp_mono h (fun _ _ ht => ht.answers) fun _ _ ht => ht.answers

theorem wp_onJournal {x : OpenJournaling α} {post : Except OpenJournalError α → M2Actor → Prop}
    (h : wp x s.openJournal (fun a journal => post (.ok a) { s with openJournal := journal })
      fun e journal => post (.error e) { s with openJournal := journal }) :
    wp (onJournal x) s post fail := by
  unfold wp onJournal EStateM.run at *
  cases hrun : x s.openJournal with
  | ok a journal | error e journal => simpa only [hrun] using h

theorem onJournal_answers {x : OpenJournaling α}
    (h : wp x s.openJournal (fun _ journal => s.openJournal.SameRequests journal)
      fun _ journal => s.openJournal.SameRequests journal) :
    wp (onJournal x) s (fun _ t => s.Answers t) fail :=
  wp_onJournal (wp_mono h (fun _ journal hsame => ⟨s.around, journal, hsame, rfl⟩)
    fun _ journal hsame => ⟨s.around, journal, hsame, rfl⟩)

theorem deferCriticalControl_sends (message : String) (deadline : DualDeadline) :
    OnlySends (deferCriticalControl message deadline) s := by
  unfold OnlySends deferCriticalControl
  simp only [wp_bind, wp_get, wp_failIf, wp_changeAround]
  exact ⟨fun _ => .refl s, fun _ => ⟨_, rfl⟩⟩

theorem openRetentionFailure_answers (requestId : String) :
    OnlyAnswers (openRetentionFailure requestId : Connecting α) s := by
  refine wp_bind_trans (onJournal_answers (OpenJournal.compact_spec requestId)) fun result t => ?_
  cases result with
  | ok _ | error _ => exact .refl t

theorem completeOpenJournal_answers (requestId : String) (responses : List String)
    (deadlines : List (Option DualDeadline)) :
    OnlyAnswers (completeOpenJournal requestId responses deadlines) s := by
  unfold completeOpenJournal
  cases openResponseBytes responses with
  | none => exact openRetentionFailure_answers requestId
  | some responseBytes =>
    refine wp_bind_trans (onJournal_answers (OpenJournal.complete_spec requestId responses
      deadlines responseBytes)) fun result t => ?_
    cases result with
    | ok _ => exact .refl t
    | error e =>
      cases e with
      | capacity | tombstoneCapacity => exact openRetentionFailure_answers requestId
      | conflictingMessage | missingMessage | conflictingResponse => exact .refl t

theorem ensureOpenResponse_answers (requestId : String) (responses : List String)
    (changed : String) : OnlyAnswers (ensureOpenResponse requestId responses changed) s := by
  unfold ensureOpenResponse
  cases openResponseBytes responses with
  | none => exact openRetentionFailure_answers requestId
  | some responseBytes =>
    refine wp_bind_trans (onJournal_answers (wp_mono
      (OpenJournal.ensureResponseCapacity_spec requestId responseBytes)
      (fun _ _ hk => hk ▸ .refl _) fun _ _ hk => hk ▸ .refl _)) fun result t => ?_
    cases result with
    | ok _ => exact .refl t
    | error e =>
      cases e with
      | capacity | tombstoneCapacity => exact openRetentionFailure_answers requestId
      | conflictingMessage | missingMessage | conflictingResponse => exact .refl t

/-! ## Admission -/

abbrev Keeps {α ε : Type} (x : EStateM ε M2Actor α) (s : M2Actor) : Prop :=
  wp x s (fun _ t => Moves s t) fun _ t => Moves s t

theorem OnlyAnswers.keeps (h : OnlyAnswers x s) : Keeps x s :=
  wp_mono h (fun _ _ ht => ht.moves) fun _ _ ht => ht.moves

theorem Keeps.after {t : M2Actor} (h : Keeps x t) (hmoves : Moves s t) :
    wp x t (fun _ u => Moves s u) fun _ u => Moves s u :=
  wp_mono h (fun _ _ hu => hmoves.trans hu) fun _ _ hu => hmoves.trans hu

def Free (s : M2Actor) (id : UInt64) : Prop := s.streams[id]? = none ∧ s.forgottenStreamThrough < id

theorem Answers.free {t : M2Actor} (h : s.Answers t) {id : UInt64} (hfree : s.Free id) :
    t.Free id := by
  obtain ⟨_, _, _, rfl⟩ := h
  exact hfree

theorem checkAdmission_free {pending : PendingOpen} {now : Clock} {serves : Serves}
    (h : s.checkAdmission pending now = .ok serves) : s.Free pending.request.streamId := by
  unfold checkAdmission at h
  dsimp only at h
  split at h
  · cases h
  · split at h
    · cases h
    · split at h
      · cases h
      · simp only [ite_error_eq_ok] at h
        obtain ⟨_, hexists, _, _⟩ := h
        rw [not_or, not_or] at hexists
        have habsent : pending.request.streamId ∉ s.streams := by simpa using hexists.1
        exact ⟨ExtTreeMap.getElem?_eq_none habsent, UInt64.not_le.1 hexists.2.1⟩

/-- A stream is opened under a free identifier, or nothing but answers happened. -/
theorem publish_moves (request : Open) (a : PendingAuthorization) (serves : Serves)
    (hfree : s.Free request.streamId) :
    wp (publish request a serves) s (fun _ t => Moves s t) fun _ t => s.Answers t := by
  unfold publish
  simp only [wp_bind, wp_get, wp_check, wp_changeAround, wp_modify]
  refine ⟨fun _ _ => .refl s, fun opened _ => ⟨fun _ _ => .refl s, fun challenge _ => ?_⟩⟩
  refine wp_mono (ensureOpenResponse_answers _ _ _) (fun _ t ht => ?_) fun _ _ ht => ht
  refine ⟨fun _ _ => ht, fun stream _ => ⟨fun _ _ => ht, fun controlQueue _ => ?_⟩⟩
  have hsent : s.Answers { t with around := { t.around with controlQueue } } :=
    ht.trans (Sends.answers ⟨_, rfl⟩)
  refine wp_mono (completeOpenJournal_answers _ _ _) (fun _ u hu => ?_) fun _ _ hu =>
    hsent.trans hu
  have hanswers : s.Answers u := hsent.trans hu
  have hfree' : u.Free request.streamId := hanswers.free hfree
  exact hanswers.moves.tail (.dispatch request.streamId stream hfree'.1 hfree'.2)

/-! ## Reclamation -/

theorem changeForget_keeps (streamId : UInt64) (g : PendingStreamForget → PendingStreamForget) :
    Keeps (changeForget streamId g) s := Move.forgets _

theorem queueForgetBarrier_keeps (streamId : UInt64) (key : CarrierKey) :
    Keeps (queueForgetBarrier streamId key) s := by
  unfold Keeps queueForgetBarrier
  rw [wp_bind, wp_get]
  simp only [wp_ite, wp_pure]
  refine ⟨fun _ => .refl, fun _ => ⟨fun _ => .refl, fun _ => ?_⟩⟩
  split
  · exact .refl
  · simp only [wp_ite, wp_pure, wp_throw, wp_bind, wp_changeAround]
    exact ⟨fun _ => .refl, fun _ => ⟨fun _ => .refl, fun _ =>
      (changeForget_keeps streamId _).after (Sends.moves ⟨_, rfl⟩)⟩⟩

theorem queuePendingForgetBarriers_keeps (streamIds : List UInt64) :
    Keeps (queuePendingForgetBarriers streamIds) s := by
  refine wp_forM (fun streamId _ t ht => ?_) .refl
  exact wp_forM (fun key _ u hu => (queueForgetBarrier_keeps streamId key).after hu) ht

theorem refreshProofs_keeps (now : Nat) (streamIds : List UInt64) :
    Keeps (refreshProofs now streamIds) s := by
  induction streamIds generalizing s with
  | nil => exact .refl
  | cons streamId streamIds ih =>
    unfold Keeps refreshProofs
    rw [wp_bind, wp_get]
    split
    · exact ih
    · split
      · refine wp_bind_trans (changeForget_keeps streamId _) fun _ t => ?_
        simp only [wp_bind, wp_pure]
        exact ih
      · simp only [wp_ite, wp_throw]
        exact ⟨fun _ => .refl, fun _ => ⟨fun _ => ih, fun _ => .refl⟩⟩

theorem refreshPendingForgetProofs_keeps (now : Nat) :
    Keeps (refreshPendingForgetProofs now) s := by
  unfold Keeps refreshPendingForgetProofs
  rw [wp_bind, wp_get]
  exact wp_bind_trans (refreshProofs_keeps now _) fun converged _ =>
    queuePendingForgetBarriers_keeps converged

theorem retryPendingForgetBarriers_keeps (now : Nat) :
    Keeps (retryPendingForgetBarriers now) s := by
  exact wp_bind_trans (refreshPendingForgetProofs_keeps now) fun _ _ =>
    queuePendingForgetBarriers_keeps _

theorem completeForgets_keeps (now : Nat) (ready : List UInt64) :
    Keeps (completeForgets now ready) s := by
  induction ready generalizing s with
  | nil => exact .refl
  | cons streamId ready ih =>
    unfold Keeps completeForgets
    rw [wp_bind, wp_get]
    split
    · exact ih
    · split
      · rw [wp_bind, wp_modify]
        exact Keeps.after ih (.single (.reclaim streamId _))
      · simp only [wp_ite, wp_throw]
        exact ⟨fun _ => .refl, fun _ => ⟨fun _ => .refl, fun _ =>
          wp_bind_trans (changeForget_keeps streamId _) fun _ _ => ih⟩⟩

theorem completePendingStreamForgetsMatching_keeps (key : Option CarrierKey) (now : Nat) :
    Keeps (completePendingStreamForgetsMatching key now) s := by
  exact wp_bind_trans (refreshPendingForgetProofs_keeps now) fun _ _ => completeForgets_keeps now _

theorem handleBarrierComplete_keeps (key : CarrierKey) (now : Nat) :
    Keeps (handleBarrierComplete key now) s := by
  unfold Keeps handleBarrierComplete
  simp only [wp_bind, wp_get, wp_modify, wp_ite, wp_pure, wp_changeAround]
  have hmarked : Moves s (s.markPendingForgetBarrierComplete key) := Move.forgets _
  refine ⟨fun _ => (completePendingStreamForgetsMatching_keeps _ now).after hmarked, fun _ =>
    ⟨fun _ => ⟨fun _ => (completePendingStreamForgetsMatching_keeps _ now).after hmarked,
      fun _ => hmarked⟩, fun _ => ?_⟩⟩
  have hcleared := hmarked.trans (Sends.moves (s := s.markPendingForgetBarrierComplete key)
    ⟨{ s.around with barrierQueued := false }, rfl⟩)
  exact ⟨fun _ => (retryPendingForgetBarriers_keeps now).after hcleared, fun _ => hcleared⟩

theorem handleStreamForget_keeps (forget : StreamForget) (now : Nat) :
    Keeps (handleStreamForget forget now) s := by
  unfold Keeps handleStreamForget
  simp only [wp_bind, wp_get, wp_failIf, wp_ite, wp_pure]
  refine ⟨fun _ => .refl, fun _ => ⟨fun _ => .refl, fun _ => ?_⟩⟩
  split
  · exact (wp_failIf _ _).2 ⟨fun _ => .refl, fun _ => .refl⟩
  · simp only [wp_bind, wp_check, wp_modify]
    refine ⟨fun _ _ => .refl, fun proof _ => ?_⟩
    refine wp_mono ((refreshPendingForgetProofs_keeps now).after (Move.forgets _))
      (fun _ t ht => ?_) fun _ _ ht => ht
    exact (queuePendingForgetBarriers_keeps _).after ht

theorem compactRemoved_answers (messageIds : List String) :
    OnlyAnswers (compactRemoved messageIds) s := by
  refine wp_forM (fun messageId _ t ht => ?_) (.refl s)
  rw [wp_bind]
  refine wp_mono (onJournal_answers (OpenJournal.compact_spec messageId))
    (fun result u hu => ?_) fun _ _ hu => hu
  have hanswers : s.Answers u := ht.trans hu
  cases result with
  | ok _ => exact hanswers
  | error e => cases e <;> exact hanswers

theorem handleCancel_keeps (cancel : Cancel) : Keeps (handleCancel cancel) s := by
  unfold Keeps handleCancel
  simp only [wp_bind, wp_get, wp_failIf, wp_modify]
  refine ⟨fun _ => .refl, fun _ => (compactRemoved_answers _).keeps.after (.single ?_)⟩
  refine .requests _ _ fun p hp => .inl ?_
  rcases mem_append.1 hp with hhead | hqueue
  · obtain ⟨hhead, _⟩ := filter_eq_some_iff.1 (mem_toList.1 hhead)
    exact mem_append_left _ (mem_toList.2 hhead)
  · exact mem_append_right _ (mem_filter.1 hqueue).1

theorem past_horizon_of_nothing_retained {request : Open}
    (hbelow : request.streamId ≤ s.forgottenStreamThrough)
    (habsent : s.streams[request.streamId]? = none)
    (hnone : ∀ (messageId : String) (entry : OpenJournalEntry),
      s.openJournal.entries[messageId]? = some entry → entry.streamId ≠ request.streamId) :
    s.openIsPastRetryHorizon request := by
  unfold openIsPastRetryHorizon
  rw [OpenJournal.retainedOperationMatches_none hnone, ExtTreeMap.contains_eq_isSome_getElem?,
    habsent, decide_eq_true hbelow]
  rfl

end

/-! ## Opening -/

section

variable {s : M2Actor}

theorem spill_sends (message : String) (deadline : Option DualDeadline) (now : Clock) :
    OnlySends (spill message deadline now) s := by
  unfold spill
  cases deadline with
  | some deadline => exact deferCriticalControl_sends message deadline
  | none =>
    unfold OnlySends
    rw [wp_bind, wp_orFail]
    exact ⟨fun _ => .refl s, fun deadline _ => deferCriticalControl_sends message deadline⟩

theorem sendCriticalMessage_sends (message : String) (deadline : Option DualDeadline)
    (now : Clock) : OnlySends (sendCriticalMessage message deadline now) s := by
  unfold OnlySends sendCriticalMessage
  rw [wp_bind, wp_get, wp_ite]
  refine ⟨fun _ => spill_sends message deadline now, fun _ => ?_⟩
  split
  · exact (wp_changeAround _).2 ⟨_, rfl⟩
  · exact spill_sends message deadline now
  · exact .refl s

theorem sendRejected_sends (request : Open) (refusal : OpenRefusal) (messageId : String)
    (now : Clock) : OnlySends (sendRejected request refusal messageId now) s := by
  unfold OnlySends sendRejected
  simp only [wp_bind, wp_get, wp_check]
  exact ⟨fun _ _ => .refl s, fun response _ => sendCriticalMessage_sends response none now⟩

theorem sendOpenRejectedJournaled_answers (request : Open) (refusal : OpenRefusal)
    (messageId : String) (now : Clock) :
    OnlyAnswers (sendOpenRejectedJournaled request refusal messageId now) s := by
  unfold OnlyAnswers sendOpenRejectedJournaled
  simp only [wp_bind (get : Connecting M2Actor), wp_get, wp_bind (check _ : Connecting String),
    wp_check]
  refine ⟨fun _ _ => .refl s, fun response _ => ?_⟩
  refine wp_bind_trans (ensureOpenResponse_answers _ _ _) fun _ t => ?_
  refine wp_bind_trans (sendCriticalMessage_sends response none now).answers fun _ u => ?_
  exact completeOpenJournal_answers _ _ _

theorem replayOpenResponses_sends (responses : List String) (deadlines : List (Option DualDeadline))
    (now : Clock) : OnlySends (replayOpenResponses responses deadlines now) s := by
  unfold replayOpenResponses
  split
  · exact sendCriticalMessage_sends _ _ now
  · exact .refl s

theorem admitAuthorized_moves (request : Open) (operationDeadline : DualDeadline)
    (a : PendingAuthorization) (serves : Serves) (r : Readings) (hfree : s.Free request.streamId) :
    wp (admitAuthorized request operationDeadline a serves r) s (fun _ t => Moves s t)
      fun _ t => s.Answers t := by
  unfold admitAuthorized
  rw [wp_ite]
  refine ⟨fun _ => ?_, fun _ => publish_moves request a serves hfree⟩
  exact wp_mono (sendOpenRejectedJournaled_answers _ _ _ _) (fun _ _ ht => ht.moves)
    fun _ _ ht => ht

/-- A request that is not admitted comes back as it was, apart from its authorization. -/
theorem tryAdmitOpen_moves (pending : PendingOpen) (r : Readings) :
    wp (tryAdmitOpen pending r) s (fun _ t => Moves s t)
      fun e t => s.Answers t ∧ e.2.request = pending.request := by
  unfold tryAdmitOpen
  rw [wp_bind, wp_get]
  cases hserves : s.checkAdmission pending r.checked with
  | error refusal =>
    refine (wp_adaptExcept _ _).2 ?_
    exact wp_mono (sendOpenRejectedJournaled_answers _ _ _ _) (fun _ _ ht => ht.moves)
      fun _ _ ht => ⟨ht, rfl⟩
  | ok serves =>
    have hfree : s.Free pending.request.streamId := checkAdmission_free hserves
    simp only [wp_bind, wp_adaptExcept, wp_check]
    refine ⟨fun _ _ => ⟨.refl s, trivial⟩, fun a _ => ?_⟩
    exact wp_mono (admitAuthorized_moves _ _ _ _ _ hfree) (fun _ _ ht => ht)
      fun _ _ ht => ⟨ht, trivial⟩

theorem admitOrDefer_keeps {pending : PendingOpen} (hholds : s.Holds pending.request)
    (r : Readings) : Keeps (admitOrDefer pending r) s := by
  have hadmit := tryAdmitOpen_moves (s := s) pending r
  simp only [Keeps, wp, admitOrDefer, EStateM.run] at *
  cases hrun : tryAdmitOpen pending r s with
  | ok _ t =>
    rw [hrun] at hadmit
    exact hadmit
  | error e t =>
    rw [hrun] at hadmit
    obtain ⟨e, held⟩ := e
    obtain ⟨hanswers, hrequest⟩ := hadmit
    cases e with
    | queueLimit =>
      refine hanswers.moves.tail (.requests (some held) t.pendingOpenQueue fun p hp => ?_)
      rcases mem_cons.1 hp with rfl | hqueue
      · right
        rw [hrequest]
        exact hanswers.holds hholds
      · exact .inl (mem_append_right _ hqueue)
    | _ => exact hanswers.moves

theorem admitNew_keeps {request : Open} (hholds : s.Holds request) (r : Readings) :
    Keeps (admitNew request r) s := by
  unfold Keeps admitNew
  rw [wp_bind, wp_get]
  split
  · exact (sendOpenRejectedJournaled_answers _ _ _ _).keeps
  · next reserved _ =>
    rw [wp_bind, wp_check]
    refine ⟨fun _ _ => .refl, fun pending hpending => ?_⟩
    have hrequest : pending.request = request := by
      obtain ⟨_, _, hpending⟩ := except_bind_eq_ok.1 hpending
      split at hpending
      · cases hpending
      · cases hpending
        rfl
    have hheld : s.Holds pending.request := hrequest ▸ hholds
    simp only [wp_ite, wp_modify]
    refine ⟨fun _ => ⟨fun _ => (sendOpenRejectedJournaled_answers _ _ _ _).keeps, fun _ => ?_⟩,
      fun _ => admitOrDefer_keeps hheld r⟩
    refine .single (.requests s.pendingOpen (s.pendingOpenQueue ++ [pending]) fun p hp => ?_)
    rw [← append_assoc] at hp
    rcases mem_append.1 hp with hold | hnew
    · exact .inl hold
    · exact .inr (mem_singleton.1 hnew ▸ hheld)

theorem handleOpen_keeps (request : Open) (r : Readings) : Keeps (handleOpen request r) s := by
  unfold Keeps handleOpen
  simp only [wp_bind, wp_get, wp_check, wp_ite]
  refine ⟨fun _ _ => .refl, fun _ _ => ⟨fun _ => (sendRejected_sends _ _ _ _).answers.keeps,
    fun _ => ⟨fun _ _ => .refl, fun canonical hcanonical => ?_⟩⟩⟩
  refine wp_onJournal (wp_mono (OpenJournal.observe_spec _ _ _ _)
    (fun observation journal hobserved => ?_) fun e journal hsame => ?_)
  · rcases hobserved with ⟨entry, _, _, rfl, rfl⟩ | ⟨habsent, rfl, hholds, hother⟩
    · cases entry.state with
      | pending => exact .refl
      | completed responses deadlines => exact (replayOpenResponses_sends _ _ _).answers.keeps
      | tombstone => exact (sendRejected_sends _ _ _ _).answers.keeps
    · exact (admitNew_keeps ⟨canonical, hcanonical, hholds⟩ r).after
        (.single (.journaled hholds habsent hother))
  · subst hsame
    cases e with
    | capacity | tombstoneCapacity =>
      exact (sendRejected_sends _ _ _ _).answers.keeps.after (Move.retire _)
    | conflictingMessage | missingMessage | conflictingResponse => exact .refl

theorem flushPendingOpen_keeps (h : s.Sound) (r : Readings) : Keeps (flushPendingOpen r) s := by
  unfold Keeps flushPendingOpen
  rw [wp_bind, wp_modify, wp_bind, wp_get]
  -- The head of the queue takes the place of the request tried last.
  generalize hshift : (if s.pendingOpen.isNone ∧ s.around.pendingCriticalControls = [] then
    { s with pendingOpen := s.pendingOpenQueue.head?, pendingOpenQueue := s.pendingOpenQueue.tail }
    else s) = t
  have hmoves : Moves s t := by
    subst hshift
    split
    · refine .single (.requests _ _ fun p hp => .inl ?_)
      refine mem_append_right _ ?_
      cases hqueue : s.pendingOpenQueue with
      | nil =>
        rw [hqueue] at hp
        cases hp
      | cons head tail =>
        rw [hqueue] at hp
        exact hp
    · exact .refl
  cases hhead : t.pendingOpen with
  | none => exact hmoves
  | some pending =>
    have hholds : t.Holds pending.request := by
      refine (hmoves.sound h).backed pending ?_
      unfold deferred
      rw [hhead]
      exact mem_cons_self ..
    have hdropped : Moves s { t with pendingOpen := none } :=
      hmoves.tail (.requests none t.pendingOpenQueue fun p hp => .inl
        (mem_append_right _ hp))
    exact (admitOrDefer_keeps (s := { t with pendingOpen := none }) hholds r).after hdropped

end

/-! ## Sessions -/

theorem Event.moves (event : Event) {s : M2Actor} (h : s.Sound) : Moves s (event.next s) := by
  refine wp_stateOf ?_
  cases event with
  | request message r => exact handleOpen_keeps message r
  | flush r => exact flushPendingOpen_keeps h r
  | forget message now => exact handleStreamForget_keeps message now
  | barrier key now => exact handleBarrierComplete_keeps key now
  | ready now => exact completePendingStreamForgetsMatching_keeps none now
  | retry now => exact retryPendingForgetBarriers_keeps now
  | cancel message => exact handleCancel_keeps message
  | elsewhere around progress =>
    refine .single (.elsewhere around s.pendingForgets s.retiredStreams fun id => ?_)
    rw [ExtTreeMap.getElem?_map, map_eq_none_iff]

theorem run_sound (config : RuntimeConfig) (session : SessionInfo) (around : Surroundings)
    (events : List Event) : ((new config session around).run events).Sound :=
  Trace.run_invariant (fun event _ h => (event.moves h).sound h)
    ⟨nodup_nil, fun _ h => (nomatch h), fun _ h => (nomatch h)⟩ events

section

variable {s : M2Actor}

theorem handleOpen_past_horizon {request : Open} (h : s.openIsPastRetryHorizon request)
    (r : Readings) : OnlySends (handleOpen request r) s := by
  unfold OnlySends handleOpen
  simp only [wp_bind, wp_get, wp_check, wp_ite]
  exact ⟨fun _ _ => .refl s, fun _ _ => ⟨fun _ => sendRejected_sends _ _ _ _, fun hnot =>
    absurd h hnot⟩⟩

theorem handleOpen_retry {request : Open} {entry : OpenJournalEntry}
    (hentry : s.openJournal.entries[request.messageId]? = some entry)
    (hcanonical : encodeControlMessage (.request request) = .ok entry.canonical) (r : Readings) :
    OnlySends (handleOpen request r) s := by
  unfold OnlySends handleOpen
  simp only [wp_bind, wp_get, wp_check, wp_ite]
  refine ⟨fun _ _ => .refl s, fun _ _ => ⟨fun _ => sendRejected_sends _ _ _ _, fun _ =>
    ⟨fun _ _ => .refl s, fun canonical hencode => ?_⟩⟩⟩
  cases hcanonical.symm.trans hencode
  unfold OpenJournal.observe
  refine wp_onJournal ?_
  rw [wp_bind, wp_get, hentry]
  simp only [wp_bind, wp_failIf, wp_pure]
  refine ⟨fun hother => absurd rfl hother, fun _ => ?_⟩
  cases entry.state with
  | pending => exact .refl s
  | completed responses deadlines => exact replayOpenResponses_sends _ _ _
  | tombstone => exact sendRejected_sends _ _ _ _

end

/-- What dispatch at most once means for a session at a point in time. -/
structure AtMostOnce (s : M2Actor) : Prop where
  once : s.dispatched.Nodup
  /-- The next event opens a stream only under an identifier above the watermark that is
  not in the table. -/
  fresh : ∀ (event : Event) (id : UInt64), id ∈ (event.next s).dispatched → id ∉ s.dispatched →
    s.forgottenStreamThrough < id ∧ s.streams[id]? = none
  /-- A request at or below the watermark with nothing retained for its stream is neither
  journaled nor deferred nor admitted. -/
  forgotten : ∀ (request : Open) (r : Readings), request.streamId ≤ s.forgottenStreamThrough →
    s.streams[request.streamId]? = none →
    (∀ (messageId : String) (entry : OpenJournalEntry),
      s.openJournal.entries[messageId]? = some entry → entry.streamId ≠ request.streamId) →
    s.Sends ((Event.request request r).next s)
  /-- A retry of a request whose entry is retained is neither journaled nor deferred nor
  admitted. -/
  retry : ∀ (request : Open) (r : Readings) (entry : OpenJournalEntry),
    s.openJournal.entries[request.messageId]? = some entry →
    encodeControlMessage (.request request) = .ok entry.canonical →
    s.Sends ((Event.request request r).next s)
  backed : ∀ p ∈ s.deferred, s.Holds p.request

/-- In every session, after any events, a stream identifier has been dispatched at most
once. -/
theorem dispatched_at_most_once (config : RuntimeConfig) (session : SessionInfo)
    (around : Surroundings) (events : List Event) :
    ((new config session around).run events).AtMostOnce := by
  have hsound := run_sound config session around events
  exact
    { once := hsound.once
      fresh := fun event id => (event.moves hsound).fences.fresh id
      forgotten := fun request r hbelow habsent hnone => wp_stateOf (handleOpen_past_horizon
        (past_horizon_of_nothing_retained hbelow habsent hnone) r)
      retry := fun request r entry hentry hcanonical =>
        wp_stateOf (handleOpen_retry hentry hcanonical r)
      backed := hsound.backed }

end M2Actor

end AgentUplink
