/-
No tag is pinned.

The flush sets are well founded: a flush enters the set of a tag that is outstanding
already, so it was admitted after it. Once every request has its answer, each tag that is
left is held by one admitted later, and there is no last one.
-/
import AgentUplink.NineP.Agreement

namespace AgentUplink.NineP.Session

open Std Ledger List Option ExtTreeMap Function

/-! ## Flush sets are well founded -/

def Holds (s : Session) (f v : UInt16) : Prop :=
  ∃ target, s.tags[v]? = some target ∧ f ∈ target.flushedBy

/-- The outstanding tags have ranks below the bound, and a flush has a higher rank than the tag
it holds. -/
structure Ranked (s : Session) (rank : UInt16 → Nat) (bound : Nat) : Prop where
  lt_bound : ∀ v : UInt16, s.tags[v]? ≠ none → rank v < bound
  holds : ∀ f v, Holds s f v → rank v < rank f

variable {s : Session} {rank : UInt16 → Nat} {bound : Nat} {call : Call} {seen : History}
  {t : UInt16}

theorem Ranked.shrink {t : Session} (h : Ranked s rank bound)
    (hsub : ∀ (v : UInt16) after, t.tags[v]? = some after →
      ∃ before, s.tags[v]? = some before ∧ after.flushedBy ⊆ before.flushedBy) :
    Ranked t rank bound := by
  constructor
  · intro v hv
    obtain ⟨after, hafter⟩ := ne_none_iff_exists'.1 hv
    obtain ⟨before, hbefore, _⟩ := hsub v after hafter
    exact h.lt_bound v (by simp [hbefore])
  · rintro f v ⟨after, hafter, hf⟩
    obtain ⟨before, hbefore, hsubset⟩ := hsub v after hafter
    exact h.holds f v ⟨before, hbefore, hsubset hf⟩

/-- The tag of an admitted request gets the highest rank. -/
theorem Enters.ranked {t : Session} {frame : Frame} {effect : Effect} (h : Enters s frame effect t)
    (hflushes : Flushes s.tags)
    (hrank : Ranked s rank bound) : ∃ rank bound, Ranked t rank bound := by
  have hcases {x : UInt16} {after : TagState} (hx : t.tags[x]? = some after) := h.tag_cases hx
  cases h with
  | handshake => exact ⟨rank, bound, hrank⟩
  | tag _ hfree =>
    have hne {v : UInt16} {before : TagState} (hv : s.tags[v]? = some before) : v ≠ frame.tag := by
      rintro rfl
      cases hfree.symm.trans hv
    refine ⟨update rank frame.tag bound, bound + 1, fun v hv => ?_, ?_⟩
    · obtain ⟨after, hafter⟩ := ne_none_iff_exists'.1 hv
      rcases hcases hafter with ⟨before, hbefore, _⟩ | ⟨heq, _⟩
      · rw [update_of_ne (hne hbefore)]
        exact Nat.lt_succ_of_lt (hrank.lt_bound v (by simp [hbefore]))
      · rw [heq, update_self]
        exact Nat.lt_succ_self bound
    · rintro f v ⟨after, hafter, hf⟩
      rcases hcases hafter with ⟨before, hbefore, _, hmem⟩ | ⟨_, _, rfl⟩
      · rw [update_of_ne (hne hbefore)]
        rcases (hmem f).1 hf with hold | ⟨_, rfl, _⟩
        · obtain ⟨flush, hflush, _⟩ := isLiveFlushOf_iff.1 (hflushes v before f hbefore hold)
          rw [update_of_ne (hne hflush)]
          exact hrank.holds f v ⟨before, hbefore, hold⟩
        · rw [update_self]
          exact hrank.lt_bound v (by simp [hbefore])
      · simp at hf

theorem Turn.ranked {t : Session} (h : Turn s call t) (hs : Sound s)
    (hrank : ∃ rank bound, Ranked s rank bound) : ∃ rank bound, Ranked t rank bound := by
  obtain ⟨rank, bound, hrank⟩ := hrank
  cases h with
  | same => exact ⟨rank, bound, hrank⟩
  | admitted _ haccepts =>
    obtain ⟨_, _, _, hreserves, henters⟩ := haccepts
    have htags := hreserves.tags_eq
    have hbefore := hrank.shrink fun v after hv => ⟨after, htags ▸ hv, fun _ hf => hf⟩
    obtain ⟨rank', bound', hafter⟩ := henters.ranked (htags ▸ hs.tags.flushes) hbefore
    exact ⟨rank', bound', hafter.lt_bound, hafter.holds⟩
  | versioned => exact ⟨rank, bound, hrank.lt_bound, hrank.holds⟩
  | retired hsettles happlied =>
    refine ⟨rank, bound, hrank.shrink fun v after hv => ?_⟩
    obtain ⟨before, hbefore, hf⟩ := settle_follows hs.tags hsettles.get happlied hv
    exact ⟨before, hbefore, hf.flushedBy⟩
  | closed => exact ⟨rank, bound, hrank.shrink fun v after hv => by simp [close] at hv⟩

theorem reach_ranked {grant : Fs.CapabilitySet} {features : Fs.FeatureSet} {limits : Fs.Limits}
    {s₀ : Session} (hnew : Session.new grant features limits = some s₀)
    (hrun : Trace.Reach Call.next s₀ seen s) : ∃ rank bound, Ranked s rank bound := by
  refine hrun.invariant (fun _ s => ∃ rank bound, Ranked s rank bound) ?_
    fun seen s call t hreach ih hnext => ?_
  · refine ⟨fun _ => 0, 1, fun _ _ => one_pos, ?_⟩
    rintro f v ⟨target, htarget, _⟩
    unfold Session.new at hnew
    split at hnew
    · cases hnew
    · cases hnew
      simp at htarget
  · exact (turn_of_next hnext).ranked (reached hnew hreach).sound ih

theorem Ranked.acyclic (h : Ranked s rank bound) (v : UInt16) :
    ¬ Relation.TransGen (Holds s) v v := by
  have hlt {w : UInt16} (hpath : Relation.TransGen (Holds s) v w) : rank w < rank v := by
    induction hpath with
    | single hw => exact h.holds v _ hw
    | tail _ hw ih => exact Nat.lt_trans (h.holds _ _ hw) ih
  intro hcycle
  exact lt_irrefl _ (hlt hcycle)

/-- With every request answered nothing is outstanding: each tag would be held by one of a
higher rank. -/
theorem Ranked.empty (h : Ranked s rank bound) (hs : Sound s)
    (hall : ∀ (t : UInt16) state, s.tags[t]? = some state → state.answered = true) (t : UInt16) :
    s.tags[t]? = none := by
  have hclimb : ∀ k (v : UInt16), bound - rank v ≤ k → s.tags[v]? = none := by
    intro k
    induction k with
    | zero =>
      intro v hv
      by_contra hne
      have := h.lt_bound v hne
      omega
    | succ k ih =>
      intro v hv
      by_contra hne
      obtain ⟨state, hstate⟩ := ne_none_iff_exists'.1 hne
      obtain ⟨⟨f, hf⟩, _⟩ := hs.tags.held v state hstate (hall v state hstate)
      have hlt := h.holds f v ⟨state, hstate, hf⟩
      obtain ⟨flush, hflush, _⟩ := isLiveFlushOf_iff.1 (hs.tags.flushes v state f hstate hf)
      rw [ih f (by omega)] at hflush
      cases hflush
  exact hclimb (bound - rank t) t (Nat.le_refl _)

/-! ## Cancelling terminates -/

/-- The runs of `cancel_flush` as the source recurses. -/
inductive Cancels : Tags → UInt16 → UInt16 → Tags → Prop
  | gone {tags : Tags} {victim flushTag : UInt16} : tags[victim]? = none →
      Cancels tags victim flushTag tags
  | other {tags : Tags} {victim flushTag : UInt16} {target : TagState} :
      tags[victim]? = some target → flushTag ∉ target.flushedBy → Cancels tags victim flushTag tags
  | kept {tags : Tags} {victim flushTag : UInt16} {target : TagState} :
      tags[victim]? = some target → flushTag ∈ target.flushedBy →
      (liveFlushesOf tags victim flushTag).Nonempty ∨ target.answered = false →
      Cancels tags victim flushTag
        (tags.insert victim { target with flushedBy := liveFlushesOf tags victim flushTag })
  | last {tags : Tags} {victim flushTag : UInt16} {target : TagState} :
      tags[victim]? = some target → flushTag ∈ target.flushedBy →
      ¬ ((liveFlushesOf tags victim flushTag).Nonempty ∨ target.answered = false) →
      target.flushing = none → Cancels tags victim flushTag (tags.erase victim)
  | further {tags result : Tags} {victim flushTag next : UInt16} {target : TagState} :
      tags[victim]? = some target → flushTag ∈ target.flushedBy →
      ¬ ((liveFlushesOf tags victim flushTag).Nonempty ∨ target.answered = false) →
      target.flushing = some next → Cancels (tags.erase victim) next victim result →
      Cancels tags victim flushTag result

/-- Every call of `cancel_flush` returns, on any table: each one it makes has one tag less. -/
theorem cancels_cancelFlush (tags : Tags) (victim flushTag : UInt16) :
    Cancels tags victim flushTag (cancelFlush tags victim flushTag) := by
  induction hsize : tags.size generalizing tags victim flushTag with
  | zero =>
    have hgone : tags[victim]? = none := by
      by_contra hne
      obtain ⟨target, htarget⟩ := ne_none_iff_exists'.1 hne
      have := size_erase_of_some htarget
      omega
    rw [cancelFlush_eq, hgone]
    exact .gone hgone
  | succ n ih =>
    rw [cancelFlush_eq]
    cases htarget : tags[victim]? with
    | none => exact .gone htarget
    | some target =>
      dsimp only
      split
      · next hother => exact .other htarget hother
      next hmem =>
      rw [not_not] at hmem
      split
      · next hkept => exact .kept htarget hmem hkept
      next hleaves =>
      cases hflushing : target.flushing with
      | none => exact .last htarget hmem hleaves hflushing
      | some next =>
        have hsmaller := size_erase_of_some htarget
        exact .further htarget hmem hleaves hflushing (ih _ _ _ (by omega))

/-! ## Answers -/

def Unanswered (s : Session) (t : UInt16) : Prop :=
  ∃ state, s.tags[t]? = some state ∧ state.answered = false

/-- The call answers the request on the tag: it fails it, or is a reply of its type. -/
def Answers (s : Session) (t : UInt16) (call : Call) : Prop :=
  call = .fail t ∨ ∃ frame state, call = .complete frame ∧ frame.tag = t ∧
    s.tags[t]? = some state ∧ frame.messageType = replyFor state.messageType

/-- The calls answer each outstanding request, once. -/
structure Drains (s : Session) (calls : List Call) : Prop where
  all : ∀ t, Unanswered s t → ∃ call ∈ calls, Answers s t call
  only : ∀ call ∈ calls, ∃ t, Unanswered s t ∧ Answers s t call
  once : (calls.map Call.tag).Nodup

theorem Answers.tag (h : Answers s t call) : call.tag = some t := by
  rcases h with rfl | ⟨frame, state, rfl, rfl, _⟩ <;> rfl

theorem applyEffect_isSome (effect : Effect) (message : Message)
    (hstamps : s.nextGeneration + 1 < Machine.wordBound) :
    (s.applyEffect effect message).isSome = true := by
  have hfresh {t : Session} (ht : t.nextGeneration = s.nextGeneration) :
      t.freshGeneration = some (s.nextGeneration + 1,
        { t with nextGeneration := s.nextGeneration + 1 }) := by
    unfold freshGeneration
    rw [ht, Machine.checkedAdd_of_lt hstamps]
    rfl
  have hbind {t : Session} (ht : t.nextGeneration = s.nextGeneration) (fid : UInt32)
      (path : Fs.VirtualPath) (qid : Qid) : (t.bindFid fid path qid).isSome = true := by
    unfold bindFid
    rw [hfresh ht]
    rfl
  unfold applyEffect
  split
  · split
    · rfl
    · split
      · rfl
      · rw [isSome_map]
        apply hbind
        rfl
  · split <;> rfl
  · split <;> rfl
  · split <;> rfl
  · unfold applyWalk
    split
    · rfl
    split
    · rfl
    split
    · rfl
    split
    · rfl
    split
    · split
      · rfl
      · rw [isSome_map]
        apply hbind
        rfl
    · split
      · rfl
      · split
        · rw [isSome_map]
          apply hbind
          rfl
        · rfl
  · split
    · rfl
    · split
      · rfl
      · dsimp only
        split <;> rfl
  · split
    · rfl
    · rw [hfresh rfl]
      rfl
  · rfl
  · rfl
  · rfl

theorem replyFor_of_request {type : MessageType} (h : type.isRequest = true)
    (hversion : type ≠ .tversion) :
    (replyFor type).isRequest = false ∧ replyFor type ≠ .rversion := by
  cases type <;> simp_all [replyFor, MessageType.isRequest, MessageType.code]

theorem complete_isSome (frame : Frame) (hstamps : s.nextGeneration + 1 < Machine.wordBound) :
    (s.complete frame).isSome = true := by
  unfold complete
  split
  · rfl
  split
  · rfl
  split
  · unfold completeVersion
    split
    · split
      · rfl
      split
      · rfl
      · split <;> rfl
    · rfl
  split
  · rfl
  split
  · rfl
  split
  · rfl
  · rw [isSome_map]
    exact applyEffect_isSome _ _ hstamps

theorem Turn.nextGeneration_le_succ {t : Session} (h : Turn s call t) :
    t.nextGeneration ≤ s.nextGeneration + 1 := by
  cases h with
  | same | versioned | closed => exact Nat.le_succ _
  | admitted _ haccepts =>
    rw [haccepts.eq]
    exact Nat.le_succ _
  | retired _ happlied =>
    rw [settle_tablesOnly]
    cases happlied <;> simp

/-- What a run leaves for the answers to it to be taken. -/
structure Answerable (seen : History) (s : Session) : Prop where
  sound : Sound s
  recorded : Recorded seen s
  owned : Owned s
  ranked : ∃ rank bound, Ranked s rank bound
  isOpen : s.phase ≠ .closed
  frames : ∀ (t : UInt16) frame r, lastAdmitted t seen = some (frame, r) →
    checkTag frame.messageType frame.tag = .ok ()

section

variable (h : Answerable seen s)
include h

theorem Answerable.reply {state : TagState} (ht : s.tags[t]? = some state) :
    (replyFor state.messageType).isRequest = false ∧ replyFor state.messageType ≠ .rversion := by
  obtain ⟨frame, r, hlast, hrecords⟩ := h.recorded.records t state ht
  rw [hrecords.messageType]
  refine replyFor_of_request hrecords.isRequest fun hversion => ?_
  have htag := (checkTag_eq_ok.1 (h.frames t frame r hlast)).1 (.inl hversion)
  rw [lastAdmitted_tag hlast] at htag
  rw [htag, h.recorded.handshake] at ht
  cases ht

theorem Answerable.settles (hanswers : Answers s t call)
    (hun : Unanswered s t) : ∃ outcome state, Settles s call t outcome state := by
  obtain ⟨state, hstate, hanswered⟩ := hun
  rcases hanswers with rfl | ⟨frame, state', rfl, rfl, hstate', htype⟩
  · exact ⟨.cancelled, state, .failure h.isOpen hstate hanswered⟩
  · rw [hstate] at hstate'
    cases hstate'
    obtain ⟨hreply, hversion⟩ := h.reply hstate
    rw [← htype] at hreply hversion
    exact ⟨.answered, state, .reply h.isOpen hreply hversion hstate hanswered htype.symm⟩

theorem Answerable.turn {u : Session} (hturn : Turn s call u) (htag : call.tag = some t) :
    Answerable (seen ++ [(call, s)]) u where
  sound := hturn.sound h.sound
  recorded := hturn.recorded h.sound h.recorded
  owned := by
    refine hturn.owned h.sound (fun frame hcall => ?_) h.owned
    rw [hcall] at htag
    cases htag
  ranked := hturn.ranked h.sound h.ranked
  isOpen := by
    have hmove := hturn.phaseMove h.sound
    have hopen := h.isOpen
    generalize s.phase = p, u.phase = q at hmove hopen
    cases hmove with
    | stay => exact hopen
    | version | attach => exact nofun
    | close hclose =>
      rw [hclose] at htag
      cases htag
  frames v frame r hlast := by
    rw [lastAdmitted_of_none] at hlast
    · exact h.frames v frame r hlast
    · cases call <;> first | rfl | cases htag

/-- One answer: the request it is for is over, and no request is new. -/
theorem Answerable.step (htag : call.tag = some t) (hanswers : Unanswered s t → Answers s t call)
    (hstamps : s.nextGeneration + 1 < Machine.wordBound) :
    ∃ u, call.next s = some u ∧ Answerable (seen ++ [(call, s)]) u ∧
      u.nextGeneration ≤ s.nextGeneration + 1 ∧
      ∀ (v : UInt16) after, u.tags[v]? = some after → after.answered = false →
        v ≠ t ∧ ∃ before, s.tags[v]? = some before ∧ before.answered = false ∧
          after.messageType = before.messageType := by
  obtain ⟨u, hnext⟩ : ∃ u, call.next s = some u := by
    rw [← isSome_iff_exists]
    cases call with
    | complete frame =>
      rw [Call.next, Call.exec, isSome_map, isSome_map]
      exact complete_isSome frame hstamps
    | _ => rfl
  have hturn := turn_of_next hnext
  refine ⟨u, hnext, h.turn hturn htag, hturn.nextGeneration_le_succ, fun v after hv hanswered => ?_⟩
  -- A call that ends no request was for one that is over.
  have hsame (hnone : ∀ tag outcome state, ¬ Settles s call tag outcome state)
      (hv : s.tags[v]? = some after) : v ≠ t ∧ ∃ before, s.tags[v]? = some before ∧
        before.answered = false ∧ after.messageType = before.messageType := by
    refine ⟨?_, after, hv, hanswered, rfl⟩
    rintro rfl
    have hun : Unanswered s v := ⟨after, hv, hanswered⟩
    obtain ⟨outcome, state, hsettles⟩ := h.settles (hanswers hun) hun
    exact hnone _ _ _ hsettles
  cases hturn with
  | same _ hnone => exact hsame hnone hv
  | admitted | closed => cases htag
  | versioned _ htype =>
    refine hsame (fun tag outcome state hsettles => ?_) hv
    cases hsettles with
    | reply _ _ hne => exact hne htype
  | @retired _ tag outcome state w hsettles happlied =>
    have heq : tag = t := by
      cases hsettles <;> exact Option.some.inj htag
    obtain ⟨before, hbefore, hf⟩ := settle_follows h.sound.tags hsettles.get happlied hv
    rcases hf.effect with ⟨hne, _, hsame'⟩ | ⟨_, _, htrue⟩
    · exact ⟨heq ▸ hne, before, hbefore, hsame' ▸ hanswered, hf.messageType⟩
    · cases htrue.symm.trans hanswered

theorem Answerable.drain (calls : List Call)
    (htags : ∀ call ∈ calls, ∃ t, call.tag = some t ∧ (Unanswered s t → Answers s t call))
    (hall : ∀ t, Unanswered s t → ∃ call ∈ calls, call.tag = some t)
    (hstamps : s.nextGeneration + calls.length < Machine.wordBound) :
    ∃ later u seen', Trace.replay Call.next s calls = some (later, u) ∧ Answerable seen' u ∧
      ∀ t, ¬ Unanswered u t := by
  induction calls generalizing seen s with
  | nil =>
    refine ⟨[], s, seen, rfl, h, fun t hun => ?_⟩
    obtain ⟨call, hmem, _⟩ := hall t hun
    cases hmem
  | cons call calls ih =>
    rw [length_cons] at hstamps
    obtain ⟨t, htag, hanswers⟩ := htags call mem_cons_self
    obtain ⟨u, hnext, hu, hgeneration, hafter⟩ := h.step htag hanswers (by omega)
    have hun {v : UInt16} (hv : Unanswered u v) : Unanswered s v ∧ v ≠ t := by
      obtain ⟨after, hget, hanswered⟩ := hv
      obtain ⟨hne, before, hbefore, hunanswered, _⟩ := hafter v after hget hanswered
      exact ⟨⟨before, hbefore, hunanswered⟩, hne⟩
    obtain ⟨later, w, seen', hreplay, hw, hnone⟩ := ih hu
      (fun call' hmem => by
        obtain ⟨v, hv, hanswers'⟩ := htags call' (mem_cons_of_mem _ hmem)
        refine ⟨v, hv, fun hunv => ?_⟩
        rcases hanswers' (hun hunv).1 with rfl | ⟨frame, state, rfl, hframe, hstate, htype⟩
        · exact .inl rfl
        · obtain ⟨after, hget, hanswered⟩ := hunv
          obtain ⟨_, before, hbefore, _, hsame⟩ := hafter v after hget hanswered
          cases hstate.symm.trans hbefore
          exact .inr ⟨frame, after, rfl, hframe, hget, hsame ▸ htype⟩)
      (fun v hv => by
        obtain ⟨hunv, hne⟩ := hun hv
        obtain ⟨call', hmem, hv'⟩ := hall v hunv
        rcases mem_cons.1 hmem with rfl | hmem
        · rw [htag] at hv'
          exact absurd (Option.some.inj hv').symm hne
        · exact ⟨call', hmem, hv'⟩)
      (by omega)
    refine ⟨(call, s) :: later, w, seen', ?_, hw, hnone⟩
    rw [Trace.replay, hnext, bind_some, hreplay]
    rfl

end

theorem Answerable.empty (h : Answerable seen s) (hnone : ∀ t, ¬ Unanswered s t) :
    s.tags = ∅ ∧ s.reservedFids = ∅ := by
  obtain ⟨rank, bound, hrank⟩ := h.ranked
  have hgone (t : UInt16) : s.tags[t]? = none := by
    refine hrank.empty h.sound (fun v state hv => ?_) t
    by_contra hanswered
    exact hnone v ⟨state, hv, by simpa using hanswered⟩
  refine ⟨ext_getElem? fun t => ?_, ext_getElem? fun n => ?_⟩
  · simpa using hgone t
  · by_contra hn
    obtain ⟨t, state, hstate, _⟩ := h.owned n (by simpa using hn)
    rw [hgone t] at hstate
    cases hstate

/-- From every open session that frames of the codec have led to, answers to all outstanding
requests, in any order, leave no tag and no reservation. The flush sets have no cycle and
every call of `cancel_flush` returns. -/
theorem session_drains (grant : Fs.CapabilitySet) (features : Fs.FeatureSet) (limits : Fs.Limits)
    (s₀ s : Session) (seen : History) (hnew : Session.new grant features limits = some s₀)
    (hrun : Trace.Reach Call.next s₀ seen s) (hopen : s.phase ≠ .closed)
    (hframes : WellTagged seen) :
    (∀ calls, Drains s calls → s.nextGeneration + calls.length < Machine.wordBound →
      ∃ later t, Trace.replay Call.next s calls = some (later, t) ∧ t.tags = ∅ ∧
        t.reservedFids = ∅) ∧
    (∀ v, ¬ Relation.TransGen (Holds s) v v) ∧
    ∀ tags victim flushTag, ∃ result, Cancels tags victim flushTag result := by
  have hreached := reached hnew hrun
  have hranked := reach_ranked hnew hrun
  refine ⟨fun calls hdrains hstamps => ?_, ?_, fun tags victim flushTag =>
    ⟨_, cancels_cancelFlush tags victim flushTag⟩⟩
  · have hanswerable : Answerable seen s :=
      { sound := hreached.sound, recorded := hreached.recorded, owned := hreached.owned hframes
        ranked := hranked, isOpen := hopen
        frames := fun t frame r hlast => by
          obtain ⟨hmem, _⟩ := mem_of_lastAdmitted hlast
          exact hframes frame r hmem }
    obtain ⟨later, u, _, hreplay, hu, hnone⟩ := hanswerable.drain calls
      (fun call hmem => by
        obtain ⟨t, _, hanswers⟩ := hdrains.only call hmem
        exact ⟨t, hanswers.tag, fun _ => hanswers⟩)
      (fun t hun => by
        obtain ⟨call, hmem, hanswers⟩ := hdrains.all t hun
        exact ⟨call, hmem, hanswers.tag⟩)
      hstamps
    obtain ⟨htags, hreserved⟩ := hu.empty hnone
    exact ⟨later, u, hreplay, htags, hreserved⟩
  · obtain ⟨rank, bound, hrank⟩ := hranked
    exact hrank.acyclic

def mixedAnswers : List Call :=
  [.complete ⟨2, .rwalk [⟨.file, 0, 2⟩]⟩, .fail 4, .complete ⟨3, .rflush⟩]

theorem session_drains_flushed_walk : ∃ seen s,
    Trace.Reach Call.next granted seen s ∧ s.outstandingTags = 3 ∧
      ∃ later t, Trace.replay Call.next s mixedAnswers = some (later, t) ∧ t.tags = ∅ ∧
        t.reservedFids = ∅ := by
  have hrun : (Trace.replay Call.next granted flushedFlush).map (fun run =>
      (run.2.tags.toList.map fun entry => (entry.1, entry.2.messageType, entry.2.answered),
        decide (WellTagged run.1),
        run.2.nextGeneration, run.2.phase, run.2.outstandingTags)) =
      some ([(2, .twalk, false), (3, .tflush, false), (4, .tflush, false)], true, 1, .attached,
        3) := by decide +kernel
  obtain ⟨⟨seen, s⟩, hreplay, hfacts⟩ := map_eq_some_iff.1 hrun
  simp only [Prod.mk.injEq, decide_eq_true_eq] at hfacts
  obtain ⟨htags, hframes, hgeneration, hphase, hsize⟩ := hfacts
  have hreach := Trace.reach_of_replay hreplay
  have hmem (t : UInt16) (type : MessageType) : (t, type, false) ∈
      s.tags.toList.map (fun entry => (entry.1, entry.2.messageType, entry.2.answered)) ↔
        ∃ state, s.tags[t]? = some state ∧ state.messageType = type ∧ state.answered = false := by
    simp [mem_toList_iff_getElem?_eq_some]
  rw [htags] at hmem
  have hget {t : UInt16} {type : MessageType} := (hmem t type).1
  obtain ⟨walk, hwalk, hwalkType, hwalkAnswered⟩ := @hget 2 .twalk (by simp)
  obtain ⟨flush, hflush, hflushType, hflushAnswered⟩ := @hget 3 .tflush (by simp)
  obtain ⟨second, hsecond, _, hsecondAnswered⟩ := @hget 4 .tflush (by simp)
  have hanswers : Answers s 2 (.complete ⟨2, .rwalk [⟨.file, 0, 2⟩]⟩) ∧ Answers s 4 (.fail 4) ∧
      Answers s 3 (.complete ⟨3, .rflush⟩) :=
    ⟨.inr ⟨_, walk, rfl, rfl, hwalk, by rw [hwalkType]; rfl⟩, .inl rfl,
      .inr ⟨_, flush, rfl, rfl, hflush, by rw [hflushType]; rfl⟩⟩
  have hdrains : Drains s mixedAnswers := by
    refine ⟨?_, ?_, by decide⟩
    · rintro t ⟨state, hstate, hanswered⟩
      have ht := (hmem t state.messageType).2 ⟨state, hstate, rfl, hanswered⟩
      simp only [mem_cons, Prod.mk.injEq, not_mem_nil, or_false] at ht
      rcases ht with ⟨rfl, _⟩ | ⟨rfl, _⟩ | ⟨rfl, _⟩
      · exact ⟨_, by simp [mixedAnswers], hanswers.1⟩
      · exact ⟨_, by simp [mixedAnswers], hanswers.2.2⟩
      · exact ⟨_, by simp [mixedAnswers], hanswers.2.1⟩
    · intro call hcall
      simp only [mixedAnswers, mem_cons, not_mem_nil, or_false] at hcall
      rcases hcall with rfl | rfl | rfl
      · exact ⟨2, ⟨walk, hwalk, hwalkAnswered⟩, hanswers.1⟩
      · exact ⟨4, ⟨second, hsecond, hsecondAnswered⟩, hanswers.2.1⟩
      · exact ⟨3, ⟨flush, hflush, hflushAnswered⟩, hanswers.2.2⟩
  refine ⟨seen, s, hreach, hsize, ?_⟩
  refine (session_drains _ _ _ _ _ _ new_granted hreach ?_ hframes).1 mixedAnswers hdrains ?_
  · rw [hphase]
    exact nofun
  · rw [hgeneration]
    decide

/-- A flush may name its own tag, and is then a live flush of itself. And what a request on
the handshake's tag reserves stays reserved with nothing left to answer. -/
theorem self_flush_is_cyclic :
    (∃ seen s, Trace.Reach Call.next granted seen s ∧ s.phase ≠ .closed ∧ WellTagged seen ∧
      Relation.TransGen (fun f v => isLiveFlushOf s.tags f v = true) 1 1) ∧
    ∃ seen s, Trace.Reach Call.next granted seen s ∧ s.phase ≠ .closed ∧ s.tags = ∅ ∧
      0 ∈ s.reservedFids := by
  have hrun : (Trace.replay Call.next granted (handshake ++ [.request ⟨1, .tflush 1⟩])).map
      (fun run => (run.2.phase, isLiveFlushOf run.2.tags 1 1, decide (WellTagged run.1))) =
      some (.versioned, true, true) := by decide +kernel
  obtain ⟨⟨seen, s⟩, hreplay, hfacts⟩ := map_eq_some_iff.1 hrun
  simp only [Prod.mk.injEq, decide_eq_true_eq] at hfacts
  obtain ⟨hphase, hlive, hframes⟩ := hfacts
  exact ⟨⟨seen, s, Trace.reach_of_replay hreplay, by simp [hphase], hframes, .single hlive⟩,
    notag_reserves⟩

end AgentUplink.NineP.Session
