/-
What the tables of a session say in every state a run can reach.

Each part is kept by every call: bindings are stamped once and for all, the phase moves
forward, an attach succeeds once, and a reply or a failure touches the binding its own
request was admitted against and no other.
-/
import AgentUplink.NineP.History

namespace AgentUplink.NineP

open Std Ledger List Option ExtTreeMap

def Call.tag : Call → Option UInt16
  | .complete frame => some frame.tag
  | .fail tag => some tag
  | _ => none

def Call.succeeds (s : Session) (call : Call) : Bool := (call.exec s).any Prod.fst

def attaches : Call × Session → Bool
  | (.complete frame, s) => frame.messageType == .rattach && (Call.complete frame).succeeds s
  | _ => false

namespace Session

/-! ## Bindings -/

variable {s t : Session} {effect : Effect} {call : Call} {n : UInt32} {seen : History}
  {limits : Fs.Limits}

/-- What becomes of one number's binding: it stays, or it is the one the effect is for. -/
theorem Applied.fids_cases (h : Applied effect s t) (n : UInt32) :
    t.fids[n]? = s.fids[n]? ∨
      (effect.reserves = some n ∧ s.reservedFids[n]? ≠ none ∨
        ∃ b, s.fids[n]? = some b ∧ effect.against = some (n, b.generation)) ∧
      ∀ b', t.fids[n]? = some b' →
        b'.generation = s.nextGeneration + 1 ∨
          s.fids[n]?.map FidState.generation = some b'.generation := by
  have hinsert {m : UInt32} {b : FidState} (hm : m ≠ n) : (s.fids.insert m b)[n]? = s.fids[n]? := by
    rw [get_insert, if_neg hm]
  cases h with
  | same | stamped | freed => exact .inl rfl
  | @attached m _ b _ hreserves hpath _ hgeneration
  | @bound m _ b hreserves hpath _ hgeneration =>
    by_cases hm : m = n
    · subst hm
      refine .inr ⟨.inl ⟨hreserves, by simp [hpath]⟩, fun b' hb' => .inl ?_⟩
      simp only [ExtTreeMap.getElem?_insert_self, Option.some.injEq] at hb'
      rw [← hb', hgeneration]
    · exact .inl (hinsert hm)
  | @rebound m b b' hagainst hb _ hgeneration =>
    by_cases hm : m = n
    · subst hm
      refine .inr ⟨.inr ⟨b, hb, hagainst⟩, fun c hc => .inl ?_⟩
      simp only [ExtTreeMap.getElem?_insert_self, Option.some.injEq] at hc
      rw [← hc, hgeneration]
    · exact .inl (hinsert hm)
  | @opened m b b' hagainst hb _ hgeneration =>
    by_cases hm : m = n
    · subst hm
      refine .inr ⟨.inr ⟨b, hb, hagainst⟩, fun c hc => .inr ?_⟩
      simp only [ExtTreeMap.getElem?_insert_self, Option.some.injEq] at hc
      rw [hb, ← hc, hgeneration]
      rfl
    · exact .inl (hinsert hm)
  | @released m b hagainst hb =>
    by_cases hm : m = n
    · subst hm
      refine .inr ⟨.inr ⟨b, hb, hagainst⟩, fun c hc => ?_⟩
      rw [get_erase_self] at hc
      cases hc
    · left
      rw [get_erase, if_neg hm]

theorem Applied.nextGeneration_le (h : Applied effect s t) :
    s.nextGeneration ≤ t.nextGeneration := by
  cases h <;> simp

theorem Reserves.eq (h : Reserves s effect t) : t = { s with reservedFids := t.reservedFids } := by
  cases h <;> rfl

theorem Accepts.eq {frame : Frame} (h : Accepts s frame t) :
    t = { s with
      reservedFids := t.reservedFids, tags := t.tags, pendingMsize := t.pendingMsize } := by
  obtain ⟨_, _, _, hreserves, henters⟩ := h
  rw [henters.eq, hreserves.eq]

theorem Turn.nextGeneration_le (h : Turn s call t) : s.nextGeneration ≤ t.nextGeneration := by
  cases h with
  | same | versioned | closed => exact Nat.le_refl _
  | admitted _ haccepts => rw [haccepts.eq]
  | retired _ happlied =>
    rw [settle_tablesOnly]
    exact happlied.nextGeneration_le

theorem Turn.fresh (h : Turn s call t) {b : FidState} (hb : t.fids[n]? = some b)
    (hnew : s.fids[n]?.map FidState.generation ≠ some b.generation) :
    b.generation = s.nextGeneration + 1 := by
  have hold (heq : t.fids[n]? = s.fids[n]?) : False := by
    rw [← heq, hb] at hnew
    exact hnew rfl
  cases h with
  | same | versioned => exact (hold rfl).elim
  | admitted _ haccepts =>
    refine (hold ?_).elim
    rw [haccepts.eq]
  | retired _ happlied =>
    rw [settle_tablesOnly] at hb hold
    rcases happlied.fids_cases n with heq | ⟨_, hcases⟩
    · exact (hold heq).elim
    · exact (hcases b hb).resolve_right hnew
  | closed => simp [close] at hb

/-- A reply or a failure changes the binding its request was admitted against. -/
theorem Turn.binding {tag : UInt16} (h : Turn s call t) (hs : Sound s) (hr : Recorded seen s)
    (htag : call.tag = some tag) (hne : t.fids[n]? ≠ s.fids[n]?) :
    ∃ frame r, lastAdmitted tag seen = some (frame, r) ∧ frame.message.binds = some n ∧
      s.fids[n]?.map FidState.generation = r.fids[n]?.map FidState.generation := by
  cases h with
  | same | versioned => exact absurd rfl hne
  | admitted | closed => cases htag
  | @retired _ tag' outcome state u hsettles happlied =>
    have heq : tag' = tag := by
      cases hsettles <;> exact Option.some.inj htag
    subst heq
    rw [settle_tablesOnly] at hne
    obtain ⟨frame, r, hlast, hrecords⟩ := hr.records _ state hsettles.get
    have hadmitted := hrecords.admitted hsettles.unanswered
    refine ⟨frame, r, hlast, ?_⟩
    rcases happlied.fids_cases n with heq | ⟨⟨hreserves, hreserved⟩ | ⟨b, hb, hagainst⟩, _⟩
    · exact absurd heq hne
    · -- The number was free at admission and is free still.
      rw [hs.fids.apart n hreserved, hrecords.free n hsettles.unanswered hreserves]
      exact ⟨Message.binds_of_reserves (hadmitted.reserves ▸ hreserves), rfl⟩
    · obtain ⟨hbinds, c, hc, hgeneration⟩ := hadmitted.against hagainst
      rw [hb, hc, map_some, map_some, hgeneration]
      exact ⟨hbinds, rfl⟩

/-! ## Phases -/

inductive PhaseMove (call : Call) : Phase → Phase → Prop
  | stay {phase : Phase} : PhaseMove call phase phase
  | version : PhaseMove call .awaitingVersion .versioned
  | attach : PhaseMove call .versioned .attached
  | close {phase : Phase} : call = .close → PhaseMove call phase .closed

theorem Turn.phaseMove (h : Turn s call t) (hs : Sound s) : PhaseMove call s.phase t.phase := by
  cases h with
  | same => exact .stay
  | admitted _ haccepts =>
    rw [haccepts.eq]
    exact .stay
  | versioned hphase =>
    rw [hphase]
    exact .version
  | @retired _ tag outcome state u hsettles happlied =>
    rcases settle_phase happlied with hphase | ⟨hattach, hphase⟩
    · rw [hphase]
      exact .stay
    · rw [hphase, hs.tags.attach_phase _ state hsettles.get hattach]
      exact .attach
  | closed => exact .close rfl

variable {message : Message} {grant : Fs.CapabilitySet} {features : Fs.FeatureSet}

/-- An `Rattach` that succeeds finds its fid reserved and leaves the session attached. -/
theorem applyEffect_attached (hattach : effect.isAttach = true)
    (hmessage : message.messageType = .rattach) (hn : effect.reserves = some n)
    (hreserved : s.reservedFids[n]? ≠ none) (h : s.applyEffect effect message = some (.ok (), t)) :
    t.phase = .attached := by
  cases effect <;> try cases hattach
  next fid =>
  cases hn
  cases message <;> try cases hmessage
  next qid =>
  obtain ⟨path, hpath⟩ := ne_none_iff_exists'.1 hreserved
  simp only [applyEffect, hpath] at h
  split at h
  · cases h
  · rw [map_eq_some_iff] at h
    obtain ⟨u, _, heq⟩ := h
    cases heq
    rfl

theorem replyFor_eq_rattach {type : MessageType} (h : replyFor type = .rattach)
    (hrequest : type.isRequest = true) : type = .tattach := by
  cases type <;> simp_all [replyFor, MessageType.isRequest, MessageType.code]

theorem attaches_phase (hs : Sound s) (hr : Recorded seen s) (h : call.next s = some t)
    (hattaches : attaches (call, s) = true) : s.phase = .versioned ∧ t.phase = .attached := by
  cases call with
  | complete frame =>
    simp only [attaches, Bool.and_eq_true, beq_iff_eq] at hattaches
    obtain ⟨htype, hok⟩ := hattaches
    simp only [Call.next, Call.exec, Option.map_map, Option.map_eq_some_iff] at h
    obtain ⟨⟨r, u⟩, hcomplete, rfl⟩ := h
    simp only [Call.succeeds, Call.exec, hcomplete, map_some, any_some] at hok
    by_cases hsettles : ∃ state, Settles s (.complete frame) frame.tag .answered state
    · obtain ⟨state, hsettles⟩ := hsettles
      rw [hsettles.complete_eq.2.2, Option.map_eq_some_iff] at hcomplete
      obtain ⟨⟨_, v⟩, happlied, heq⟩ := hcomplete
      cases heq
      cases r with
      | error e => cases hok
      | ok x =>
        obtain ⟨_, _, _, hrecords⟩ := hr.records _ state hsettles.get
        have hattach : state.effect.isAttach = true := by
          rw [hs.tags.attach_type _ state hsettles.get hsettles.unanswered]
          cases hsettles with
          | reply _ _ _ _ _ hmatch =>
            refine replyFor_eq_rattach (hmatch.trans htype) ?_
            rw [hrecords.messageType]
            exact hrecords.isRequest
        obtain ⟨n, hn⟩ : ∃ n, state.effect.reserves = some n := by
          cases heffect : state.effect <;> simp_all [Effect.isAttach, Effect.reserves]
        have hattached : v.phase = .attached :=
          applyEffect_attached hattach htype hn (hs.tags.claims _ state n hsettles.get hn) happlied
        refine ⟨hs.tags.attach_phase _ state hsettles.get hattach, ?_⟩
        rw [settle_tablesOnly v frame.tag state .answered]
        exact hattached
    · rw [not_exists] at hsettles
      rcases complete_of_not_settles hsettles hcomplete with ⟨_, hfalse⟩ | ⟨_, hversion, _⟩
      · cases hfalse.symm.trans hok
      · cases htype.symm.trans hversion
  | _ => cases hattaches

/-! ## Runs -/

/-- What is kept along a run beside `Sound` and `Recorded`. -/
structure Past (limits : Fs.Limits) (seen : History) (s : Session) : Prop where
  limits_eq : s.limits = limits
  stamps : ∀ step ∈ seen, ∀ (n : UInt32) b, step.2.fids[n]? = some b →
    b.generation ≤ s.nextGeneration
  attached : (s.phase = .awaitingVersion ∨ s.phase = .versioned → seen.countP attaches = 0) ∧
    seen.countP attaches ≤ 1

theorem Turn.limits_eq (h : Turn s call t) : t.limits = s.limits := by
  cases h with
  | same | versioned | closed => rfl
  | admitted _ haccepts => rw [haccepts.eq]
  | @retired _ tag outcome state u _ happlied =>
    rw [settle_tablesOnly u tag state outcome]
    exact happlied.limits_eq

theorem Past.step (h : Past limits seen s) (hs : Sound s) (hr : Recorded seen s)
    (hnext : call.next s = some t) : Past limits (seen ++ [(call, s)]) t := by
  have hturn := turn_of_next hnext
  constructor
  · exact hturn.limits_eq.trans h.limits_eq
  · intro step hstep n b hb
    refine Nat.le_trans ?_ hturn.nextGeneration_le
    rcases mem_append.1 hstep with hbefore | hlast
    · exact h.stamps step hbefore n b hb
    · rw [mem_singleton.1 hlast] at hb
      exact (hs.fids.stamped n b hb).2
  · rw [countP_append, countP_singleton]
    obtain ⟨hzero, hone⟩ := h.attached
    by_cases ha : attaches (call, s) = true
    · obtain ⟨hbefore, hafter⟩ := attaches_phase hs hr hnext ha
      rw [if_pos ha, hzero (.inr hbefore), hafter]
      simp
    · rw [if_neg ha, add_zero]
      refine ⟨fun hphase => hzero ?_, hone⟩
      have hmove := hturn.phaseMove hs
      generalize s.phase = p, t.phase = q at hmove hphase
      cases hmove <;> simp_all

theorem new_recorded (h : Session.new grant features limits = some s) :
    Recorded [] s ∧ Past limits [] s ∧ Owned s := by
  unfold Session.new at h
  split at h
  · cases h
  cases h
  exact ⟨⟨by simp, by simp⟩, ⟨rfl, by simp, by simp⟩, fun n hn => absurd (by simp) hn⟩

structure Reached (limits : Fs.Limits) (seen : History) (s : Session) : Prop where
  sound : Sound s
  recorded : Recorded seen s
  past : Past limits seen s
  owned : WellTagged seen → Owned s

theorem reached {s₀ : Session} (hnew : Session.new grant features limits = some s₀)
    (hrun : Trace.Reach Call.next s₀ seen s) : Reached limits seen s := by
  refine hrun.invariant (Reached limits) ?_ fun seen s call t _ ih hnext => ?_
  · obtain ⟨hrecorded, hpast, howned⟩ := new_recorded hnew
    exact ⟨new_sound hnew, hrecorded, hpast, fun _ => howned⟩
  · have hturn := turn_of_next hnext
    refine ⟨hturn.sound ih.sound, hturn.recorded ih.sound ih.recorded,
      ih.past.step ih.sound ih.recorded hnext, fun hframes => ?_⟩
    refine hturn.owned ih.sound (fun frame hcall => ?_) (ih.owned fun frame r hmem => ?_)
    · exact hframes frame s (by simp [hcall])
    · exact hframes frame r (mem_append_left _ hmem)

/-- The request on `t` has reserved `n` and waits for its answer. -/
def Awaits (seen : History) (s : Session) (t : UInt16) (n : UInt32) : Prop :=
  ∃ state frame r, s.tags[t]? = some state ∧ state.answered = false ∧
    lastAdmitted t seen = some (frame, r) ∧ frame.message.reserves = some n

theorem awaits_iff {t : UInt16} (hs : Sound s) (hr : Recorded seen s) :
    Awaits seen s t n ↔ ∃ state, s.tags[t]? = some state ∧ state.effect.reserves = some n := by
  constructor
  · rintro ⟨state, frame, r, hstate, hanswered, hlast, hn⟩
    obtain ⟨frame', r', hlast', hrecords⟩ := hr.records t state hstate
    cases hlast.symm.trans hlast'
    exact ⟨state, hstate, (hrecords.admitted hanswered).reserves.trans hn⟩
  · rintro ⟨state, hstate, hn⟩
    obtain ⟨frame, r, hlast, hrecords⟩ := hr.records t state hstate
    have hanswered : state.answered = false := by
      rw [← Bool.not_eq_true]
      intro htrue
      rw [(hs.tags.held t state hstate htrue).2] at hn
      cases hn
    exact ⟨state, frame, r, hstate, hanswered, hlast,
      (hrecords.admitted hanswered).reserves.symm.trans hn⟩

/-- The tables of a session agree with each other and with the requests made of it. -/
structure Agrees (limits : Fs.Limits) (seen : History) (s : Session) : Prop where
  apart : ∀ n, ¬ (n ∈ s.fids ∧ n ∈ s.reservedFids)
  owned : WellTagged seen → ∀ n ∈ s.reservedFids, ∃ t, Awaits seen s t n
  reserved : ∀ t n, Awaits seen s t n → n ∈ s.reservedFids ∧ ∀ u, Awaits seen s u n → u = t
  fid_quota : s.liveFids ≤ limits.maxFids
  tag_quota : s.outstandingTags ≤ limits.maxInflightRequests
  stamped : ∀ (n : UInt32) b, s.fids[n]? = some b → b.generation ≠ 0
  distinct : ∀ (n m : UInt32) b c, s.fids[n]? = some b → s.fids[m]? = some c →
    b.generation = c.generation → n = m
  fresh : ∀ (call : Call) (t : Session), call.next s = some t →
    ∀ (n : UInt32) b, t.fids[n]? = some b →
    s.fids[n]?.map FidState.generation ≠ some b.generation →
    ∀ r ∈ s :: seen.map Prod.snd, ∀ (m : UInt32) c, r.fids[m]? = some c →
      c.generation < b.generation
  flushes : ∀ (v : UInt16) target f, s.tags[v]? = some target → f ∈ target.flushedBy →
    f ∈ s.tags ∧ ∃ r, lastAdmitted f seen = some (⟨f, .tflush v⟩, r)
  attach_once : seen.countP attaches ≤ 1
  phase : ∀ (call : Call) t, call.next s = some t → PhaseMove call s.phase t.phase
  binding : ∀ (call : Call) t tag (n : UInt32), call.next s = some t → call.tag = some tag →
    t.fids[n]? ≠ s.fids[n]? →
    ∃ frame r, lastAdmitted tag seen = some (frame, r) ∧ frame.message.binds = some n ∧
      s.fids[n]?.map FidState.generation = r.fids[n]?.map FidState.generation

theorem Message.eq_tflush {v : UInt16} (h : message.flushing = some v) : message = .tflush v := by
  cases message <;> simp_all [Message.flushing]

/-- In every state a run reaches the tables agree. Only that a reservation has an owner needs
the codec's rule for tags. -/
theorem session_tables_agree (grant : Fs.CapabilitySet) (features : Fs.FeatureSet)
    (limits : Fs.Limits) (s₀ s : Session) (seen : History)
    (hnew : Session.new grant features limits = some s₀) (hrun : Trace.Reach Call.next s₀ seen s) :
    Agrees limits seen s := by
  obtain ⟨hs, hr, hpast, howned⟩ := reached hnew hrun
  have hawaits {t : UInt16} {n : UInt32} : Awaits seen s t n ↔ _ := awaits_iff hs hr
  have hmem {n : UInt32} : n ∈ s.reservedFids ↔ s.reservedFids[n]? ≠ none := by
    rw [← isSome_getElem?_iff_mem, isSome_iff_ne_none]
  constructor
  case apart =>
    intro n ⟨hfid, hreserved⟩
    rw [← isSome_getElem?_iff_mem, hs.fids.apart n (hmem.1 hreserved)] at hfid
    cases hfid
  case owned =>
    intro hframes n hn
    obtain ⟨t, state, hstate, hreserves⟩ := howned hframes n (hmem.1 hn)
    exact ⟨t, hawaits.2 ⟨state, hstate, hreserves⟩⟩
  case reserved =>
    intro t n ht
    obtain ⟨state, hstate, hn⟩ := hawaits.1 ht
    refine ⟨hmem.2 (hs.tags.claims t state n hstate hn), fun u hu => ?_⟩
    obtain ⟨state', hstate', hn'⟩ := hawaits.1 hu
    exact hs.tags.sole u t state' state n hstate' hstate hn' hn
  case fid_quota => exact hpast.limits_eq ▸ hs.fids.quota
  case tag_quota => exact hpast.limits_eq ▸ hs.tags.quota
  case stamped => exact fun n b hb => ne_of_gt (hs.fids.stamped n b hb).1
  case distinct => exact hs.fids.distinct
  case fresh =>
    intro call t hnext n b hb hnew' r hmem' m c hc
    rw [(turn_of_next hnext).fresh hb hnew', Nat.lt_succ_iff]
    rcases mem_cons.1 hmem' with rfl | hseen
    · exact (hs.fids.stamped m c hc).2
    · obtain ⟨step, hstep, rfl⟩ := mem_map.1 hseen
      exact hpast.stamps step hstep m c hc
  case flushes =>
    intro v target f hv hf
    obtain ⟨flush, hflush, hflushing⟩ := isLiveFlushOf_iff.1 (hs.tags.flushes v target f hv hf)
    obtain ⟨frame, r, hlast, hrecords⟩ := hr.records f flush hflush
    have hmessage := Message.eq_tflush (hrecords.flushing.symm.trans hflushing)
    refine ⟨isSome_getElem?_iff_mem.1 (by simp [hflush]), r, ?_⟩
    rw [hlast, ← lastAdmitted_tag hlast, ← hmessage]
  case attach_once => exact hpast.attached.2
  case phase => exact fun call t hnext => (turn_of_next hnext).phaseMove hs
  case binding => exact fun call t tag n hnext => (turn_of_next hnext).binding hs hr

def granted : Session := (Session.new ⟨0xff⟩ ⟨0xff⟩ .profileDefault).get (by decide)

theorem new_granted : Session.new ⟨0xff⟩ ⟨0xff⟩ .profileDefault = some granted := (some_get _).symm

def handshake : List Call :=
  [.request ⟨notag, .tversion 65536 dialect⟩, .complete ⟨notag, .rversion 65536 dialect⟩]

def attachRoot : List Call :=
  handshake ++ [.request ⟨1, .tattach 0 nofid "" "" nonuname⟩,
    .complete ⟨1, .rattach ⟨.directory, 0, 1⟩⟩]

/-- A walk on tag 2 is flushed on tag 3, and that flush on tag 4. -/
def flushedFlush : List Call :=
  attachRoot ++ [.request ⟨2, .twalk 0 1 ["a"]⟩, .request ⟨3, .tflush 2⟩, .request ⟨4, .tflush 3⟩]

theorem session_tables_agree_flushed_walk : ∃ seen s,
    Trace.Reach Call.next granted seen s ∧ s.outstandingTags = 3 ∧ s.liveFids = 2 ∧
      Agrees .profileDefault seen s := by
  have hrun : (Trace.replay Call.next granted flushedFlush).map
      (fun run => (run.2.outstandingTags, run.2.liveFids)) = some (3, 2) := by decide +kernel
  obtain ⟨⟨seen, s⟩, hreplay, hsizes⟩ := map_eq_some_iff.1 hrun
  obtain ⟨htags, hfids⟩ := Prod.mk.inj hsizes
  have hreach := Trace.reach_of_replay hreplay
  exact ⟨seen, s, hreach, htags, hfids, session_tables_agree _ _ _ _ _ _ new_granted hreach⟩

/-- A request on the handshake's tag is admitted and takes no tag, and its fid stays reserved. -/
theorem notag_reserves : ∃ seen s, Trace.Reach Call.next granted seen s ∧ s.phase ≠ .closed ∧
    s.tags = ∅ ∧ 0 ∈ s.reservedFids := by
  have hrun : (Trace.replay Call.next granted (handshake ++
      [.request ⟨notag, .tattach 0 nofid "" "" nonuname⟩])).map (fun run =>
        (run.2.phase, run.2.tags.isEmpty, run.2.reservedFids.contains 0)) =
      some (.versioned, true, true) := by decide +kernel
  obtain ⟨⟨seen, s⟩, hreplay, hfacts⟩ := map_eq_some_iff.1 hrun
  simp only [Prod.mk.injEq] at hfacts
  exact ⟨seen, s, Trace.reach_of_replay hreplay, by simp [hfacts.1], isEmpty_iff.1 hfacts.2.1,
    contains_iff_mem.1 hfacts.2.2⟩

/-- A reserved fid that belongs to no outstanding request. -/
theorem handshake_tag_reserves_for_no_request : ∃ seen s,
    Trace.Reach Call.next granted seen s ∧ 0 ∈ s.reservedFids ∧ ∀ t, ¬ Awaits seen s t 0 := by
  obtain ⟨seen, s, hreach, -, hempty, hreserved⟩ := notag_reserves
  refine ⟨seen, s, hreach, hreserved, ?_⟩
  rintro t ⟨state, _, _, hstate, _⟩
  rw [hempty] at hstate
  simp at hstate

end Session

end AgentUplink.NineP
