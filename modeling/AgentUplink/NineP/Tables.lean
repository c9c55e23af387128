/-
The tables of a session agree.

Bound and reserved fids are apart, every binding has its own generation, every
reservation a request makes is its own, and every member of a flush set is an outstanding
flush of that tag. Each call keeps this.
-/
import AgentUplink.NineP.Turns

namespace AgentUplink.NineP.Session

open Std Ledger Option Finset

structure FidsSound (s : Session) : Prop where
  apart : ∀ n : UInt32, s.reservedFids[n]? ≠ none → s.fids[n]? = none
  quota : s.liveFids ≤ s.limits.maxFids
  stamped : ∀ (n : UInt32) b, s.fids[n]? = some b →
    0 < b.generation ∧ b.generation ≤ s.nextGeneration
  distinct : ∀ (n m : UInt32) b c, s.fids[n]? = some b → s.fids[m]? = some c →
    b.generation = c.generation → n = m

/-- The tag table agrees with the reservations and with itself. -/
structure TagsSound (s : Session) : Prop where
  claims : ∀ (t : UInt16) state n, s.tags[t]? = some state → state.effect.reserves = some n →
    s.reservedFids[n]? ≠ none
  sole : ∀ (t u : UInt16) state state' n, s.tags[t]? = some state → s.tags[u]? = some state' →
    state.effect.reserves = some n → state'.effect.reserves = some n → t = u
  quota : s.tags.size ≤ s.limits.maxInflightRequests
  flushes : Flushes s.tags
  held : Held s.tags
  flush_type : ∀ (t : UInt16) state, s.tags[t]? = some state → state.flushing.isSome = true →
    state.messageType = .tflush
  attach_type : ∀ (t : UInt16) state, s.tags[t]? = some state → state.answered = false →
    (state.effect.isAttach = true ↔ state.messageType = .tattach)
  attach_phase : ∀ (t : UInt16) state, s.tags[t]? = some state → state.effect.isAttach = true →
    s.phase = .versioned
  attach_sole : ∀ (t u : UInt16) state state', s.tags[t]? = some state → s.tags[u]? = some state' →
    state.effect.isAttach = true → state'.effect.isAttach = true → t = u

structure Sound (s : Session) : Prop where
  bounds : s.bounds = s.limits.pathBounds
  fids : FidsSound s
  tags : TagsSound s

variable {s t : Session} {n : UInt32} {effect : Effect} {tag : UInt16} {state : TagState}
  {outcome : FlushOutcome}

theorem new_sound {grant : Fs.CapabilitySet} {features : Fs.FeatureSet} {limits : Fs.Limits}
    (h : Session.new grant features limits = some s) : s.Sound := by
  unfold Session.new at h
  split at h
  · cases h
  cases h
  refine ⟨rfl, ⟨?_, ?_, ?_, ?_⟩, ⟨?_, ?_, ?_, ?_, ?_, ?_, ?_, ?_, ?_⟩⟩ <;>
    simp [liveFids, Flushes, Held]

/-! ## The fid tables -/

/-- Bindings under the stamps they had, and nothing reserved that was not. -/
theorem FidsSound.keep (h : FidsSound s) (hlimits : t.limits = s.limits)
    (hnext : t.nextGeneration = s.nextGeneration)
    (hfids : ∀ (m : UInt32) c, t.fids[m]? = some c →
      ∃ b, s.fids[m]? = some b ∧ b.generation = c.generation)
    (hreserved : ∀ m : UInt32, t.reservedFids[m]? ≠ none → s.reservedFids[m]? ≠ none) :
    FidsSound t where
  apart m hm := by
    by_contra hbound
    obtain ⟨c, hc⟩ := ne_none_iff_exists'.1 hbound
    obtain ⟨b, hb, -⟩ := hfids m c hc
    rw [h.apart m (hreserved m hm)] at hb
    cases hb
  quota := by
    have hsize := size_le_of_keys hreserved
    have hsize' : t.fids.size ≤ s.fids.size := size_le_of_keys fun m hm => by
      obtain ⟨c, hc⟩ := ne_none_iff_exists'.1 hm
      obtain ⟨b, hb, -⟩ := hfids m c hc
      simp [hb]
    have := h.quota
    unfold liveFids at *
    rw [hlimits]
    omega
  stamped m c hc := by
    obtain ⟨b, hb, heq⟩ := hfids m c hc
    rw [← heq, hnext]
    exact h.stamped m b hb
  distinct m k c d hm hk heq := by
    obtain ⟨b, hb, hbeq⟩ := hfids m c hm
    obtain ⟨b', hb', hbeq'⟩ := hfids k d hk
    exact h.distinct m k b b' hb hb' (by rw [hbeq, hbeq', heq])

/-- A new binding under the next stamp, for a number that had none of its own. -/
theorem FidsSound.bind (h : FidsSound s) {b : FidState}
    (hgeneration : b.generation = s.nextGeneration + 1) (hfids : t.fids = s.fids.insert n b)
    (hlimits : t.limits = s.limits) (hnext : t.nextGeneration = s.nextGeneration + 1)
    (hreserved : ∀ m : UInt32, t.reservedFids[m]? ≠ none → s.reservedFids[m]? ≠ none ∧ m ≠ n)
    (hquota : t.liveFids ≤ s.liveFids) : FidsSound t where
  apart m hm := by
    obtain ⟨hm, hne⟩ := hreserved m hm
    rw [hfids, get_insert, if_neg (Ne.symm hne)]
    exact h.apart m hm
  quota := by
    rw [hlimits]
    exact hquota.trans h.quota
  stamped m c hm := by
    rw [hfids] at hm
    rcases get_insert_eq_some.1 hm with ⟨-, rfl⟩ | ⟨-, hm⟩
    · omega
    · have := h.stamped m c hm
      omega
  distinct m k c d hm hk heq := by
    rw [hfids] at hm hk
    -- Every older stamp is below the new one.
    rcases get_insert_eq_some.1 hm with ⟨rfl, rfl⟩ | ⟨-, hm⟩
    · rcases get_insert_eq_some.1 hk with ⟨hnk, -⟩ | ⟨-, hk⟩
      · exact hnk
      · have := h.stamped k d hk
        omega
    · rcases get_insert_eq_some.1 hk with ⟨-, rfl⟩ | ⟨-, hk⟩
      · have := h.stamped m c hm
        omega
      · exact h.distinct m k c d hm hk heq

theorem erase_ne_none {m : ExtTreeMap UInt32 Fs.VirtualPath} {k : UInt32}
    (h : (m.erase n)[k]? ≠ none) : m[k]? ≠ none ∧ k ≠ n := by
  rw [get_erase] at h
  split at h
  · exact absurd rfl h
  · next hne => exact ⟨h, Ne.symm hne⟩

theorem FidsSound.liveFids_bind (h : FidsSound s) {b : FidState} {path : Fs.VirtualPath}
    (hreserved : s.reservedFids[n]? = some path) :
    (s.fids.insert n b).size + (s.reservedFids.erase n).size ≤ s.liveFids := by
  have hfree := h.apart n (by simp [hreserved])
  have hinsert := size_insert_of_none hfree b
  have herase := size_erase_of_some hreserved
  unfold liveFids
  omega

theorem Applied.fidsSound (h : Applied effect s t) (hs : FidsSound s) : FidsSound t := by
  cases h with
  | same => exact hs
  | stamped =>
    refine ⟨hs.apart, hs.quota, fun n b hb => ?_, hs.distinct⟩
    have := hs.stamped n b hb
    exact ⟨this.1, Nat.le_succ_of_le this.2⟩
  | freed hn =>
    exact hs.keep rfl rfl (fun _ c hc => ⟨c, hc, rfl⟩) fun m hm => (erase_ne_none hm).1
  | attached _ _ hreserved _ hgeneration | bound _ hreserved _ hgeneration =>
    exact hs.bind hgeneration rfl rfl rfl (fun m => erase_ne_none) (hs.liveFids_bind hreserved)
  | @rebound n b b' hagainst hb hdestination hgeneration =>
    refine hs.bind hgeneration rfl rfl rfl (fun m hm => ⟨hm, ?_⟩) ?_
    · rintro rfl
      have := hs.apart m hm
      cases hb.symm.trans this
    · exact (congrArg (· + s.reservedFids.size) (size_replace hb b')).le
  | @opened n b b' hagainst hb hpath hgeneration =>
    refine hs.keep rfl rfl (fun m c hc => ?_) fun _ hm => hm
    rcases get_insert_eq_some.1 hc with ⟨rfl, rfl⟩ | ⟨-, hc⟩
    · exact ⟨b, hb, hgeneration.symm⟩
    · exact ⟨c, hc, rfl⟩
  | released =>
    exact hs.keep rfl rfl (fun m c hc => ⟨c, (get_erase_eq_some.1 hc).2, rfl⟩) fun _ hm => hm

/-! ## The tag table -/

/-- The entry of a tag after another tag was retired, or after it was answered itself. -/
structure Follows (tag x : UInt16) (before after : TagState) : Prop where
  messageType : after.messageType = before.messageType
  flushing : after.flushing = before.flushing
  flushedBy : after.flushedBy ⊆ before.flushedBy
  effect : x ≠ tag ∧ after.effect = before.effect ∧ after.answered = before.answered ∨
    x = tag ∧ after.effect = .none ∧ after.answered = true

theorem retireTag_follows {x : UInt16} {after : TagState} (h : Flushes s.tags)
    (hstate : s.tags[tag]? = some state)
    (hafter : (s.retireTag tag state outcome).tags[x]? = some after) :
    ∃ before, s.tags[x]? = some before ∧ Follows tag x before after := by
  by_cases hempty : state.flushedBy = ∅
  · rw [retireTag_get h hstate hempty, without_some] at hafter
    obtain ⟨hstays, before, hbefore, rfl⟩ := hafter
    have hne : x ≠ tag := by
      rintro rfl
      exact hstays (.inl rfl)
    refine ⟨before, hbefore, rfl, rfl, fun f hf => (mem_strip.1 hf).1, .inl ⟨hne, rfl, rfl⟩⟩
  · rw [retireTag_of_flushed h hstate (nonempty_iff_ne_empty.2 hempty)] at hafter
    rw [get_modify] at hafter
    split at hafter
    · next heq =>
      subst heq
      rw [hstate] at hafter
      cases hafter
      exact ⟨state, hstate, rfl, rfl, fun _ hf => hf, .inr ⟨rfl, rfl, rfl⟩⟩
    · next hne =>
      exact ⟨after, hafter, rfl, rfl, fun _ hf => hf, .inl ⟨Ne.symm hne, rfl, rfl⟩⟩

theorem retireTag_flushes (h : Flushes s.tags) (hstate : s.tags[tag]? = some state)
    (outcome : FlushOutcome) : Flushes (s.retireTag tag state outcome).tags := by
  intro v target f hv hf
  by_cases hempty : state.flushedBy = ∅
  · rw [retireTag_get h hstate hempty, without_some] at hv
    obtain ⟨_, before, hbefore, rfl⟩ := hv
    obtain ⟨hf, hstays⟩ := mem_strip.1 hf
    obtain ⟨flush, hflush, hflushing⟩ := isLiveFlushOf_iff.1 (h v before f hbefore hf)
    refine isLiveFlushOf_iff.2 ⟨strip (Departs s.tags tag outcome) flush, ?_, hflushing⟩
    rw [retireTag_get h hstate hempty, without_some]
    exact ⟨hstays, flush, hflush, rfl⟩
  · have hne := nonempty_iff_ne_empty.2 hempty
    obtain ⟨before, hbefore, hfollows⟩ := retireTag_follows h hstate hv
    obtain ⟨flush, hflush, hflushing⟩ :=
      isLiveFlushOf_iff.1 (h v before f hbefore (hfollows.flushedBy hf))
    rw [isLiveFlushOf_iff, retireTag_of_flushed h hstate hne]
    rw [get_modify]
    split
    · next heq =>
      subst heq
      rw [hflush]
      exact ⟨_, rfl, hflushing⟩
    · exact ⟨flush, hflush, hflushing⟩

/-- A reservation that is left belongs to no tag that is gone. -/
theorem retireTag_reserved_ne (h : Flushes s.tags) (hheld : Held s.tags)
    (hstate : s.tags[tag]? = some state)
    (hn : (s.retireTag tag state outcome).reservedFids[n]? ≠ none) : s.reservedFids[n]? ≠ none := by
  by_cases hempty : state.flushedBy = ∅
  · rw [retireTag_reserved h hheld hstate hempty] at hn
    split at hn
    · exact absurd rfl hn
    · exact hn
  · rw [retireTag_of_flushed h hstate (nonempty_iff_ne_empty.2 hempty)] at hn
    exact hn

theorem retireTag_claims {x : UInt16} (h : Flushes s.tags) (hheld : Held s.tags)
    (hsole : ∀ (y : UInt16) target, s.tags[y]? = some target →
      target.effect.reserves = some n → x = y) (hstate : s.tags[tag]? = some state)
    (hstays : (s.retireTag tag state outcome).tags[x]? ≠ none) (hn : s.reservedFids[n]? ≠ none) :
    (s.retireTag tag state outcome).reservedFids[n]? ≠ none := by
  by_cases hempty : state.flushedBy = ∅
  · rw [retireTag_reserved h hheld hstate hempty, if_neg]
    · exact hn
    · rintro ⟨y, target, hne, hdeparts, hy, hn'⟩
      have heq := hsole y target hy hn'
      subst heq
      rw [retireTag_get h hstate hempty] at hstays
      simp [without, hdeparts] at hstays
  · rw [retireTag_of_flushed h hstate (nonempty_iff_ne_empty.2 hempty)]
    exact hn

/-! ## Replies and failures -/

section

variable (h : Applied effect s t)
include h

theorem Applied.tags_eq : t.tags = s.tags := by
  cases h <;> rfl

theorem Applied.limits_eq : t.limits = s.limits := by
  cases h <;> rfl

theorem Applied.bounds_eq : t.bounds = s.bounds := by
  cases h <;> rfl

theorem Applied.phase_eq : t.phase = s.phase ∨ effect.isAttach = true ∧ t.phase = .attached := by
  cases h with
  | attached hattach => exact .inr ⟨hattach, rfl⟩
  | _ => exact .inl rfl

theorem Applied.undone (n : UInt32) :
    (t.undoReservation effect).reservedFids[n]? =
      if effect.reserves = some n then none else s.reservedFids[n]? := by
  rw [undoReservation_get]
  have herase {k : UInt32} (hk : effect.reserves = some k) :
      (if effect.reserves = some n then none else (s.reservedFids.erase k)[n]?) =
        if effect.reserves = some n then none else s.reservedFids[n]? := by
    rw [get_erase, hk]
    by_cases hkn : k = n
    · simp [hkn]
    · simp [hkn]
  cases h with
  | freed hk | attached _ hk | bound hk => exact herase hk
  | _ => rfl

end

section Settle

variable {s t : Session} {tag : UInt16} {state : TagState} {outcome : FlushOutcome}

theorem Applied.undone_tags {effect : Effect} (h : Applied effect s t) :
    (t.undoReservation effect).tags = s.tags := by
  rw [undoReservation_tags, h.tags_eq]

theorem TagsSound.undone (hs : TagsSound s) (hstate : s.tags[tag]? = some state)
    (h : Applied state.effect s t) :
    Flushes (t.undoReservation state.effect).tags ∧ Held (t.undoReservation state.effect).tags ∧
      (t.undoReservation state.effect).tags[tag]? = some state := by
  rw [h.undone_tags]
  exact ⟨hs.flushes, hs.held, hstate⟩

theorem settle_tablesOnly (t : Session) (tag : UInt16) (state : TagState) (outcome : FlushOutcome) :
    TablesOnly t (t.settle tag state outcome) :=
  (undoReservation_tablesOnly t state.effect).trans (retireTag_tablesOnly _ tag state outcome)

variable {x : UInt16} {n : UInt32} {target : TagState}

section

variable (hs : TagsSound s)
include hs

section

variable (hstate : s.tags[tag]? = some state)
include hstate

section

variable (h : Applied state.effect s t)
include h

theorem settle_follows {after : TagState}
    (hafter : (t.settle tag state outcome).tags[x]? = some after) :
    ∃ before, s.tags[x]? = some before ∧ Follows tag x before after := by
  obtain ⟨hflushes, -, hstate⟩ := hs.undone hstate h
  rw [← h.undone_tags]
  exact retireTag_follows hflushes hstate hafter

theorem settle_reserved_ne (hn : (t.settle tag state outcome).reservedFids[n]? ≠ none) :
    s.reservedFids[n]? ≠ none ∧ state.effect.reserves ≠ some n := by
  obtain ⟨hflushes, hheld, hstate⟩ := hs.undone hstate h
  have hundone := retireTag_reserved_ne hflushes hheld hstate hn
  rw [h.undone n] at hundone
  split at hundone
  · exact absurd rfl hundone
  · next hne => exact ⟨hundone, hne⟩

theorem settle_claims (hx : s.tags[x]? = some target) (hne : x ≠ tag)
    (hn : target.effect.reserves = some n) (hstays : (t.settle tag state outcome).tags[x]? ≠ none) :
    (t.settle tag state outcome).reservedFids[n]? ≠ none := by
  have hsole (y : UInt16) (target' : TagState) (hy : s.tags[y]? = some target')
      (hn' : target'.effect.reserves = some n) : x = y := hs.sole x y target target' n hx hy hn hn'
  have hreserved : (t.undoReservation state.effect).reservedFids[n]? ≠ none := by
    rw [h.undone n, if_neg]
    · exact hs.claims x target n hx hn
    · intro htag
      exact hne (hsole tag state hstate htag)
  obtain ⟨hflushes, hheld, hstate⟩ := hs.undone hstate h
  rw [← h.undone_tags] at hsole
  exact retireTag_claims hflushes hheld hsole hstate hstays hreserved

theorem settle_get (hempty : state.flushedBy = ∅) (x : UInt16) :
    (t.settle tag state outcome).tags[x]? = without s.tags (Departs s.tags tag outcome) x := by
  obtain ⟨hflushes, -, hstate⟩ := hs.undone hstate h
  rw [← h.undone_tags]
  exact retireTag_get hflushes hstate hempty outcome x

theorem settle_get_of_flushed (hne : state.flushedBy.Nonempty) (x : UInt16) :
    (t.settle tag state outcome).tags[x]? =
      if tag = x then some { state with answered := true, effect := .none } else s.tags[x]? := by
  obtain ⟨hflushes, -, hstate'⟩ := hs.undone hstate h
  rw [settle, retireTag_of_flushed hflushes hstate' hne]
  rw [get_modify, h.undone_tags]
  split
  · rw [hstate]
    rfl
  · rfl

theorem settle_stays (hx : s.tags[x]? = some target) (hn : target.effect.reserves = some n)
    (hkept : (t.settle tag state outcome).reservedFids[n]? ≠ none) :
    ∃ after, (t.settle tag state outcome).tags[x]? = some after ∧ after.effect = target.effect ∧
      after.answered = target.answered := by
  have hne : tag ≠ x := by
    rintro rfl
    cases hx.symm.trans hstate
    exact (settle_reserved_ne hs hx h hkept).2 hn
  by_cases hempty : state.flushedBy = ∅
  · obtain ⟨hflushes, hheld, hstate'⟩ := hs.undone hstate h
    rw [settle, retireTag_reserved hflushes hheld hstate' hempty, h.undone_tags] at hkept
    rw [settle_get hs hstate h hempty]
    refine ⟨strip (Departs s.tags tag outcome) target, without_some.2 ⟨?_, target, hx, rfl⟩,
      rfl, rfl⟩
    intro hdeparts
    rw [if_pos ⟨x, target, Ne.symm hne, hdeparts, hx, hn⟩] at hkept
    exact hkept rfl
  · rw [settle_get_of_flushed hs hstate h (nonempty_iff_ne_empty.2 hempty), if_neg hne]
    exact ⟨target, hx, rfl, rfl⟩

end

end

end

theorem settle_phase (h : Applied state.effect s t) :
    (t.settle tag state outcome).phase = s.phase ∨
      state.effect.isAttach = true ∧ (t.settle tag state outcome).phase = .attached := by
  have hphase : (t.settle tag state outcome).phase = t.phase := by
    rw [settle_tablesOnly t tag state outcome]
  rw [hphase]
  exact h.phase_eq

theorem settle_tagsSound (hs : TagsSound s) (hstate : s.tags[tag]? = some state)
    (h : Applied state.effect s t) : TagsSound (t.settle tag state outcome) := by
  have hfollows {x : UInt16} {after : TagState}
      (hafter : (t.settle tag state outcome).tags[x]? = some after) :=
    settle_follows hs hstate h hafter
  -- A tag with an effect left is not the one that is over.
  have heffect {x : UInt16} {before after : TagState} (hf : Follows tag x before after)
      (hne : after.effect ≠ .none) : x ≠ tag ∧ after.effect = before.effect := by
    rcases hf.effect with ⟨hx, heq, _⟩ | ⟨_, heq, _⟩
    · exact ⟨hx, heq⟩
    · exact absurd heq hne
  have hreserves {effect : Effect} {n : UInt32} (h : effect.reserves = some n) :
      effect ≠ .none := by
    rintro rfl
    cases h
  have hattach {effect : Effect} (h : effect.isAttach = true) : effect ≠ .none := by
    rintro rfl
    cases h
  obtain ⟨hflushes, hheld, hstate'⟩ := hs.undone hstate h
  constructor
  case flushes => exact retireTag_flushes hflushes hstate' outcome
  case held => exact retireTag_held hheld hstate' outcome
  case quota =>
    have hlimits : (t.settle tag state outcome).limits = s.limits := by
      rw [settle_tablesOnly t tag state outcome]
      exact h.limits_eq
    rw [hlimits]
    refine Nat.le_trans (size_le_of_keys fun x hx => ?_) hs.quota
    obtain ⟨after, hafter⟩ := ne_none_iff_exists'.1 hx
    obtain ⟨before, hbefore, _⟩ := hfollows hafter
    simp [hbefore]
  case claims =>
    intro x after n hafter hn
    obtain ⟨before, hbefore, hf⟩ := hfollows hafter
    obtain ⟨hne, heq⟩ := heffect hf (hreserves hn)
    exact settle_claims hs hstate h hbefore hne (heq ▸ hn) (by simp [hafter])
  case sole =>
    intro x y after after' n hafter hafter' hn hn'
    obtain ⟨before, hbefore, hf⟩ := hfollows hafter
    obtain ⟨before', hbefore', hf'⟩ := hfollows hafter'
    exact hs.sole x y before before' n hbefore hbefore' ((heffect hf (hreserves hn)).2 ▸ hn)
      ((heffect hf' (hreserves hn')).2 ▸ hn')
  case flush_type =>
    intro x after hafter hflushing
    obtain ⟨before, hbefore, hf⟩ := hfollows hafter
    rw [hf.messageType]
    rw [hf.flushing] at hflushing
    exact hs.flush_type x before hbefore hflushing
  case attach_type =>
    intro x after hafter hanswered
    obtain ⟨before, hbefore, hf⟩ := hfollows hafter
    rcases hf.effect with ⟨_, heq, hsame⟩ | ⟨_, _, htrue⟩
    · rw [heq, hf.messageType]
      exact hs.attach_type x before hbefore (hsame ▸ hanswered)
    · cases htrue.symm.trans hanswered
  case attach_phase =>
    intro x after hafter ha
    obtain ⟨before, hbefore, hf⟩ := hfollows hafter
    obtain ⟨hne, heq⟩ := heffect hf (hattach ha)
    rw [heq] at ha
    rcases @settle_phase s t tag state outcome h with hphase | ⟨htag, _⟩
    · rw [hphase]
      exact hs.attach_phase x before hbefore ha
    · exact absurd (hs.attach_sole x tag before state hbefore hstate ha htag) hne
  case attach_sole =>
    intro x y after after' hafter hafter' ha ha'
    obtain ⟨before, hbefore, hf⟩ := hfollows hafter
    obtain ⟨before', hbefore', hf'⟩ := hfollows hafter'
    exact hs.attach_sole x y before before' hbefore hbefore' ((heffect hf (hattach ha)).2 ▸ ha)
      ((heffect hf' (hattach ha')).2 ▸ ha')

theorem settle_fidsSound (hs : Sound s) (hstate : s.tags[tag]? = some state)
    (h : Applied state.effect s t) : FidsSound (t.settle tag state outcome) := by
  have htables := settle_tablesOnly t tag state outcome
  refine (h.fidsSound hs.fids).keep ?_ ?_ (fun m c hc => ⟨c, ?_, rfl⟩) fun n hn => ?_
  · rw [htables]
  · rw [htables]
  · rwa [htables] at hc
  · obtain ⟨hflushes, hheld, hstate⟩ := hs.tags.undone hstate h
    have hundone := retireTag_reserved_ne hflushes hheld hstate hn
    rw [undoReservation_get] at hundone
    split at hundone
    · exact absurd rfl hundone
    · exact hundone

theorem settle_sound (hs : Sound s) (hstate : s.tags[tag]? = some state)
    (h : Applied state.effect s t) : Sound (t.settle tag state outcome) where
  bounds := by
    rw [settle_tablesOnly t tag state outcome]
    exact h.bounds_eq.trans (hs.bounds.trans (congrArg Fs.Limits.pathBounds h.limits_eq.symm))
  fids := settle_fidsSound hs hstate h
  tags := settle_tagsSound hs.tags hstate h

end Settle

/-! ## Requests -/

theorem attachOutstanding_eq_false (h : s.attachOutstanding = false) {t : UInt16}
    (hstate : s.tags[t]? = some state) : state.effect.isAttach = false := by
  unfold attachOutstanding at h
  rw [List.any_eq_false] at h
  simpa using h (t, state) (ExtTreeMap.mem_toList_iff_getElem?_eq_some.2 hstate)

section Accept

variable {s t u : Session} {frame : Frame} {effect : Effect}

theorem Reserves.fidsSound (h : Reserves s effect t) (hs : FidsSound s) : FidsSound t := by
  cases h with
  | nothing => exact hs
  | @fid n path _ hfree hreserved hquota _ =>
    refine ⟨fun m hm => ?_, ?_, hs.stamped, hs.distinct⟩
    · rw [get_insert] at hm
      split at hm
      · next heq =>
        subst heq
        exact hfree
      · exact hs.apart m hm
    · have := size_insert_of_none hreserved path
      unfold liveFids at *
      dsimp only
      omega

theorem Reserves.reserved_ne (h : Reserves s effect t) {n : UInt32}
    (hn : s.reservedFids[n]? ≠ none ∨ effect.reserves = some n) : t.reservedFids[n]? ≠ none := by
  cases h with
  | nothing hnone =>
    rcases hn with hn | hn
    · exact hn
    · cases hnone.symm.trans hn
  | fid hsome =>
    rw [get_insert]
    split
    · simp
    · next hne =>
      rcases hn with hn | hn
      · exact hn
      · rw [hsome] at hn
        exact absurd (Option.some.inj hn) hne

theorem Reserves.reserved_none (h : Reserves s effect t) {n : UInt32}
    (hn : effect.reserves = some n) : s.reservedFids[n]? = none := by
  cases h with
  | nothing hnone =>
    cases hnone.symm.trans hn
  | fid hsome _ hreserved =>
    cases hsome.symm.trans hn
    exact hreserved

section

variable (h : Enters t frame effect u)
include h

theorem Enters.tag_cases {x : UInt16} {after : TagState} (hafter : u.tags[x]? = some after) :
    (∃ before, t.tags[x]? = some before ∧ after = { before with flushedBy := after.flushedBy } ∧
      ∀ f, f ∈ after.flushedBy ↔ f ∈ before.flushedBy ∨
        frame.tag ≠ notag ∧ f = frame.tag ∧ frame.message.flushing = some x) ∨
    (x = frame.tag ∧ t.tags[x]? = none ∧
      after = { messageType := frame.messageType, effect, flushedBy := ∅, answered := false
                flushing := frame.message.flushing }) := by
  cases h with
  | handshake htag => exact .inl ⟨after, hafter, rfl, fun f => by simp [htag]⟩
  | tag htag hfree _ hget =>
    rw [hget] at hafter
    split at hafter
    · next heq =>
      subst heq
      cases hafter
      exact .inr ⟨rfl, hfree, rfl⟩
    · rw [map_eq_some_iff] at hafter
      obtain ⟨before, hbefore, rfl⟩ := hafter
      refine .inl ⟨before, hbefore, ?_, fun f => ?_⟩
      · split <;> rfl
      · split
        · next hflush => simp [hflush, htag, or_comm]
        · next hflush => simp [hflush]

theorem Enters.get_of_some {x : UInt16} {before : TagState} (hbefore : t.tags[x]? = some before) :
    ∃ after, u.tags[x]? = some after ∧ after.flushing = before.flushing := by
  cases h with
  | handshake => exact ⟨before, hbefore, rfl⟩
  | tag _ hfree _ hget =>
    rw [hget, if_neg, hbefore, map_some]
    · refine ⟨_, rfl, ?_⟩
      split <;> rfl
    · rintro rfl
      cases hfree.symm.trans hbefore

theorem Enters.get_new (htag : frame.tag ≠ notag) :
    u.tags[frame.tag]? = some { messageType := frame.messageType, effect, flushedBy := ∅
                                answered := false, flushing := frame.message.flushing } := by
  cases h with
  | handshake heq => exact absurd heq htag
  | tag _ _ _ hget =>
    rw [hget, if_pos rfl]

theorem Enters.eq : u = { t with tags := u.tags } := by
  cases h <;> rfl

theorem Enters.flushes (ht : Flushes t.tags) : Flushes u.tags := by
  intro v target f hv hf
  rw [isLiveFlushOf_iff]
  rcases h.tag_cases hv with ⟨before, hbefore, _, hmem⟩ | ⟨_, _, rfl⟩
  · rcases (hmem f).1 hf with hf | ⟨htag, rfl, hflush⟩
    · obtain ⟨flush, hflush, hflushing⟩ := isLiveFlushOf_iff.1 (ht v before f hbefore hf)
      obtain ⟨after, hafter, hsame⟩ := h.get_of_some hflush
      exact ⟨after, hafter, hsame.trans hflushing⟩
    · exact ⟨_, h.get_new htag, hflush⟩
  · simp at hf

theorem Enters.held (ht : Held t.tags) : Held u.tags := by
  intro v target hv hanswered
  rcases h.tag_cases hv with ⟨before, hbefore, heq, hmem⟩ | ⟨_, _, rfl⟩
  · rw [heq] at hanswered
    obtain ⟨⟨f, hf⟩, heffect⟩ := ht v before hbefore hanswered
    rw [heq]
    exact ⟨⟨f, (hmem f).2 (.inl hf)⟩, heffect⟩
  · cases hanswered

end

section

variable (h : Reserves s effect t)
include h

theorem Reserves.tags_eq : t.tags = s.tags := by
  cases h <;> rfl

theorem Reserves.limits_eq : t.limits = s.limits := by
  cases h <;> rfl

theorem Reserves.bounds_eq : t.bounds = s.bounds := by
  cases h <;> rfl

theorem Reserves.phase_eq : t.phase = s.phase := by
  cases h <;> rfl

end

theorem Enters.tagsSound (h : Enters t frame effect u) (hreserves : Reserves s effect t)
    (hadmitted : Admitted s frame effect) (hopen : s.phase ≠ .closed) (hs : TagsSound s) :
    TagsSound u := by
  have htags := hreserves.tags_eq
  have hold {x : UInt16} {after : TagState} (hafter : u.tags[x]? = some after) :
      (∃ before, s.tags[x]? = some before ∧ after.effect = before.effect ∧
        after.messageType = before.messageType ∧ after.answered = before.answered ∧
        after.flushing = before.flushing) ∨
      (x = frame.tag ∧ after.effect = effect ∧ after.messageType = frame.messageType ∧
        after.flushing = frame.message.flushing) := by
    rcases h.tag_cases hafter with ⟨before, hbefore, heq, _⟩ | ⟨hx, _, rfl⟩
    · rw [htags] at hbefore
      exact .inl ⟨before, hbefore, by rw [heq], by rw [heq], by rw [heq], by rw [heq]⟩
    · exact .inr ⟨hx, rfl, rfl, rfl⟩
  have hreserved (n : UInt32) : u.reservedFids[n]? = t.reservedFids[n]? := by rw [h.eq]
  -- No tag that was there reserves what the new one does.
  have hnew {x : UInt16} {before : TagState} {n : UInt32} (hbefore : s.tags[x]? = some before)
      (hn : before.effect.reserves = some n) : effect.reserves ≠ some n := by
    intro hn'
    exact hs.claims x before n hbefore hn (hreserves.reserved_none hn')
  constructor
  case flushes => exact h.flushes (htags ▸ hs.flushes)
  case held => exact h.held (htags ▸ hs.held)
  case claims =>
    intro x after n hafter hn
    rw [hreserved]
    rcases hold hafter with ⟨before, hbefore, heffect, _⟩ | ⟨_, heffect, _⟩
    · exact hreserves.reserved_ne (.inl (hs.claims x before n hbefore (heffect ▸ hn)))
    · exact hreserves.reserved_ne (.inr (heffect ▸ hn))
  case sole =>
    intro x y after after' n hafter hafter' hn hn'
    rcases hold hafter with ⟨before, hbefore, heffect, _⟩ | ⟨hx, heffect, _⟩
    · rw [heffect] at hn
      rcases hold hafter' with ⟨before', hbefore', heffect', _⟩ | ⟨_, heffect', _⟩
      · exact hs.sole x y before before' n hbefore hbefore' hn (heffect' ▸ hn')
      · exact absurd (heffect' ▸ hn') (hnew hbefore hn)
    · rw [heffect] at hn
      rcases hold hafter' with ⟨before', hbefore', heffect', _⟩ | ⟨hy, _⟩
      · exact absurd hn (hnew hbefore' (heffect' ▸ hn'))
      · rw [hx, hy]
  case quota =>
    have hlimits : u.limits = s.limits := by
      rw [h.eq]
      exact hreserves.limits_eq
    have hsize := hs.quota
    rw [hlimits]
    cases h with
    | handshake => rwa [htags]
    | tag _ _ hquota _ hsize' =>
      rw [htags, hreserves.limits_eq] at hquota
      rw [hsize', htags]
      exact hquota
  case flush_type =>
    intro x after hafter hflushing
    rcases hold hafter with ⟨before, hbefore, _, htype, _, hsame⟩ | ⟨_, _, htype, hflush⟩
    · rw [htype]
      exact hs.flush_type x before hbefore (hsame ▸ hflushing)
    · rw [htype]
      unfold Frame.messageType
      cases hmessage : frame.message <;> simp_all [Message.flushing, Message.messageType]
  case attach_type =>
    intro x after hafter hanswered
    rcases hold hafter with ⟨before, hbefore, heffect, htype, hsame, _⟩ | ⟨_, heffect, htype, _⟩
    · rw [heffect, htype]
      exact hs.attach_type x before hbefore (hsame ▸ hanswered)
    · rw [heffect, htype]
      exact hadmitted.type
  case attach_phase =>
    intro x after hafter ha
    have hphase : u.phase = s.phase := by
      rw [h.eq]
      exact hreserves.phase_eq
    rw [hphase]
    rcases hold hafter with ⟨before, hbefore, heffect, _⟩ | ⟨_, heffect, _⟩
    · exact hs.attach_phase x before hbefore (heffect ▸ ha)
    · obtain ⟨hversion, hattached, _⟩ := hadmitted.attach (heffect ▸ ha)
      cases hp : s.phase with
      | versioned => rfl
      | awaitingVersion => exact absurd hp hversion
      | attached => exact absurd hp hattached
      | closed => exact absurd hp hopen
  case attach_sole =>
    have hfree (ha : effect.isAttach = true) {x : UInt16} {before : TagState}
        (hbefore : s.tags[x]? = some before) : before.effect.isAttach = false :=
      attachOutstanding_eq_false (hadmitted.attach ha).2.2 hbefore
    intro x y after after' hafter hafter' ha ha'
    rcases hold hafter with ⟨before, hbefore, heffect, _⟩ | ⟨hx, heffect, _⟩
    · rw [heffect] at ha
      rcases hold hafter' with ⟨before', hbefore', heffect', _⟩ | ⟨_, heffect', _⟩
      · exact hs.attach_sole x y before before' hbefore hbefore' ha (heffect' ▸ ha')
      · rw [hfree (heffect' ▸ ha') hbefore] at ha
        cases ha
    · rcases hold hafter' with ⟨before', hbefore', heffect', _⟩ | ⟨hy, _⟩
      · rw [heffect', hfree (heffect ▸ ha) hbefore'] at ha'
        cases ha'
      · rw [hx, hy]

theorem Accepts.sound (h : Accepts s frame u) (hs : Sound s) : Sound u := by
  obtain ⟨hopen, _, hadmitted, hreserves, henters⟩ := h
  have htags := henters.tagsSound hreserves hadmitted hopen hs.tags
  have hfids := hreserves.fidsSound hs.fids
  have hbounds : _ = _ := hreserves.bounds_eq.trans
    (hs.bounds.trans (congrArg Fs.Limits.pathBounds hreserves.limits_eq.symm))
  rw [henters.eq] at htags ⊢
  exact ⟨hbounds, ⟨hfids.apart, hfids.quota, hfids.stamped, hfids.distinct⟩,
    ⟨htags.claims, htags.sole, htags.quota, htags.flushes, htags.held, htags.flush_type,
      htags.attach_type, htags.attach_phase, htags.attach_sole⟩⟩

end Accept

/-! ## Calls -/

theorem Turn.sound {call : Call} (h : Turn s call t) (hs : Sound s) : Sound t := by
  cases h with
  | same => exact hs
  | admitted _ haccepts => exact haccepts.sound hs
  | versioned =>
    -- No attach is outstanding before the version is agreed.
    refine ⟨hs.bounds, ⟨hs.fids.apart, hs.fids.quota, hs.fids.stamped, hs.fids.distinct⟩,
      ⟨hs.tags.claims, hs.tags.sole, hs.tags.quota, hs.tags.flushes, hs.tags.held,
        hs.tags.flush_type, hs.tags.attach_type, fun _ _ _ _ => rfl, hs.tags.attach_sole⟩⟩
  | retired hsettles happlied => exact settle_sound hs hsettles.get happlied
  | closed =>
    refine ⟨hs.bounds, ⟨?_, ?_, ?_, ?_⟩, ⟨?_, ?_, ?_, ?_, ?_, ?_, ?_, ?_, ?_⟩⟩ <;>
      simp [close, liveFids, Flushes, Held]

end AgentUplink.NineP.Session
