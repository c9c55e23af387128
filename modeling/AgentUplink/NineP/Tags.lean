/-
What retiring a tag does to the tag table.

A flush set holds outstanding flushes of its tag. When a tag leaves, it leaves the set of
the tag it flushes; that tag leaves with it if nothing else holds it, and so on along the
chain. The tags that leave are described on the table before the call, and the table
after it is the table before without them.
-/
import AgentUplink.Lib.Ledger
import AgentUplink.NineP.Session

namespace AgentUplink.NineP

open Option Finset

def Effect.reserves : Effect → Option UInt32
  | .attach fid => some fid
  | .walk _ _ newfid _ _ true => some newfid
  | _ => Option.none

namespace Session

open Std Ledger

variable {tags : Tags} {victim flushTag flushed tag : UInt16}

theorem isLiveFlushOf_iff : isLiveFlushOf tags flushTag victim = true ↔
    ∃ state, tags[flushTag]? = some state ∧ state.flushing = some victim := by
  unfold isLiveFlushOf
  cases h : tags[flushTag]? with
  | none | some state => simp

theorem isLiveFlushOf_of_get {state : TagState} (h : tags[flushTag]? = some state) :
    isLiveFlushOf tags flushTag victim = true ↔ state.flushing = some victim := by
  simp [isLiveFlushOf_iff, h]

/-- Every member of a flush set is outstanding as a flush of that tag. -/
def Flushes (tags : Tags) : Prop :=
  ∀ v target f, tags[v]? = some target → f ∈ target.flushedBy → isLiveFlushOf tags f v = true

/-- An answered tag is held by a flush, and its effect is over. -/
def Held (tags : Tags) : Prop :=
  ∀ (v : UInt16) target, tags[v]? = some target → target.answered = true →
    target.flushedBy.Nonempty ∧ target.effect = .none

theorem Held.erase (h : Held tags) (v : UInt16) : Held (tags.erase v) := by
  intro w target hw
  exact h w target (get_erase_eq_some.1 hw).2

/-- The flush was taken out of the table, and only its victim's set may still have it. -/
structure Missing (tags : Tags) (victim flushTag : UInt16) : Prop where
  gone : tags[flushTag]? = none
  live : ∀ v target f, tags[v]? = some target → f ∈ target.flushedBy → f ≠ flushTag →
    isLiveFlushOf tags f v = true
  only : ∀ (v : UInt16) target, tags[v]? = some target → flushTag ∈ target.flushedBy → v = victim

/-- The tags that go when a flush of `victim` is cancelled: those that were answered and
held for the one before them alone. -/
inductive Collected (tags : Tags) : UInt16 → UInt16 → UInt16 → Prop
  | here {victim flushTag : UInt16} {target : TagState} : tags[victim]? = some target →
      target.flushedBy = {flushTag} → target.answered = true →
      Collected tags victim flushTag victim
  | further {victim flushTag next x : UInt16} {target : TagState} : tags[victim]? = some target →
      target.flushedBy = {flushTag} → target.answered = true → target.flushing = some next →
      Collected tags next victim x → Collected tags victim flushTag x

open Classical in
noncomputable def strip (leaves : UInt16 → Prop) (state : TagState) : TagState :=
  { state with flushedBy := state.flushedBy.filter fun f => ¬ leaves f }

open Classical in
/-- The entry of a tag once the tags that leave are gone. -/
noncomputable def without (tags : Tags) (leaves : UInt16 → Prop) (x : UInt16) : Option TagState :=
  if leaves x then none else tags[x]?.map (strip leaves)

variable {leaves : UInt16 → Prop} {state target : TagState} {f x v : UInt16} {s : Session}

theorem without_congr {leaves' : UInt16 → Prop} (h : ∀ x, leaves x ↔ leaves' x) (x : UInt16) :
    without tags leaves x = without tags leaves' x := by
  have : leaves = leaves' := funext fun y => propext (h y)
  rw [this]

theorem mem_strip : f ∈ (strip leaves state).flushedBy ↔ f ∈ state.flushedBy ∧ ¬ leaves f := by
  simp [strip]

theorem strip_congr {leaves' : UInt16 → Prop} (h : ∀ f ∈ state.flushedBy, (leaves f ↔ leaves' f)) :
    strip leaves state = strip leaves' state := by
  unfold strip
  congr 1
  ext f
  simp only [mem_filter]
  exact and_congr_right fun hf => not_congr (h f hf)

theorem strip_self (h : ∀ f ∈ state.flushedBy, ¬ leaves f) : strip leaves state = state := by
  have hnone : ∀ f ∈ state.flushedBy, (leaves f ↔ False) := fun f hf => iff_false_intro (h f hf)
  rw [strip_congr hnone]
  simp [strip]

theorem without_some :
    without tags leaves x = some state ↔
      ¬ leaves x ∧ ∃ before, tags[x]? = some before ∧ strip leaves before = state := by
  unfold without
  by_cases h : leaves x
  · simp [h]
  · simp [h]

/-! ## Cancelling a flush -/

theorem Missing.liveFlushesOf_eq (h : Missing tags victim flushTag)
    (htarget : tags[victim]? = some target) :
    liveFlushesOf tags victim flushTag = target.flushedBy.erase flushTag := by
  unfold liveFlushesOf
  rw [htarget]
  ext f
  simp only [mem_filter, mem_erase]
  constructor
  · exact fun hf => ⟨hf.2.1, hf.1⟩
  · exact fun hf => ⟨hf.2, hf.1, h.live victim target f htarget hf.2 hf.1⟩

/-- A set with a member besides the missing flush keeps it. -/
theorem Missing.live_nonempty (h : Missing tags victim flushTag)
    (htarget : tags[victim]? = some target) (hmem : flushTag ∈ target.flushedBy)
    (hby : target.flushedBy ≠ {flushTag}) : (liveFlushesOf tags victim flushTag).Nonempty := by
  rw [h.liveFlushesOf_eq htarget, nonempty_iff_ne_empty]
  intro hempty
  apply hby
  rw [← insert_erase hmem, hempty]
  rfl

/-- A tag that is gone is missing from the set of the tag it flushes. -/
theorem missing_erase (hstate : tags[tag]? = some state) (hflushing : state.flushing = some flushed)
    (hlive : ∀ v target f, v ≠ tag → tags[v]? = some target → f ∈ target.flushedBy →
      isLiveFlushOf tags f v = true) : Missing (tags.erase tag) flushed tag where
  gone := get_erase_self tags tag
  live v target f hv hf hne := by
    obtain ⟨htag, hv⟩ := get_erase_eq_some.1 hv
    have hflush := hlive v target f (Ne.symm htag) hv hf
    rw [isLiveFlushOf_iff] at hflush ⊢
    rwa [get_erase, if_neg (Ne.symm hne)]
  only v target hv hf := by
    obtain ⟨htag, hv⟩ := get_erase_eq_some.1 hv
    have hflush := (isLiveFlushOf_of_get hstate).1 (hlive v target tag (Ne.symm htag) hv hf)
    rw [hflushing] at hflush
    exact (Option.some.inj hflush).symm

theorem Missing.erase (h : Missing tags victim flushTag) {next : UInt16}
    (htarget : tags[victim]? = some target) (hnext : target.flushing = some next) :
    Missing (tags.erase victim) next victim := by
  refine missing_erase htarget hnext fun v state f hne hv hf => h.live v state f hv hf ?_
  rintro rfl
  exact hne (h.only v state hv hf)

/-- A tag that is held for none of the flushes on the way is not on the way. -/
theorem collected_erase_of_ne (passed : UInt16 → Prop)
    (hpassed : ∀ (v : UInt16) state, tags[v]? = some state → passed v)
    (hne : ∀ f state, passed f → tags[victim]? = some state → state.flushedBy ≠ {f})
    (hf : passed f) : Collected (tags.erase victim) v f x ↔ Collected tags v f x := by
  constructor
  · intro h
    induction h with
    | here hv hby hanswered => exact .here (get_erase_eq_some.1 hv).2 hby hanswered
    | further hv hby hanswered hnext _ ih =>
      obtain ⟨-, hv⟩ := get_erase_eq_some.1 hv
      exact .further hv hby hanswered hnext (ih (hpassed _ _ hv))
  · intro h
    have hget : ∀ {v f : UInt16} {state : TagState}, passed f → tags[v]? = some state →
        state.flushedBy = {f} → (tags.erase victim)[v]? = some state := by
      intro v f state hf hv hby
      refine get_erase_eq_some.2 ⟨?_, hv⟩
      rintro rfl
      exact hne f state hf hv hby
    induction h with
    | here hv hby hanswered => exact .here (hget hf hv hby) hby hanswered
    | further hv hby hanswered hnext _ ih =>
      exact .further (hget hf hv hby) hby hanswered hnext (ih (hpassed _ _ hv))

/-- The chain never comes back to a tag that was held for the missing flush. -/
theorem collected_erase (hgone : tags[flushTag]? = none) (htarget : tags[victim]? = some target)
    (hby : target.flushedBy = {flushTag}) (hf : tags[f]? ≠ none) :
    Collected (tags.erase victim) v f x ↔ Collected tags v f x := by
  refine collected_erase_of_ne (fun f => tags[f]? ≠ none) (fun v state hv => ?_) ?_ hf
  · rw [hv]
    exact some_ne_none state
  · intro f state hf hstate heq
    cases htarget.symm.trans hstate
    rw [hby, singleton_inj] at heq
    subst heq
    exact hf hgone

theorem collected_erase_of_empty (htarget : tags[victim]? = some target)
    (hby : target.flushedBy = ∅) : Collected (tags.erase victim) v f x ↔ Collected tags v f x := by
  refine collected_erase_of_ne (fun _ => True) (fun _ _ _ => trivial) ?_ trivial
  intro f state _ hstate heq
  cases htarget.symm.trans hstate
  rw [hby] at heq
  exact singleton_ne_empty f heq.symm

theorem not_collected_of_ne (htarget : tags[victim]? = some target)
    (h : target.flushedBy ≠ {flushTag} ∨ target.answered = false) :
    ¬ Collected tags victim flushTag x := by
  intro hc
  cases hc with
  | here hv hby hanswered | further hv hby hanswered =>
    cases htarget.symm.trans hv
    rcases h with h | h
    · exact h hby
    · cases hanswered.symm.trans h

theorem not_collected_of_none (htarget : tags[victim]? = none) :
    ¬ Collected tags victim flushTag x := by
  intro hc
  cases hc with
  | here hv | further hv => simp [htarget] at hv

/-- Once the victim is known to go, what goes is the victim and what its own flush held. -/
theorem collected_iff (htarget : tags[victim]? = some target) (hby : target.flushedBy = {flushTag})
    (hanswered : target.answered = true) :
    Collected tags victim flushTag x ↔
      x = victim ∨ ∃ next, target.flushing = some next ∧ Collected tags next victim x := by
  constructor
  · intro hc
    cases hc with
    | here => exact .inl rfl
    | further hv _ _ hnext hrest =>
      cases htarget.symm.trans hv
      exact .inr ⟨_, hnext, hrest⟩
  · rintro (rfl | ⟨next, hnext, hrest⟩)
    · exact .here htarget hby hanswered
    · exact .further htarget hby hanswered hnext hrest

section

variable (h : Missing tags victim flushTag)
include h

theorem Missing.not_mem (hv : tags[v]? = some target) (hne : v ≠ victim) :
    flushTag ∉ target.flushedBy := by
  intro hf
  exact hne (h.only v target hv hf)

theorem Missing.ne (hx : tags[x]? = some state) : x ≠ flushTag := by
  rintro rfl
  cases h.gone.symm.trans hx

/-- When nothing is collected, the flush leaves its victim's set and that is all. -/
theorem Missing.get_of_kept (hnot : ∀ y, ¬ Collected tags victim flushTag y) {after : Tags}
    (hvictim : after[victim]? = tags[victim]?.map (strip fun y => y = flushTag))
    (hothers : ∀ x, x ≠ victim → after[x]? = tags[x]?) (x : UInt16) :
    after[x]? = without tags (fun y => y = flushTag ∨ Collected tags victim flushTag y) x := by
  have hleaves (y : UInt16) : y = flushTag ∨ Collected tags victim flushTag y ↔ y = flushTag := by
    simp [hnot y]
  rw [without_congr hleaves]
  unfold without
  by_cases hx : x = victim
  · subst hx
    rw [hvictim]
    by_cases hflush : x = flushTag
    · simp [hflush, h.gone]
    · rw [if_neg hflush]
  · rw [hothers x hx]
    cases hstate : tags[x]? with
    | none => simp
    | some state =>
      rw [if_neg (h.ne hstate), map_some, strip_self]
      rintro f hf rfl
      exact h.not_mem hstate hx hf

/-- When the victim goes, what leaves the table without it has left the table. -/
theorem Missing.without_erase (htarget : tags[victim]? = some target)
    (hby : target.flushedBy = {flushTag}) (x : UInt16) :
    without (tags.erase victim)
        (fun y => y = victim ∨
          ∃ next, target.flushing = some next ∧ Collected (tags.erase victim) next victim y) x =
      without tags (fun y => y = flushTag ∨ y = victim ∨
          ∃ next, target.flushing = some next ∧ Collected tags next victim y) x := by
  have hvictim : tags[victim]? ≠ none := by simp [htarget]
  simp only [collected_erase h.gone htarget hby hvictim]
  unfold without
  by_cases hx : x = victim ∨ ∃ next, target.flushing = some next ∧ Collected tags next victim x
  · simp [hx]
  · have hxv : victim ≠ x := fun heq => hx (.inl heq.symm)
    rw [if_neg hx, get_erase, if_neg hxv]
    cases hstate : tags[x]? with
    | none => simp
    | some state =>
      have hxf : x ≠ flushTag := h.ne hstate
      rw [if_neg (fun hor => hor.elim hxf hx), map_some, map_some]
      refine congrArg some (strip_congr fun f hf => ?_)
      have hff : f ≠ flushTag := by
        rintro rfl
        exact h.not_mem hstate (Ne.symm hxv) hf
      simp [hff]

end

theorem erase_of_flushing_none (htarget : tags[victim]? = some target)
    (hflushing : target.flushing = none)
    (hlive : ∀ (v : UInt16) state, tags[v]? = some state → victim ∈ state.flushedBy →
      isLiveFlushOf tags victim v = true) (x : UInt16) :
    (tags.erase victim)[x]? = without (tags.erase victim) (fun y => y = victim) x := by
  unfold without
  rw [get_erase]
  by_cases hx : victim = x
  · simp [hx]
  · rw [if_neg hx, if_neg (Ne.symm hx)]
    cases hstate : tags[x]? with
    | none => rfl
    | some state =>
      rw [map_some, strip_self]
      rintro f hf rfl
      have hflush := (isLiveFlushOf_of_get htarget).1 (hlive x state hstate hf)
      cases hflushing.symm.trans hflush

section

variable (h : Missing tags victim flushTag)
include h

theorem Missing.erase_of_none (htarget : tags[victim]? = some target)
    (hflushing : target.flushing = none) (x : UInt16) :
    (tags.erase victim)[x]? = without (tags.erase victim) (fun y => y = victim) x :=
  erase_of_flushing_none htarget hflushing
    (fun v state hv hf => h.live v state victim hv hf (h.ne htarget)) x

theorem Missing.strip_eq (htarget : tags[victim]? = some target) :
    { target with flushedBy := liveFlushesOf tags victim flushTag }
      = strip (fun y => y = flushTag) target := by
  rw [h.liveFlushesOf_eq htarget]
  congr 1
  ext f
  simp [and_comm]

/-- A cancelled flush takes out the tags that were held for it alone and leaves every set. -/
theorem cancelFlushRounds_get {rounds : Nat} (hsize : tags.size ≤ rounds) (x : UInt16) :
    (cancelFlushRounds rounds tags victim flushTag)[x]? =
      without tags (fun y => y = flushTag ∨ Collected tags victim flushTag y) x := by
  induction rounds generalizing tags victim flushTag with
  | zero =>
    have hempty : tags = ∅ := ExtTreeMap.eq_empty_iff_size_eq_zero.2 (by omega)
    subst hempty
    simp [cancelFlushRounds, without]
  | succ rounds ih =>
    unfold cancelFlushRounds
    cases htarget : tags[victim]? with
    | none =>
      refine h.get_of_kept (fun y => not_collected_of_none htarget) ?_ (fun _ _ => rfl) x
      rw [htarget]
      rfl
    | some target =>
      dsimp only
      by_cases hmem : flushTag ∉ target.flushedBy
      · rw [if_pos hmem]
        refine h.get_of_kept (fun y => not_collected_of_ne htarget (.inl ?_)) ?_ (fun _ _ => rfl) x
        · intro heq
          rw [heq] at hmem
          exact hmem (mem_singleton_self _)
        · rw [htarget, map_some, strip_self]
          rintro f hf rfl
          exact hmem hf
      rw [if_neg hmem]
      rw [not_not] at hmem
      by_cases hkeep : (liveFlushesOf tags victim flushTag).Nonempty ∨ target.answered = false
      · rw [if_pos hkeep]
        refine h.get_of_kept (fun y => not_collected_of_ne htarget (hkeep.imp_left ?_)) ?_ ?_ x
        · rw [h.liveFlushesOf_eq htarget]
          rintro ⟨f, hf⟩ heq
          rw [heq] at hf
          simp at hf
        · rw [get_insert, if_pos rfl, htarget, map_some, h.strip_eq htarget]
        · intro y hy
          rw [get_insert, if_neg (Ne.symm hy)]
      · rw [if_neg hkeep]
        rw [h.liveFlushesOf_eq htarget] at hkeep
        simp only [not_or, not_nonempty_iff_eq_empty, Bool.not_eq_false] at hkeep
        obtain ⟨hremaining, hanswered⟩ := hkeep
        have hby : target.flushedBy = {flushTag} := by
          rw [← insert_erase hmem, hremaining]
          rfl
        simp only [collected_iff htarget hby hanswered]
        rw [← h.without_erase htarget hby x]
        cases hflushing : target.flushing with
        | none =>
          rw [h.erase_of_none htarget hflushing]
          exact without_congr (fun y => by simp) x
        | some next =>
          have hsize' : (tags.erase victim).size ≤ rounds := by
            have := size_erase_of_some htarget
            omega
          rw [ih (h.erase htarget hflushing) hsize']
          exact without_congr (fun y => by simp) x

theorem cancelFlush_get (x : UInt16) :
    (cancelFlush tags victim flushTag)[x]? =
      without tags (fun y => y = flushTag ∨ Collected tags victim flushTag y) x :=
  cancelFlushRounds_get h (Nat.le_refl _) x

end

theorem cancelFlushRounds_held {rounds : Nat} (h : Held tags) :
    Held (cancelFlushRounds rounds tags victim flushTag) := by
  induction rounds generalizing tags victim flushTag with
  | zero => exact h
  | succ rounds ih =>
    unfold cancelFlushRounds
    cases htarget : tags[victim]? with
    | none => exact h
    | some target =>
      dsimp only
      split
      · exact h
      split
      · next hkeep =>
        intro v state hv hanswered
        rcases get_insert_eq_some.1 hv with ⟨rfl, rfl⟩ | ⟨-, hv⟩
        · dsimp only at hanswered
          refine ⟨hkeep.resolve_right (by simp [hanswered]), (h _ target htarget hanswered).2⟩
        · exact h v state hv hanswered
      · cases target.flushing with
        | none => exact h.erase victim
        | some next => exact ih (h.erase victim)

/-- The recursion of the source: every further call has one tag less. -/
theorem cancelFlush_eq (tags : Tags) (victim flushTag : UInt16) :
    cancelFlush tags victim flushTag =
      match tags[victim]? with
      | none => tags
      | some target =>
        if flushTag ∉ target.flushedBy then tags
        else
          let remaining := liveFlushesOf tags victim flushTag
          if remaining.Nonempty ∨ target.answered = false then
            tags.insert victim { target with flushedBy := remaining }
          else
            match target.flushing with
            | some next => cancelFlush (tags.erase victim) next victim
            | none => tags.erase victim := by
  cases htarget : tags[victim]? with
  | none =>
    unfold cancelFlush
    cases tags.size with
    | zero => rfl
    | succ n =>
      rw [cancelFlushRounds, htarget]
  | some target =>
    have hsize := size_erase_of_some htarget
    conv_lhs => unfold cancelFlush
    rw [hsize, cancelFlushRounds, htarget]
    rfl

/-! ## Retiring a tag -/

/-- The tags that leave with a tag that nothing flushes. An answered flush takes the tag it
flushes along if it is the last one; what is left of the chain is collected. -/
def Departs (tags : Tags) (tag : UInt16) (outcome : FlushOutcome) (x : UInt16) : Prop :=
  x = tag ∨ ∃ state flushed, tags[tag]? = some state ∧ state.flushing = some flushed ∧
    (Collected tags flushed tag x ∨
      outcome = .answered ∧ ∃ target, tags[flushed]? = some target ∧ target.flushedBy = {tag} ∧
        (x = flushed ∨ ∃ victim, target.flushing = some victim ∧ Collected tags victim flushed x))

theorem Flushes.missing (h : Flushes tags) (hstate : tags[tag]? = some state)
    (hflushing : state.flushing = some flushed) : Missing (tags.erase tag) flushed tag :=
  missing_erase hstate hflushing fun v target f _ => h v target f

theorem without_erase_of_leaves (h : leaves tag) (x : UInt16) :
    without (tags.erase tag) leaves x = without tags leaves x := by
  unfold without
  by_cases hx : leaves x
  · simp [hx]
  · rw [if_neg hx, if_neg hx, get_erase, if_neg]
    rintro rfl
    exact hx h

theorem undoReservation_tags (s : Session) (effect : Effect) :
    (s.undoReservation effect).tags = s.tags := by
  unfold undoReservation
  split <;> rfl

/-- A tag that is released, with its reservation undone unless it was answered. -/
abbrev released (s : Session) (target : TagState) (flushed : UInt16) : Session :=
  if target.answered then { s with tags := s.tags.erase flushed }
  else { s with tags := s.tags.erase flushed }.undoReservation target.effect

theorem released_tags (s : Session) (target : TagState) (flushed : UInt16) :
    (s.released target flushed).tags = s.tags.erase flushed := by
  unfold released
  split
  · rfl
  · exact undoReservation_tags _ _

/-- What leaves when a flush of `flushed` is answered. -/
theorem releaseFlushed_get (h : Missing s.tags flushed tag) (x : UInt16) :
    (s.releaseFlushed flushed tag).tags[x]? =
      without s.tags (fun y => y = tag ∨ ∃ target, s.tags[flushed]? = some target ∧
        target.flushedBy = {tag} ∧ (y = flushed ∨
          ∃ victim, target.flushing = some victim ∧ Collected s.tags victim flushed y)) x := by
  unfold releaseFlushed
  cases htarget : s.tags[flushed]? with
  | none =>
    have hnot (y : UInt16) : ¬ Collected s.tags flushed tag y := not_collected_of_none htarget
    rw [h.get_of_kept hnot (by rw [htarget]; rfl) (fun _ _ => rfl) x]
    exact without_congr (fun y => by simp [hnot y]) x
  | some target =>
    dsimp only
    by_cases hby : target.flushedBy = {tag}
    · have hlive : ¬ (liveFlushesOf s.tags flushed tag).Nonempty := by
        rw [h.liveFlushesOf_eq htarget, hby]
        simp
      rw [if_neg (by simp [hby]), if_neg hlive]
      have hleaves (y : UInt16) :
          (y = tag ∨ ∃ target', some target = some target' ∧ target'.flushedBy = {tag} ∧
            (y = flushed ∨ ∃ victim, target'.flushing = some victim ∧
              Collected s.tags victim flushed y)) ↔
          y = tag ∨ y = flushed ∨
            ∃ next, target.flushing = some next ∧ Collected s.tags next flushed y := by
        simp [hby]
      rw [without_congr hleaves, ← h.without_erase htarget hby x]
      cases hflushing : target.flushing with
      | none =>
        rw [released_tags, h.erase_of_none htarget hflushing]
        exact without_congr (fun y => by simp) x
      | some next =>
        rw [released_tags, cancelFlush_get (h.erase htarget hflushing)]
        exact without_congr (fun y => by simp) x
    · have hnot (y : UInt16) : ¬ Collected s.tags flushed tag y :=
        not_collected_of_ne htarget (.inl hby)
      have hleaves (y : UInt16) :
          (y = tag ∨ ∃ target', some target = some target' ∧ target'.flushedBy = {tag} ∧
            (y = flushed ∨ ∃ victim, target'.flushing = some victim ∧
              Collected s.tags victim flushed y)) ↔
          y = tag ∨ Collected s.tags flushed tag y := by
        simp [hby, hnot y]
      rw [without_congr hleaves]
      by_cases hmem : tag ∉ target.flushedBy
      · rw [if_pos hmem]
        refine h.get_of_kept hnot ?_ (fun _ _ => rfl) x
        rw [htarget, map_some, strip_self]
        rintro f hf rfl
        exact hmem hf
      · rw [if_neg hmem, if_pos]
        · refine h.get_of_kept hnot ?_ (fun y hy => ?_) x
          · rw [get_insert, if_pos rfl, htarget, map_some, h.strip_eq htarget]
          · rw [get_insert, if_neg (Ne.symm hy)]
        · exact h.live_nonempty htarget (not_not.1 hmem) hby

theorem releaseFlushed_held (h : Held s.tags) : Held (s.releaseFlushed flushed tag).tags := by
  unfold releaseFlushed
  cases htarget : s.tags[flushed]? with
  | none => exact h
  | some target =>
    dsimp only
    split
    · exact h
    split
    · next hlive =>
      intro v state hv hanswered
      rcases get_insert_eq_some.1 hv with ⟨rfl, rfl⟩ | ⟨-, hv⟩
      · exact ⟨hlive, (h _ target htarget hanswered).2⟩
      · exact h v state hv hanswered
    · have hundone := released_tags s target flushed ▸ h.erase flushed
      cases target.flushing with
      | none => exact hundone
      | some next => exact cancelFlushRounds_held hundone

/-- A tag that nothing flushes leaves the table with the tags that depart with it. -/
theorem retireTag_get (h : Flushes s.tags) (hstate : s.tags[tag]? = some state)
    (hempty : state.flushedBy = ∅) (outcome : FlushOutcome) (x : UInt16) :
    (s.retireTag tag state outcome).tags[x]? = without s.tags (Departs s.tags tag outcome) x := by
  have hself : Departs s.tags tag outcome tag := .inl rfl
  unfold retireTag
  rw [if_neg (by simp [hempty]), ← without_erase_of_leaves hself]
  cases hflushing : state.flushing with
  | none =>
    have hleaves (y : UInt16) : y = tag ↔ Departs s.tags tag outcome y := by
      simp [Departs, hstate, hflushing]
    rw [← without_congr hleaves]
    exact erase_of_flushing_none hstate hflushing (fun v target hv hf => h v target tag hv hf) x
  | some flushed =>
    have hmissing := h.missing hstate hflushing
    have hcollected {v f y : UInt16} :=
      collected_erase_of_empty (v := v) (f := f) (x := y) hstate hempty
    cases outcome with
    | cancelled =>
      rw [cancelFlush_get hmissing]
      refine without_congr (fun y => ?_) x
      rw [hcollected]
      simp [Departs, hstate, hflushing]
    | answered =>
      rw [releaseFlushed_get hmissing]
      refine without_congr (fun y => ?_) x
      have hget (target : TagState) (hby : target.flushedBy = {tag}) :
          (s.tags.erase tag)[flushed]? = some target ↔ s.tags[flushed]? = some target := by
        rw [get_erase_eq_some]
        refine and_iff_right_of_imp ?_
        rintro htarget rfl
        cases hstate.symm.trans htarget
        rw [hempty] at hby
        exact absurd hby.symm (singleton_ne_empty tag)
      unfold Departs
      simp only [hcollected]
      constructor
      · rintro (hy | ⟨target, htarget, hby, hrest⟩)
        · exact .inl hy
        · exact .inr ⟨state, flushed, hstate, hflushing,
            .inr ⟨trivial, target, (hget target hby).1 htarget, hby, hrest⟩⟩
      · rintro (hy | ⟨state', flushed', hstate', hflushing', hrest⟩)
        · exact .inl hy
        · cases hstate.symm.trans hstate'
          cases hflushing.symm.trans hflushing'
          rcases hrest with hc | ⟨_, target, htarget, hby, hrest⟩
          · -- A collected target is one that is released.
            cases hc with
            | here hv hby _ => exact .inr ⟨_, (hget _ hby).2 hv, hby, .inl rfl⟩
            | further hv hby _ hnext hrest =>
              exact .inr ⟨_, (hget _ hby).2 hv, hby, .inr ⟨_, hnext, hrest⟩⟩
          · exact .inr ⟨target, (hget target hby).2 htarget, hby, hrest⟩

theorem retireTag_held (h : Held s.tags) (hstate : s.tags[tag]? = some state)
    (outcome : FlushOutcome) : Held (s.retireTag tag state outcome).tags := by
  unfold retireTag
  split
  · next hlive =>
    obtain ⟨f, hf, _⟩ := hlive
    intro v target hv hanswered
    rw [get_modify] at hv
    split at hv
    · rw [hstate, map_some] at hv
      cases hv
      exact ⟨⟨f, hf⟩, rfl⟩
    · exact h v target hv hanswered
  · cases state.flushing with
    | none => exact h.erase tag
    | some flushed =>
      cases outcome with
      | cancelled => exact cancelFlushRounds_held (h.erase tag)
      | answered => exact releaseFlushed_held (h.erase tag)

theorem retireTag_of_flushed (h : Flushes s.tags) (hstate : s.tags[tag]? = some state)
    (hne : state.flushedBy.Nonempty) (outcome : FlushOutcome) :
    s.retireTag tag state outcome = { s with
      tags := s.tags.modify tag fun entry =>
        { entry with answered := true, effect := .none } } := by
  obtain ⟨f, hf⟩ := hne
  unfold retireTag
  rw [if_pos ⟨f, hf, h tag state f hstate hf⟩]

/-- The sessions differ in the tag table and the reservations alone. -/
def TablesOnly (s t : Session) : Prop :=
  t = { s with tags := t.tags, reservedFids := t.reservedFids }

theorem TablesOnly.trans {t u : Session} (h : TablesOnly s t) (h' : TablesOnly t u) :
    TablesOnly s u := by
  unfold TablesOnly at *
  rw [h', h]

section

variable (s : Session)

theorem tablesOnly_tags (tags : Tags) : TablesOnly s { s with tags } := rfl

theorem undoReservation_tablesOnly (effect : Effect) : TablesOnly s (s.undoReservation effect) := by
  unfold undoReservation
  split <;> rfl

theorem releaseFlushed_tablesOnly (flushed tag : UInt16) :
    TablesOnly s (s.releaseFlushed flushed tag) := by
  unfold releaseFlushed
  cases s.tags[flushed]? with
  | none => rfl
  | some target =>
    dsimp only
    split
    · rfl
    split
    · rfl
    · have hundone : TablesOnly s (s.released target flushed) := by
        unfold released
        split
        · rfl
        · exact (tablesOnly_tags s _).trans (undoReservation_tablesOnly _ _)
      cases target.flushing with
      | none => exact hundone
      | some next => exact hundone.trans (tablesOnly_tags _ _)

theorem retireTag_tablesOnly (tag : UInt16) (state : TagState)
    (outcome : FlushOutcome) : TablesOnly s (s.retireTag tag state outcome) := by
  unfold retireTag
  split
  · rfl
  · cases state.flushing with
    | none => rfl
    | some flushed =>
      cases outcome with
      | answered => exact (tablesOnly_tags s _).trans (releaseFlushed_tablesOnly _ _ _)
      | cancelled => rfl

/-! ## Reservations -/

theorem undoReservation_get (effect : Effect) (n : UInt32) :
    (s.undoReservation effect).reservedFids[n]? =
      if effect.reserves = some n then none else s.reservedFids[n]? := by
  unfold Effect.reserves
  cases effect with
  | attach fid => simp [undoReservation, get_erase]
  | walk origin generation newfid destination names reserved =>
    cases reserved with
    | true => simp [undoReservation, get_erase]
    | false => simp [undoReservation]
  | _ => simp [undoReservation]

end

theorem Collected.answered (h : Collected tags victim flushTag x) :
    ∃ target, tags[x]? = some target ∧ target.answered = true := by
  induction h with
  | here hv _ hanswered => exact ⟨_, hv, hanswered⟩
  | further _ _ _ _ _ ih => exact ih

theorem releaseFlushed_reserved (h : Missing s.tags flushed tag) (hheld : Held s.tags)
    (n : UInt32) :
    (s.releaseFlushed flushed tag).reservedFids[n]? =
      if ∃ target, s.tags[flushed]? = some target ∧ target.flushedBy = {tag} ∧
        target.effect.reserves = some n then none else s.reservedFids[n]? := by
  unfold releaseFlushed
  cases htarget : s.tags[flushed]? with
  | none => simp
  | some target =>
    dsimp only
    by_cases hby : target.flushedBy = {tag}
    · have hlive : ¬ (liveFlushesOf s.tags flushed tag).Nonempty := by
        rw [h.liveFlushesOf_eq htarget, hby]
        simp
      rw [if_neg (by simp [hby]), if_neg hlive]
      -- An answered target has no effect and so no reservation.
      have hundone : (s.released target flushed).reservedFids[n]? =
          if target.effect.reserves = some n then none else s.reservedFids[n]? := by
        unfold released
        by_cases hanswered : target.answered = true
        · rw [if_pos hanswered, (hheld _ _ htarget hanswered).2]
          simp [Effect.reserves]
        · rw [if_neg hanswered, undoReservation_get]
      have hsame : ((∃ target', some target = some target' ∧ target'.flushedBy = {tag} ∧
          target'.effect.reserves = some n) ↔ target.effect.reserves = some n) := by
        simp [hby]
      simp only [hsame]
      cases target.flushing with
      | none | some next => exact hundone
    · refine Eq.trans ?_ (if_neg (by simp [hby])).symm
      by_cases hmem : tag ∉ target.flushedBy
      · rw [if_pos hmem]
      · rw [if_neg hmem, if_pos (h.live_nonempty htarget (not_not.1 hmem) hby)]

open Classical in
/-- The reservations of the tags that depart with a tag go with them. -/
theorem retireTag_reserved (h : Flushes s.tags) (hheld : Held s.tags)
    (hstate : s.tags[tag]? = some state) (hempty : state.flushedBy = ∅) (outcome : FlushOutcome)
    (n : UInt32) :
    (s.retireTag tag state outcome).reservedFids[n]? =
      if ∃ y target, y ≠ tag ∧ Departs s.tags tag outcome y ∧ s.tags[y]? = some target ∧
        target.effect.reserves = some n then none else s.reservedFids[n]? := by
  -- Of the tags that depart only a released one can have a reservation.
  have hdeparts : (∃ y target, y ≠ tag ∧ Departs s.tags tag outcome y ∧ s.tags[y]? = some target ∧
      target.effect.reserves = some n) ↔
      outcome = .answered ∧ ∃ flushed target, state.flushing = some flushed ∧
        (s.tags.erase tag)[flushed]? = some target ∧ target.flushedBy = {tag} ∧
        target.effect.reserves = some n := by
    have hcollected {v f y : UInt16} {target : TagState} (hc : Collected s.tags v f y)
        (hy : s.tags[y]? = some target) (hn : target.effect.reserves = some n) : False := by
      obtain ⟨target', hy', hanswered⟩ := hc.answered
      cases hy.symm.trans hy'
      rw [(hheld _ _ hy hanswered).2] at hn
      cases hn
    constructor
    · rintro ⟨y, target, hne, hdep, hy, hn⟩
      rcases hdep with rfl | ⟨state', flushed, hstate', hflushing, hrest⟩
      · exact absurd rfl hne
      cases hstate.symm.trans hstate'
      rcases hrest with hc | ⟨houtcome, target', htarget', hby, rfl | ⟨victim, _, hc⟩⟩
      · exact (hcollected hc hy hn).elim
      · cases hy.symm.trans htarget'
        refine ⟨houtcome, y, target, hflushing, ?_, hby, hn⟩
        rw [get_erase, if_neg (Ne.symm hne)]
        exact hy
      · exact (hcollected hc hy hn).elim
    · rintro ⟨houtcome, flushed, target, hflushing, htarget, hby, hn⟩
      obtain ⟨hne, htarget⟩ := get_erase_eq_some.1 htarget
      exact ⟨flushed, target, Ne.symm hne,
        .inr ⟨state, flushed, hstate, hflushing, .inr ⟨houtcome, target, htarget, hby, .inl rfl⟩⟩,
        htarget, hn⟩
  simp only [hdeparts]
  unfold retireTag
  rw [if_neg (by simp [hempty])]
  cases hflushing : state.flushing with
  | none => simp
  | some flushed =>
    cases outcome with
    | cancelled => simp
    | answered =>
      rw [releaseFlushed_reserved (h.missing hstate hflushing) (hheld.erase tag)]
      simp

end Session

end AgentUplink.NineP
