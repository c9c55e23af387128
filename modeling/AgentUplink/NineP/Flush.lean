/-
What an answered flush is for: its victim is over.

`Served t` says that a flush of the request on `t` has been answered. Such a request has to
be gone once no flush of it is outstanding. A flush that was itself flushed when its reply
came is only marked as answered, and later leaves as a cancelled one, which releases
nothing; `Strands` describes the calls where that happens to the last flush of a request.
-/
import AgentUplink.NineP.Agreement

namespace AgentUplink.NineP

open Std Ledger List Option ExtTreeMap Finset

/-- The last request on `f` is a flush of `t`, admitted while the last request on `t` was
outstanding. -/
inductive Aimed (f t : UInt16) : History → Prop
  | now {seen : History} {call : Call} {s : Session} :
      call.admitted s = some ⟨f, .tflush t⟩ → s.tags[t]? ≠ none → Aimed f t (seen ++ [(call, s)])
  | later {seen : History} {call : Call} {s : Session} : Aimed f t seen →
      (∀ frame, call.admitted s = some frame → frame.tag ≠ f ∧ frame.tag ≠ t) →
      Aimed f t (seen ++ [(call, s)])

/-- The reply to a flush of the last request on `t` has been accepted. -/
inductive Served (t : UInt16) : History → Prop
  | now {seen : History} {frame : Frame} {s : Session} : Aimed frame.tag t seen →
      frame.messageType = .rflush → (Call.complete frame).succeeds s = true →
      Served t (seen ++ [(.complete frame, s)])
  | later {seen : History} {call : Call} {s : Session} : Served t seen →
      (∀ frame, call.admitted s = some frame → frame.tag ≠ t) → Served t (seen ++ [(call, s)])

/-- The number the last request on `t` reserved has been reserved ever since. -/
inductive Kept (t : UInt16) (n : UInt32) : History → Session → Prop
  | now {seen : History} {call : Call} {r s : Session} {frame : Frame} :
      call.admitted r = some frame → frame.tag = t → frame.message.reserves = some n →
      n ∈ s.reservedFids → Kept t n (seen ++ [(call, r)]) s
  | later {seen : History} {call : Call} {r s : Session} : Kept t n seen r →
      (∀ frame, call.admitted r = some frame → frame.tag ≠ t) → n ∈ s.reservedFids →
      Kept t n (seen ++ [(call, r)]) s

namespace Session

/-- Every request a flush of which was answered, and which no outstanding flush is for, is
over: its tag is free and its reservation gone. -/
def FlushesRelease (seen : History) (s : Session) : Prop :=
  ∀ t, Served t seen → (∀ f, isLiveFlushOf s.tags f t = false) →
    s.tags[t]? = none ∧ ∀ n, ¬ Kept t n seen s

/-- The call ends a request that nothing flushes, and with it goes the one outstanding flush
`x` of a request on `t` that has no reply of its own, a flush of which was answered before.
The reply to `x` itself would release `t`, if `x` was sent for the request now on `t`. -/
def Strands (seen : History) (s : Session) (call : Call) : Prop :=
  ∃ tag outcome state t target x, Settles s call tag outcome state ∧ state.flushedBy = ∅ ∧
    Served t seen ∧ s.tags[t]? = some target ∧ target.answered = false ∧ t ≠ tag ∧
    (∀ f, isLiveFlushOf s.tags f t = true ↔ f = x) ∧ Departs s.tags tag outcome x ∧
    ¬ (x = tag ∧ outcome = .answered ∧ x ∈ target.flushedBy)

/-! ## The tags that leave together -/

section Departs

variable {tags : Tags} {tag t : UInt16} {outcome : FlushOutcome}

theorem Collected.head {v f x : UInt16} (h : Collected tags v f x) : Collected tags v f v := by
  cases h with
  | here hv hby hanswered | further hv hby hanswered => exact .here hv hby hanswered

/-- Along a chain of flushes only the last one is for a tag outside it. -/
theorem chain_unique {a b y y' : UInt16} (ha : isLiveFlushOf tags a b = true)
    (hy : y = a ∨ Collected tags b a y) (hy' : y' = a ∨ Collected tags b a y')
    (ht : isLiveFlushOf tags y t = true) (ht' : isLiveFlushOf tags y' t = true)
    (hout : ¬ (t = a ∨ Collected tags b a t)) : y = y' := by
  have hone {x v w : UInt16} (hv : isLiveFlushOf tags x v = true)
      (hw : isLiveFlushOf tags x w = true) : v = w := by
    obtain ⟨state, hstate, hflushing⟩ := isLiveFlushOf_iff.1 hv
    rw [isLiveFlushOf_of_get hstate, hflushing] at hw
    exact Option.some.inj hw
  -- If the chain goes on after `a`, its next tag is `b`, which is in it.
  have hstart {a b z : UInt16} (ha : isLiveFlushOf tags a b = true)
      (hz : Collected tags b a z) (hat : isLiveFlushOf tags a t = true)
      (hout : ¬ (t = a ∨ Collected tags b a t)) : False := by
    cases hone ha hat
    exact hout (.inr hz.head)
  rcases hy with rfl | hy
  · rcases hy' with rfl | hy'
    · rfl
    · exact (hstart ha hy' ht hout).elim
  induction hy with
  | @here b a target hb hby hanswered =>
    rcases hy' with rfl | hy'
    · exact (hstart ha (.here hb hby hanswered) ht' hout).elim
    · cases hy' with
      | here => rfl
      | @further _ _ next _ target' hb' hby' hanswered' hnext hrest =>
        cases hb.symm.trans hb'
        refine (hstart ((isLiveFlushOf_of_get hb).2 hnext) hrest ht fun h => ?_).elim
        rcases h with rfl | h
        · exact hout (.inr (.here hb hby hanswered))
        · exact hout (.inr (.further hb hby hanswered hnext h))
  | @further b a next y target hb hby hanswered hnext hrest ih =>
    have hout' : ¬ (t = b ∨ Collected tags next b t) := by
      rintro (rfl | h)
      · exact hout (.inr (.here hb hby hanswered))
      · exact hout (.inr (.further hb hby hanswered hnext h))
    refine ih ((isLiveFlushOf_of_get hb).2 hnext) ?_ ht hout'
    rcases hy' with rfl | hy'
    · exact (hstart ha (.here hb hby hanswered) ht' hout).elim
    · cases hy' with
      | here => exact .inl rfl
      | further hb' _ _ hnext' hrest' =>
        cases hb.symm.trans hb'
        cases hnext.symm.trans hnext'
        exact .inr hrest'

theorem departs_unique {y y' : UInt16} (hy : Departs tags tag outcome y)
    (hy' : Departs tags tag outcome y') (ht : isLiveFlushOf tags y t = true)
    (ht' : isLiveFlushOf tags y' t = true) (hout : ¬ Departs tags tag outcome t) : y = y' := by
  by_cases hchain : ∃ state flushed, tags[tag]? = some state ∧ state.flushing = some flushed
  case neg =>
    have hfirst {z : UInt16} (hz : Departs tags tag outcome z) : z = tag := by
      rcases hz with rfl | ⟨state, flushed, hstate, hflushing, _⟩
      · rfl
      · exact absurd ⟨state, flushed, hstate, hflushing⟩ hchain
    rw [hfirst hy, hfirst hy']
  obtain ⟨state, flushed, htag, hflushing⟩ := hchain
  have hlive : isLiveFlushOf tags tag flushed = true := (isLiveFlushOf_of_get htag).2 hflushing
  have hrest {z : UInt16} : Departs tags tag outcome z ↔ z = tag ∨ Collected tags flushed tag z ∨
      outcome = .answered ∧ ∃ target, tags[flushed]? = some target ∧ target.flushedBy = {tag} ∧
        (z = flushed ∨
          ∃ victim, target.flushing = some victim ∧ Collected tags victim flushed z) := by
    unfold Departs
    simp [htag, hflushing]
  by_cases hreleased : outcome = .answered ∧
      ∃ target, tags[flushed]? = some target ∧ target.flushedBy = {tag}
  · -- The flushed tag goes too, and what its own flush holds.
    obtain ⟨houtcome, target, htarget, hby⟩ := hreleased
    have hafter {z : UInt16} : Departs tags tag outcome z ↔ z = tag ∨ z = flushed ∨
        ∃ victim, target.flushing = some victim ∧ Collected tags victim flushed z := by
      rw [hrest]
      refine or_congr_right ⟨?_, fun h => .inr ⟨houtcome, target, htarget, hby, h⟩⟩
      rintro (hc | ⟨_, target', htarget', _, h⟩)
      · cases hc with
        | here => exact .inl rfl
        | further hv _ _ hnext h =>
          cases htarget.symm.trans hv
          exact .inr ⟨_, hnext, h⟩
      · cases htarget.symm.trans htarget'
        exact h
    -- The first tag flushes the second, which leaves, so neither `y` nor `y'` is the first.
    have hnot {z : UInt16} (hz : isLiveFlushOf tags z t = true) : z ≠ tag := by
      rintro rfl
      rw [isLiveFlushOf_of_get htag, hflushing] at hz
      cases hz
      exact hout (hafter.2 (.inr (.inl rfl)))
    have hy := (hafter.1 hy).resolve_left (hnot ht)
    have hy' := (hafter.1 hy').resolve_left (hnot ht')
    cases hvictim : target.flushing with
    | none =>
      simp only [hvictim, reduceCtorEq, false_and, exists_false, or_false] at hy hy'
      rw [hy, hy']
    | some victim =>
      simp only [hvictim, Option.some.injEq, exists_eq_left'] at hy hy' hafter
      refine chain_unique ((isLiveFlushOf_of_get htarget).2 hvictim) hy hy' ht ht' ?_
      exact fun h => hout (hafter.2 (.inr h))
  · have hafter {z : UInt16} :
        Departs tags tag outcome z ↔ z = tag ∨ Collected tags flushed tag z := by
      rw [hrest]
      refine or_congr_right ⟨?_, .inl⟩
      rintro (hc | ⟨houtcome, target, htarget, hby, _⟩)
      · exact hc
      · exact absurd ⟨houtcome, target, htarget, hby⟩ hreleased
    exact chain_unique hlive (hafter.1 hy) (hafter.1 hy') ht ht' fun h => hout (hafter.2 h)

/-- A request with no reply of its own leaves only when it is answered, or when the last flush
of it is. -/
theorem departs_unanswered {target : TagState} (h : Departs tags tag outcome t)
    (ht : tags[t]? = some target) (hanswered : target.answered = false) :
    t = tag ∨ outcome = .answered ∧ target.flushedBy = {tag} := by
  have hcollected {v f : UInt16} (hc : Collected tags v f t) : False := by
    obtain ⟨target', ht', htrue⟩ := hc.answered
    cases ht.symm.trans ht'
    cases hanswered.symm.trans htrue
  rcases h with heq | ⟨_, flushed, _, _, hc | ⟨houtcome, target', htarget', hby, rfl | ⟨_, _, hc⟩⟩⟩
  · exact .inl heq
  · exact (hcollected hc).elim
  · cases ht.symm.trans htarget'
    exact .inr ⟨houtcome, hby⟩
  · exact (hcollected hc).elim

end Departs

/-! ## What the history says of the tables -/

/-- The flushes aimed at the request on a tag are in its flush set, and a reservation that was
kept has its request. -/
structure Aims (seen : History) (s : Session) : Prop where
  mem : ∀ (f t : UInt16) target, Aimed f t seen → s.tags[f]? ≠ none → s.tags[t]? = some target →
    f ∈ target.flushedBy
  aimed_ne : ∀ f t, Aimed f t seen → t ≠ notag
  served_ne : ∀ t, Served t seen → t ≠ notag
  kept : ∀ (t : UInt16) n, Kept t n seen s → t ≠ notag →
    ∃ state, s.tags[t]? = some state ∧ state.effect.reserves = some n

section Histories

variable {seen : History} {call : Call} {s : Session} {f t : UInt16} {n : UInt32}

theorem not_aimed_nil : ¬ Aimed f t [] := by
  generalize hseen : ([] : History) = seen
  rintro (_ | _) <;> simp at hseen

theorem not_served_nil : ¬ Served t [] := by
  generalize hseen : ([] : History) = seen
  rintro (_ | _) <;> simp at hseen

theorem not_kept_nil : ¬ Kept t n [] s := by
  generalize hseen : ([] : History) = seen
  rintro (_ | _) <;> simp at hseen

theorem aimed_append : Aimed f t (seen ++ [(call, s)]) ↔
    call.admitted s = some ⟨f, .tflush t⟩ ∧ s.tags[t]? ≠ none ∨
      Aimed f t seen ∧ ∀ frame, call.admitted s = some frame → frame.tag ≠ f ∧ frame.tag ≠ t := by
  constructor
  · generalize hseen : seen ++ [(call, s)] = seen'
    rintro (⟨hadmitted, ht⟩ | ⟨haimed, hother⟩) <;> obtain ⟨rfl, ⟨⟩⟩ := append_inj' hseen rfl
    · exact .inl ⟨hadmitted, ht⟩
    · exact .inr ⟨haimed, hother⟩
  · rintro (⟨hadmitted, ht⟩ | ⟨haimed, hother⟩)
    · exact .now hadmitted ht
    · exact .later haimed hother

theorem served_append : Served t (seen ++ [(call, s)]) ↔
    (∃ frame, call = .complete frame ∧ Aimed frame.tag t seen ∧ frame.messageType = .rflush ∧
      call.succeeds s = true) ∨
      Served t seen ∧ ∀ frame, call.admitted s = some frame → frame.tag ≠ t := by
  constructor
  · generalize hseen : seen ++ [(call, s)] = seen'
    rintro (⟨haimed, htype, hok⟩ | ⟨hserved, hother⟩) <;>
      obtain ⟨rfl, ⟨⟩⟩ := append_inj' hseen rfl
    · exact .inl ⟨_, rfl, haimed, htype, hok⟩
    · exact .inr ⟨hserved, hother⟩
  · rintro (⟨frame, rfl, haimed, htype, hok⟩ | ⟨hserved, hother⟩)
    · exact .now haimed htype hok
    · exact .later hserved hother

theorem kept_append {r : Session} : Kept t n (seen ++ [(call, r)]) s ↔
    n ∈ s.reservedFids ∧
      ((∃ frame, call.admitted r = some frame ∧ frame.tag = t ∧ frame.message.reserves = some n) ∨
        Kept t n seen r ∧ ∀ frame, call.admitted r = some frame → frame.tag ≠ t) := by
  constructor
  · generalize hseen : seen ++ [(call, r)] = seen'
    rintro (⟨hadmitted, htag, hn, hmem⟩ | ⟨hkept, hother, hmem⟩) <;>
      obtain ⟨rfl, ⟨⟩⟩ := append_inj' hseen rfl
    · exact ⟨hmem, .inl ⟨_, hadmitted, htag, hn⟩⟩
    · exact ⟨hmem, .inr ⟨hkept, hother⟩⟩
  · rintro ⟨hmem, ⟨frame, hadmitted, htag, hn⟩ | ⟨hkept, hother⟩⟩
    · exact .now hadmitted htag hn hmem
    · exact .later hkept hother hmem

end Histories

/-- `Aimed`, looking back from the latest call. -/
def aimedBack (f t : UInt16) : History → Bool
  | [] => false
  | (call, s) :: earlier =>
    match call.admitted s with
    | some frame =>
      if frame = ⟨f, .tflush t⟩ ∧ s.tags[t]?.isSome = true then true
      else if frame.tag = f ∨ frame.tag = t then false
      else aimedBack f t earlier
    | none => aimedBack f t earlier

variable {f t : UInt16} {seen : History} {s u : Session} {call : Call}

theorem aimedBack_iff : aimedBack f t seen.reverse = true ↔ Aimed f t seen := by
  induction seen using List.reverseRecOn with
  | nil => simpa [aimedBack] using not_aimed_nil
  | append_singleton seen step ih =>
    obtain ⟨call, s⟩ := step
    rw [reverse_append, reverse_singleton, singleton_append, aimedBack, aimed_append, ← ih]
    cases call.admitted s with
    | none => simp
    | some frame =>
      dsimp only
      by_cases hnow : frame = ⟨f, .tflush t⟩ ∧ s.tags[t]?.isSome = true
      · simp [hnow, isSome_iff_ne_none.1 hnow.2]
      · rw [if_neg hnow]
        rw [isSome_iff_ne_none] at hnow
        rw [some_inj, or_iff_right hnow]
        by_cases hother : frame.tag = f ∨ frame.tag = t
        · simp [hother, ← not_or]
        · simp [hother, ← not_or]

instance {f t : UInt16} {seen : History} : Decidable (Aimed f t seen) :=
  decidable_of_iff _ aimedBack_iff

/-- `Served`, looking back from the latest call. -/
def servedBack (t : UInt16) : History → Bool
  | [] => false
  | (call, s) :: earlier =>
    match call with
    | .complete frame =>
      decide (Aimed frame.tag t earlier.reverse ∧ frame.messageType = .rflush) && call.succeeds s ||
        servedBack t earlier
    | _ => decide ((call.admitted s).map Frame.tag ≠ some t) && servedBack t earlier

theorem servedBack_iff : servedBack t seen.reverse = true ↔ Served t seen := by
  induction seen using List.reverseRecOn with
  | nil => simpa [servedBack] using not_served_nil
  | append_singleton seen step ih =>
    obtain ⟨call, s⟩ := step
    rw [reverse_append, reverse_singleton, singleton_append, served_append, ← ih]
    cases call with
    | complete frame => simp [servedBack, Call.admitted, and_assoc]
    | request frame =>
      have hadmitted : (Call.admitted s (.request frame)).map Frame.tag ≠ some t ↔
          ∀ frame', Call.admitted s (.request frame) = some frame' → frame'.tag ≠ t := by
        cases Call.admitted s (.request frame) <;> simp
      simp [servedBack, hadmitted, and_comm]
    | fail tag | close => simp [servedBack, Call.admitted]

instance {t : UInt16} {seen : History} : Decidable (Served t seen) :=
  decidable_of_iff _ servedBack_iff

theorem aimed_of_none (hnone : call.admitted s = none) (h : Aimed f t (seen ++ [(call, s)])) :
    Aimed f t seen := by
  rcases aimed_append.1 h with ⟨hsome, _⟩ | ⟨haimed, _⟩
  · cases hnone.symm.trans hsome
  · exact haimed

theorem kept_of_none {r : Session} {n : UInt32} (hnone : call.admitted r = none)
    (h : Kept t n (seen ++ [(call, r)]) s) : Kept t n seen r ∧ s.reservedFids[n]? ≠ none := by
  obtain ⟨hmem, ⟨frame, hsome, _⟩ | ⟨hkept, _⟩⟩ := kept_append.1 h
  · cases hnone.symm.trans hsome
  · exact ⟨hkept, isSome_iff_ne_none.1 (isSome_getElem?_iff_mem.2 hmem)⟩

theorem Accepts.aims {frame : Frame} (h : Accepts s frame u) (hcall : call.admitted s = some frame)
    (ha : Aims seen s) (hr : Recorded seen s) (hru : Recorded (seen ++ [(call, s)]) u) :
    (∀ (f t : UInt16) target, Aimed f t (seen ++ [(call, s)]) → u.tags[f]? ≠ none →
      u.tags[t]? = some target → f ∈ target.flushedBy) ∧
    ∀ (t : UInt16) n, Kept t n (seen ++ [(call, s)]) u → t ≠ notag →
      ∃ state, u.tags[t]? = some state ∧ state.effect.reserves = some n := by
  obtain ⟨_, _, hadmitted, hreserves, henters⟩ := h
  have htags := hreserves.tags_eq
  -- A tag other than the new one was outstanding before.
  have hold {x : UInt16} {after : TagState} (hx : x ≠ frame.tag)
      (hafter : _ = some after) := (henters.tag_cases (x := x) hafter).resolve_right
        fun h => hx h.1
  constructor
  · intro f t target haimed hf ht
    rcases aimed_append.1 haimed with ⟨hnow, houtstanding⟩ | ⟨hbefore, hother⟩
    · cases hcall.symm.trans hnow
      have hne : t ≠ f := by
        rintro rfl
        cases henters with
        | handshake htag =>
          have heq : t = notag := htag
          exact houtstanding (heq ▸ hr.handshake)
        | tag _ hfree => exact houtstanding (htags ▸ hfree)
      obtain ⟨before, _, _, hmem⟩ := hold hne ht
      refine (hmem f).2 (.inr ⟨?_, rfl, rfl⟩)
      rintro rfl
      exact hf hru.handshake
    · obtain ⟨hnef, hnet⟩ := hother frame hcall
      obtain ⟨after, hafter⟩ := ne_none_iff_exists'.1 hf
      obtain ⟨flush, hflush, _⟩ := hold (Ne.symm hnef) hafter
      obtain ⟨before, htbefore, _, hmem⟩ := hold (Ne.symm hnet) ht
      rw [htags] at hflush htbefore
      exact (hmem f).2 (.inl (ha.mem f t before hbefore (by simp [hflush]) htbefore))
  · intro t n hkept hne
    obtain ⟨hmem, ⟨frame', hnow, htag, hn⟩ | ⟨hbefore, hother⟩⟩ := kept_append.1 hkept
    · cases hcall.symm.trans hnow
      subst htag
      exact ⟨_, henters.get_new hne, hadmitted.reserves.trans hn⟩
    · obtain ⟨state, hstate, hn⟩ := ha.kept t n hbefore hne
      rw [← htags] at hstate
      obtain ⟨after, hafter, _⟩ := henters.get_of_some hstate
      obtain ⟨before, hbefore, heq, _⟩ := hold (Ne.symm (hother frame hcall)) hafter
      cases hstate.symm.trans hbefore
      exact ⟨after, hafter, by rw [heq]; exact hn⟩

section

variable {tag : UInt16} {outcome : FlushOutcome} {state : TagState} (hs : Sound s)
  (hsettles : Settles s call tag outcome state) (happlied : Applied state.effect s u)

include hs hsettles happlied

theorem settle_aims (ha : Aims seen s) {target : TagState} (haimed : Aimed f t seen)
    (hf : (u.settle tag state outcome).tags[f]? ≠ none)
    (ht : (u.settle tag state outcome).tags[t]? = some target) : f ∈ target.flushedBy := by
  obtain ⟨after, hafter⟩ := ne_none_iff_exists'.1 hf
  by_cases hempty : state.flushedBy = ∅
  · rw [settle_get hs.tags hsettles.get happlied hempty, without_some] at hafter ht
    obtain ⟨hstays, flush, hflush, _⟩ := hafter
    obtain ⟨_, before, hbefore, rfl⟩ := ht
    exact mem_strip.2 ⟨ha.mem f t before haimed (by simp [hflush]) hbefore, hstays⟩
  · have hne := nonempty_iff_ne_empty.2 hempty
    obtain ⟨flush, hflush, _⟩ := settle_follows hs.tags hsettles.get happlied hafter
    rw [settle_get_of_flushed hs.tags hsettles.get happlied hne] at ht
    split at ht
    · next heq =>
      cases ht
      subst heq
      exact ha.mem f _ state haimed (by simp [hflush]) hsettles.get
    · exact ha.mem f t target haimed (by simp [hflush]) ht

theorem settle_live (hempty : state.flushedBy = ∅) (f t : UInt16) :
    isLiveFlushOf (u.settle tag state outcome).tags f t = true ↔
      isLiveFlushOf s.tags f t = true ∧ ¬ Departs s.tags tag outcome f := by
  simp only [isLiveFlushOf_iff, settle_get hs.tags hsettles.get happlied hempty, without_some]
  constructor
  · rintro ⟨after, ⟨hstays, before, hbefore, rfl⟩, hflushing⟩
    exact ⟨⟨before, hbefore, hflushing⟩, hstays⟩
  · rintro ⟨⟨before, hbefore, hflushing⟩, hstays⟩
    exact ⟨_, ⟨hstays, before, hbefore, rfl⟩, hflushing⟩

theorem settle_live_of_flushed (hne : state.flushedBy.Nonempty) (f t : UInt16) :
    isLiveFlushOf (u.settle tag state outcome).tags f t = true ↔
      isLiveFlushOf s.tags f t = true := by
  simp only [isLiveFlushOf_iff, settle_get_of_flushed hs.tags hsettles.get happlied hne]
  by_cases hf : tag = f
  · subst hf
    simp [hsettles.get]
  · simp [hf]

theorem Strands.not_release (hstrands : Strands seen s call) :
    ∃ t, Served t (seen ++ [(call, s)]) ∧ (u.settle tag state outcome).tags[t]? ≠ none ∧
      ∀ f, ¬ isLiveFlushOf (u.settle tag state outcome).tags f t = true := by
  obtain ⟨tag', outcome', state', t, target, x, hsettles', hempty, hserved, ht, hanswered, hne,
    honly, hdeparts, hnot⟩ := hstrands
  obtain ⟨rfl, rfl⟩ : tag' = tag ∧ outcome' = outcome := by
    cases hsettles <;> cases hsettles' <;> exact ⟨rfl, rfl⟩
  have hstate := hsettles.get
  cases hsettles'.get.symm.trans hstate
  have hstays : ¬ Departs s.tags tag' outcome' t := by
    intro h
    rcases departs_unanswered h ht hanswered with heq | ⟨houtcome, hby⟩
    · exact hne heq
    · -- The flush that released `t` would be `x`, answered itself.
      have hmem : tag' ∈ target.flushedBy := by simp [hby]
      have hx := (honly tag').1 (hs.tags.flushes t target tag' ht hmem)
      exact hnot ⟨hx.symm, houtcome, hx ▸ hmem⟩
  refine ⟨t, .later hserved fun frame hframe => ?_, ?_, fun f hf => ?_⟩
  · cases hsettles.admitted.symm.trans hframe
  · rw [settle_get hs.tags hsettles.get happlied hempty, without, if_neg hstays, ht]
    simp
  · obtain ⟨hlive, hkept⟩ := (settle_live hs hsettles happlied hempty f t).1 hf
    rw [(honly f).1 hlive] at hkept
    exact hkept hdeparts

/-- Without a stranded request, a served one that stays has a flush outstanding. -/
theorem retired_release (ha : Aims seen s)
    (hbefore : ∀ t, Served t seen → s.tags[t]? ≠ none → ∃ f, isLiveFlushOf s.tags f t = true)
    (hnot : ¬ Strands seen s call) {t : UInt16} (hserved : Served t (seen ++ [(call, s)]))
    (ht : (u.settle tag state outcome).tags[t]? ≠ none) :
    ∃ f, isLiveFlushOf (u.settle tag state outcome).tags f t = true := by
  obtain ⟨after, hafter⟩ := ne_none_iff_exists'.1 ht
  obtain ⟨target, htarget, hfollows⟩ := settle_follows hs.tags hsettles.get happlied hafter
  -- The reply that serves `t` is that of the flush on `tag`, which is in the flush set of `t`.
  have hnow (hnew : ¬ Served t seen) : outcome = .answered ∧ tag ∈ target.flushedBy := by
    rcases served_append.1 hserved with ⟨frame, rfl, haimed, _⟩ | ⟨hold, _⟩
    · obtain ⟨rfl, houtcome, _⟩ := hsettles.complete_eq
      exact ⟨houtcome, ha.mem _ t target haimed (by simp [hsettles.get]) htarget⟩
    · exact absurd hold hnew
  by_cases hempty : state.flushedBy = ∅
  · simp only [settle_live hs hsettles happlied hempty]
    rw [settle_get hs.tags hsettles.get happlied hempty, without_some] at hafter
    obtain ⟨hstays, target', htarget', rfl⟩ := hafter
    cases htarget.symm.trans htarget'
    have hlive {f : UInt16} (hf : f ∈ target.flushedBy) : isLiveFlushOf s.tags f t = true :=
      hs.tags.flushes t target f htarget hf
    by_cases hold : Served t seen
    · by_contra hnone
      rw [not_exists] at hnone
      have hleave {f : UInt16} (hf : isLiveFlushOf s.tags f t = true) :
          Departs s.tags tag outcome f := by
        by_contra hkept
        exact hnone f ⟨hf, hkept⟩
      obtain ⟨x, hx⟩ := hbefore t hold (by simp [htarget])
      refine hnot ⟨tag, outcome, state, t, target, x, hsettles, hempty, hold, htarget, ?_, ?_,
        fun f => ⟨fun hf => departs_unique (hleave hf) (hleave hx) hf hx hstays, ?_⟩, hleave hx, ?_⟩
      · -- An answered tag is held by a flush that stays.
        rw [← Bool.not_eq_true]
        intro hanswered
        have hsound : Sound (u.settle tag state outcome) := settle_sound hs hsettles.get happlied
        have hheld := hsound.tags.held t
        rw [settle_get hs.tags hsettles.get happlied hempty] at hheld
        obtain ⟨⟨f, hf⟩, _⟩ := hheld _ (without_some.2 ⟨hstays, target, htarget, rfl⟩) hanswered
        obtain ⟨hmem, hkept⟩ := mem_strip.1 hf
        exact hkept (hleave (hlive hmem))
      · intro heq
        exact hstays (.inl heq)
      · rintro rfl
        exact hx
      · rintro ⟨rfl, houtcome, hmem⟩
        obtain ⟨flush, hflush, hflushing⟩ := isLiveFlushOf_iff.1 hx
        refine hstays (.inr ⟨flush, t, hflush, hflushing, .inr ⟨houtcome, target, htarget, ?_,
          .inl rfl⟩⟩)
        refine eq_singleton_iff_unique_mem.2 ⟨hmem, fun f hf => ?_⟩
        exact departs_unique (hleave (hlive hf)) (hleave hx) (hlive hf) hx hstays
    · obtain ⟨houtcome, hmem⟩ := hnow hold
      obtain ⟨flush, hflush, hflushing⟩ := isLiveFlushOf_iff.1 (hlive hmem)
      -- Another flush of `t` is outstanding, or `t` would have been released.
      obtain ⟨f, hf, hne⟩ : ∃ f ∈ target.flushedBy, f ≠ tag := by
        by_contra hall
        push Not at hall
        exact hstays (.inr ⟨flush, t, hflush, hflushing, .inr ⟨houtcome, target, htarget,
          eq_singleton_iff_unique_mem.2 ⟨hmem, hall⟩, .inl rfl⟩⟩)
      refine ⟨f, hlive hf, fun hdeparts => hne ?_⟩
      exact departs_unique hdeparts (.inl rfl) (hlive hf) (hlive hmem) hstays
  · simp only [settle_live_of_flushed hs hsettles happlied (nonempty_iff_ne_empty.2 hempty)]
    by_cases hold : Served t seen
    · exact hbefore t hold (by simp [htarget])
    · exact ⟨tag, hs.tags.flushes t target tag htarget (hnow hold).2⟩

end

theorem Turn.aims (h : Turn s call u) (hs : Sound s) (hr : Recorded seen s) (ha : Aims seen s) :
    Aims (seen ++ [(call, s)]) u := by
  have hru := h.recorded hs hr
  have haimed_ne (f t : UInt16) (haimed : Aimed f t (seen ++ [(call, s)])) : t ≠ notag := by
    rcases aimed_append.1 haimed with ⟨_, houtstanding⟩ | ⟨hbefore, _⟩
    · rintro rfl
      exact houtstanding hr.handshake
    · exact ha.aimed_ne f t hbefore
  have hserved_ne (t : UInt16) (hserved : Served t (seen ++ [(call, s)])) : t ≠ notag := by
    rcases served_append.1 hserved with ⟨frame, _, haimed, _⟩ | ⟨hbefore, _⟩
    · exact ha.aimed_ne _ t haimed
    · exact ha.served_ne t hbefore
  cases h with
  | same hnone =>
    refine ⟨fun f t target haimed => ha.mem f t target (aimed_of_none hnone haimed), haimed_ne,
      hserved_ne, fun t n hkept => ha.kept t n (kept_of_none hnone hkept).1⟩
  | admitted hcall haccepts =>
    obtain ⟨hmem, hkept⟩ := haccepts.aims hcall ha hr hru
    exact ⟨hmem, haimed_ne, hserved_ne, hkept⟩
  | versioned =>
    refine ⟨fun f t target haimed => ha.mem f t target (aimed_of_none rfl haimed), haimed_ne,
      hserved_ne, fun t n hkept => ha.kept t n (kept_of_none rfl hkept).1⟩
  | retired hsettles happlied =>
    refine ⟨fun f t target haimed => settle_aims hs hsettles happlied ha
      (aimed_of_none hsettles.admitted haimed), haimed_ne, hserved_ne, fun t n hkept hne => ?_⟩
    obtain ⟨hbefore, hreserved⟩ := kept_of_none hsettles.admitted hkept
    obtain ⟨target, htarget, hn⟩ := ha.kept t n hbefore hne
    obtain ⟨after, hafter, heffect, _⟩ :=
      settle_stays hs.tags hsettles.get happlied htarget hn hreserved
    exact ⟨after, hafter, heffect ▸ hn⟩
  | closed =>
    refine ⟨fun f t target _ hf => absurd (by simp [close]) hf, haimed_ne, hserved_ne,
      fun t n hkept _ => ?_⟩
    exact absurd (by simp [close]) (kept_of_none rfl hkept).2

/-! ## Steps -/

theorem flushesRelease_iff (ha : Aims seen s) :
    FlushesRelease seen s ↔ ∀ t, Served t seen → s.tags[t]? ≠ none →
      ∃ f, isLiveFlushOf s.tags f t = true := by
  constructor
  · intro h t hserved ht
    by_contra hnone
    rw [not_exists] at hnone
    exact ht (h t hserved fun f => Bool.not_eq_true _ ▸ hnone f).1
  · intro h t hserved hlive
    have hgone : s.tags[t]? = none := by
      by_contra ht
      obtain ⟨f, hf⟩ := h t hserved ht
      rw [hlive f] at hf
      cases hf
    refine ⟨hgone, fun n hkept => ?_⟩
    obtain ⟨state, hstate, _⟩ := ha.kept t n hkept (ha.served_ne t hserved)
    cases hgone.symm.trans hstate

theorem settles_of_rflush {frame : Frame} (htype : frame.messageType = .rflush)
    (hok : (Call.complete frame).succeeds s = true) :
    ∃ state, Settles s (.complete frame) frame.tag .answered state := by
  by_contra hnot
  rw [not_exists] at hnot
  cases hcomplete : s.complete frame with
  | none => simp [Call.succeeds, Call.exec, hcomplete] at hok
  | some result =>
    simp only [Call.succeeds, Call.exec, hcomplete, map_some, any_some] at hok
    rcases complete_of_not_settles hnot hcomplete with ⟨_, hfalse⟩ | ⟨_, hversion, _⟩
    · cases hfalse.symm.trans hok
    · cases htype.symm.trans hversion

/-- From a state where answered flushes have released their victims, a call keeps that unless
it strands a request. -/
theorem flushesRelease_step (hs : Sound s) (hr : Recorded seen s) (ha : Aims seen s)
    (hbefore : FlushesRelease seen s) (hnext : call.next s = some u) :
    FlushesRelease (seen ++ [(call, s)]) u ↔ ¬ Strands seen s call := by
  have hturn := turn_of_next hnext
  have hau := hturn.aims hs hr ha
  rw [flushesRelease_iff ha] at hbefore
  rw [flushesRelease_iff hau]
  -- A step that ends no request serves no flush and strands nothing.
  have hserved (hnone : ∀ tag outcome state, ¬ Settles s call tag outcome state) {t : UInt16}
      (h : Served t (seen ++ [(call, s)])) :
      Served t seen ∧ ∀ frame, call.admitted s = some frame → frame.tag ≠ t := by
    rcases served_append.1 h with ⟨frame, rfl, _, htype, hok⟩ | hold
    · obtain ⟨state, hsettles⟩ := settles_of_rflush htype hok
      exact absurd hsettles (hnone _ _ _)
    · exact hold
  have hkeeps (hnone : ∀ tag outcome state, ¬ Settles s call tag outcome state)
      (h : ∀ t, Served t seen → (∀ frame, call.admitted s = some frame → frame.tag ≠ t) →
        u.tags[t]? ≠ none → ∃ f, isLiveFlushOf u.tags f t = true) :
      (∀ t, Served t (seen ++ [(call, s)]) → u.tags[t]? ≠ none →
        ∃ f, isLiveFlushOf u.tags f t = true) ↔ ¬ Strands seen s call := by
    refine iff_of_true (fun t ht => ?_) ?_
    · obtain ⟨hold, hother⟩ := hserved hnone ht
      exact h t hold hother
    · rintro ⟨tag, outcome, state, _, _, _, hsettles, _⟩
      exact hnone tag outcome state hsettles
  cases hturn with
  | same _ hnone => exact hkeeps hnone fun t hold _ ht => hbefore t hold ht
  | @admitted frame _ hcall haccepts =>
    refine hkeeps (fun _ _ _ h => nomatch h) fun t hold hother ht => ?_
    obtain ⟨_, _, _, hreserves, henters⟩ := haccepts
    obtain ⟨after, hafter⟩ := ne_none_iff_exists'.1 ht
    rcases henters.tag_cases hafter with ⟨before, hbefore', _⟩ | ⟨heq, _⟩
    · rw [hreserves.tags_eq] at hbefore'
      obtain ⟨f, hf⟩ := hbefore t hold (by simp [hbefore'])
      obtain ⟨flush, hflush, hflushing⟩ := isLiveFlushOf_iff.1 hf
      rw [← hreserves.tags_eq] at hflush
      obtain ⟨flush', hflush', hsame⟩ := henters.get_of_some hflush
      exact ⟨f, isLiveFlushOf_iff.2 ⟨flush', hflush', hsame.trans hflushing⟩⟩
    · exact absurd heq.symm (hother frame hcall)
  | @versioned frame msize hphase htype =>
    refine hkeeps (fun tag outcome state h => ?_) fun t hold _ ht => hbefore t hold ht
    cases h with
    | reply _ _ hne => exact hne htype
  | retired hsettles happlied =>
    constructor
    · intro h hstrands
      obtain ⟨t, hserved', ht, hnone⟩ := hstrands.not_release hs hsettles happlied
      obtain ⟨f, hf⟩ := h t hserved' ht
      exact hnone f hf
    · intro hnot t hserved' ht
      exact retired_release hs hsettles happlied ha hbefore hnot hserved' ht
  | closed =>
    refine hkeeps (fun _ _ _ h => nomatch h) fun t _ _ ht => absurd (by simp [close]) ht

/-! ## Runs -/

theorem new_aims : Aims [] s :=
  ⟨fun _ _ _ h => absurd h not_aimed_nil, fun _ _ h => absurd h not_aimed_nil,
    fun _ h => absurd h not_served_nil, fun _ _ h => absurd h not_kept_nil⟩

theorem reach_aims {grant : Fs.CapabilitySet} {features : Fs.FeatureSet} {limits : Fs.Limits}
    {s₀ : Session} (hnew : Session.new grant features limits = some s₀)
    (hrun : Trace.Reach Call.next s₀ seen s) : Aims seen s := by
  refine hrun.invariant Aims new_aims fun seen s call t hreach ih hnext => ?_
  have hreached := reached hnew hreach
  exact (turn_of_next hnext).aims hreached.sound hreached.recorded ih

/-- A point of a run: the calls made by then and the session they have led to. -/
def Point (seen : History) (s : Session) (before : History) (r : Session) : Prop :=
  before = seen ∧ r = s ∨ ∃ call after, seen = before ++ (call, r) :: after

theorem append_singleton_eq {α : Type} {l l' before : List α} {x y : α} :
    l ++ [x] = before ++ y :: l' ↔
      l' = [] ∧ l = before ∧ x = y ∨ ∃ rest, l' = rest ++ [x] ∧ l = before ++ y :: rest := by
  rcases eq_nil_or_concat' l' with rfl | ⟨rest, z, rfl⟩
  · simp
  · rw [← cons_append, ← append_assoc, append_singleton_inj]
    simp [and_comm, eq_comm (a := z)]

/-- Throughout a run answered flushes have released their victims, exactly when no call of the
run strands a request. -/
theorem answered_flush_releases_iff (grant : Fs.CapabilitySet) (features : Fs.FeatureSet)
    (limits : Fs.Limits) (s₀ s : Session) (seen : History)
    (hnew : Session.new grant features limits = some s₀) (hrun : Trace.Reach Call.next s₀ seen s) :
    (∀ before r, Point seen s before r → FlushesRelease before r) ↔
      ∀ before call r after, seen = before ++ (call, r) :: after → ¬ Strands before r call := by
  induction hrun with
  | start =>
    refine iff_of_true ?_ ?_
    · rintro before r (⟨rfl, rfl⟩ | ⟨call, after, heq⟩)
      · exact fun t h => absurd h not_served_nil
      · simp at heq
    · intro before call r after heq
      simp at heq
  | @step seen s u call hreach hnext ih =>
    have hreached := reached hnew hreach
    have hstep (h : FlushesRelease seen s) :=
      flushesRelease_step hreached.sound hreached.recorded (reach_aims hnew hreach) h hnext
    have hpoint (before : History) (r : Session) : Point (seen ++ [(call, s)]) u before r ↔
        before = seen ++ [(call, s)] ∧ r = u ∨ Point seen s before r := by
      simp [Point, append_singleton_eq, exists_or, eq_comm (a := r), eq_comm (a := before)]
    simp only [hpoint, append_singleton_eq, or_imp, forall_and, and_imp, forall_eq,
      forall_exists_index, Prod.mk.injEq]
    constructor
    · rintro ⟨hlast, hearlier⟩
      refine ⟨?_, fun _ _ _ _ _ _ => ih.1 hearlier _ _ _ _⟩
      rintro _ _ _ rfl rfl rfl
      exact (hstep (hearlier _ _ (.inl ⟨rfl, rfl⟩))).1 (hlast _ _ rfl rfl)
    · rintro ⟨hlast, hcalls⟩
      have hearlier := ih.2 fun _ _ _ _ => hcalls _ _ _ _ _ rfl
      refine ⟨?_, hearlier⟩
      rintro _ _ rfl rfl
      exact (hstep (hearlier _ _ (.inl ⟨rfl, rfl⟩))).2 (hlast _ _ _ rfl rfl rfl)

theorem answered_flush_releases_walk : ∃ seen s,
    Trace.Reach Call.next granted seen s ∧ Served 2 seen ∧
      ((∀ before r, Point seen s before r → FlushesRelease before r) ↔
        ∀ before call r after, seen = before ++ (call, r) :: after → ¬ Strands before r call) := by
  -- The flush of the flush fails first, so the flush is answered with nothing against it.
  have hrun : (Trace.replay Call.next granted
      (flushedFlush ++ [.fail 4, .complete ⟨3, .rflush⟩])).map
        (fun run => decide (Served 2 run.1)) = some true := by decide +kernel
  obtain ⟨⟨seen, s⟩, hreplay, hserved⟩ := map_eq_some_iff.1 hrun
  have hreach := Trace.reach_of_replay hreplay
  exact ⟨seen, s, hreach, of_decide_eq_true hserved,
    answered_flush_releases_iff _ _ _ _ _ _ new_granted hreach⟩

/-- The flush of the walk is answered while it is flushed itself, and then its own flush is
answered. No flush is outstanding, and the walk keeps its tag and its fid. -/
theorem answered_flush_strands_walk : ∃ seen s,
    Trace.Reach Call.next granted seen s ∧
      (seen.all fun (call, r) => call.succeeds r) = true ∧
      Served 2 seen ∧ (∀ f, isLiveFlushOf s.tags f 2 = false) ∧ 2 ∈ s.tags ∧
      1 ∈ s.reservedFids := by
  have hrun : (Trace.replay Call.next granted
      (flushedFlush ++ [.complete ⟨3, .rflush⟩, .complete ⟨4, .rflush⟩])).map (fun run =>
        ((run.1.all fun (call, r) => call.succeeds r), decide (Served 2 run.1),
          (run.2.tags.toList.all fun entry => entry.2.flushing != some 2),
          run.2.tags.contains 2, run.2.reservedFids.contains 1)) =
      some (true, true, true, true, true) := by decide +kernel
  obtain ⟨⟨seen, s⟩, hreplay, hfacts⟩ := map_eq_some_iff.1 hrun
  simp only [Prod.mk.injEq, decide_eq_true_eq] at hfacts
  obtain ⟨hsucceed, hserved, hlive, htag, hfid⟩ := hfacts
  refine ⟨seen, s, Trace.reach_of_replay hreplay, hsucceed, hserved, fun f => ?_,
    contains_iff_mem.1 htag, contains_iff_mem.1 hfid⟩
  rw [← Bool.not_eq_true, isLiveFlushOf_iff]
  rintro ⟨flush, hflush, hflushing⟩
  have hother := all_eq_true.1 hlive _ (mem_toList_iff_getElem?_eq_some.2 hflush)
  simp [hflushing] at hother

end Session

end AgentUplink.NineP
