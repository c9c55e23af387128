/-
Runs of a session.

A run is the list of calls made so far, each with the session it was made on. The request
an outstanding tag belongs to is the last one admitted on it, so what the tables hold about
a tag, a reservation or a binding can be said about requests.
-/
import AgentUplink.NineP.Tables

namespace AgentUplink.NineP

open Std Ledger List

abbrev History := List (Call × Session)

/-- The last request admitted on a tag, with the session it was admitted in. -/
def lastAdmitted (t : UInt16) (seen : History) : Option (Frame × Session) :=
  seen.reverse.findSome? fun (call, s) =>
    (call.admitted s).bind fun frame => if frame.tag = t then some (frame, s) else none

variable {s : Session} {call : Call} {frame : Frame} {seen : History} {t : UInt16}

theorem lastAdmitted_append (t : UInt16) (seen : History) :
    lastAdmitted t (seen ++ [(call, s)]) =
      ((call.admitted s).bind fun frame => if frame.tag = t then some (frame, s) else none).or
        (lastAdmitted t seen) := by
  simp only [lastAdmitted, reverse_append, reverse_singleton, singleton_append, List.findSome?_cons]
  split
  · next h => rw [h, Option.some_or]
  · next h => rw [h, Option.none_or]

theorem lastAdmitted_of_none (h : call.admitted s = none) (t : UInt16) (seen : History) :
    lastAdmitted t (seen ++ [(call, s)]) = lastAdmitted t seen := by
  simp [lastAdmitted_append, h]

theorem lastAdmitted_of_some (h : call.admitted s = some frame) (t : UInt16) (seen : History) :
    lastAdmitted t (seen ++ [(call, s)]) =
      if frame.tag = t then some (frame, s) else lastAdmitted t seen := by
  rw [lastAdmitted_append, h]
  by_cases ht : frame.tag = t <;> simp [ht]

theorem mem_of_lastAdmitted (h : lastAdmitted t seen = some (frame, s)) :
    (Call.request frame, s) ∈ seen ∧ frame.tag = t := by
  obtain ⟨⟨call, s'⟩, hmem, hstep⟩ := exists_of_findSome?_eq_some h
  rw [mem_reverse] at hmem
  simp only [Option.bind_eq_some_iff] at hstep
  obtain ⟨frame', hadmitted, heq⟩ := hstep
  split at heq
  · next htag =>
    cases heq
    cases call with
    | request frame' =>
      simp only [Call.admitted] at hadmitted
      split at hadmitted
      · cases hadmitted
        exact ⟨hmem, htag⟩
      · cases hadmitted
    | _ => cases hadmitted
  · cases heq

theorem lastAdmitted_tag (h : lastAdmitted t seen = some (frame, s)) : frame.tag = t :=
  (mem_of_lastAdmitted h).2

/-- Every request of the run keeps the codec's rule for tags. -/
def WellTagged (seen : History) : Prop :=
  ∀ frame r, (Call.request frame, r) ∈ seen → checkTag frame.messageType frame.tag = .ok ()

def Call.wellTagged : Call → Bool
  | .request frame => (checkTag frame.messageType frame.tag).isOk
  | _ => true

theorem wellTagged_iff : (seen.all fun step => step.1.wellTagged) = true ↔ WellTagged seen := by
  have hok {r : Except CodecError Unit} : r.isOk = true ↔ r = .ok () := by
    cases r <;> simp [Except.isOk, Except.toBool]
  rw [all_eq_true]
  constructor
  · intro h frame r hmem
    exact hok.1 (h _ hmem)
  · rintro h ⟨call, r⟩ hmem
    cases call with
    | request frame => exact hok.2 (h frame r hmem)
    | _ => rfl

instance {seen : History} : Decidable (WellTagged seen) := decidable_of_iff _ wellTagged_iff

namespace Session

/-! ## What a tag records of its request -/

/-- The entry of a tag is that of a request admitted in `r`. -/
structure Records (r : Session) (frame : Frame) (state : TagState) : Prop where
  messageType : state.messageType = frame.messageType
  flushing : state.flushing = frame.message.flushing
  isRequest : frame.message.isRequest = true
  admitted : state.answered = false → Admitted r frame state.effect
  free : ∀ n, state.answered = false → state.effect.reserves = some n → r.fids[n]? = none

/-- Every outstanding tag is that of the last request admitted on it. The handshake's tag is
never outstanding. -/
structure Recorded (seen : History) (s : Session) : Prop where
  handshake : s.tags[notag]? = none
  records : ∀ (t : UInt16) state, s.tags[t]? = some state →
    ∃ frame r, lastAdmitted t seen = some (frame, r) ∧ Records r frame state

variable {frame : Frame} {s t : Session} {call : Call}

theorem Records.of_follows {r : Session} {tag x : UInt16} {before after : TagState}
    (h : Records r frame before) (hf : Follows tag x before after) : Records r frame after where
  messageType := hf.messageType.trans h.messageType
  flushing := hf.flushing.trans h.flushing
  isRequest := h.isRequest
  admitted hanswered := by
    rcases hf.effect with ⟨_, heffect, hsame⟩ | ⟨_, _, htrue⟩
    · rw [heffect]
      exact h.admitted (hsame ▸ hanswered)
    · cases htrue.symm.trans hanswered
  free n hanswered hn := by
    rcases hf.effect with ⟨_, heffect, hsame⟩ | ⟨_, _, htrue⟩
    · exact h.free n (hsame ▸ hanswered) (heffect ▸ hn)
    · cases htrue.symm.trans hanswered

theorem Reserves.free {effect : Effect} (h : Reserves s effect t) {n : UInt32}
    (hn : effect.reserves = some n) : s.fids[n]? = none := by
  cases h with
  | nothing hnone =>
    cases hnone.symm.trans hn
  | fid hsome hfree =>
    cases hsome.symm.trans hn
    exact hfree

theorem Accepts.recorded {seen : History} (h : Accepts s frame t)
    (hcall : call.admitted s = some frame) (hr : Recorded seen s) :
    Recorded (seen ++ [(call, s)]) t := by
  obtain ⟨_, hrequest, hadmitted, hreserves, henters⟩ := h
  have htags := hreserves.tags_eq
  constructor
  · -- A request on the handshake's tag is not entered.
    refine Option.eq_none_iff_forall_ne_some.2 fun after hafter => ?_
    rcases henters.tag_cases hafter with ⟨before, hbefore, _⟩ | ⟨heq, hfree, rfl⟩
    · rw [htags, hr.handshake] at hbefore
      cases hbefore
    · cases henters with
      | handshake =>
        cases hfree.symm.trans hafter
      | tag htag => exact htag heq.symm
  · intro x after hafter
    rw [lastAdmitted_of_some hcall]
    rcases henters.tag_cases hafter with ⟨before, hbefore, heq, _⟩ | ⟨hx, _, rfl⟩
    · rw [htags] at hbefore
      have hne : frame.tag ≠ x := by
        rintro rfl
        cases henters with
        | handshake htag =>
          rw [htag, hr.handshake] at hbefore
          cases hbefore
        | tag _ hfree =>
          rw [htags, hbefore] at hfree
          cases hfree
      rw [if_neg hne]
      obtain ⟨frame', r, hlast, hrecords⟩ := hr.records x before hbefore
      refine ⟨frame', r, hlast, ?_⟩
      rw [heq]
      exact ⟨hrecords.messageType, hrecords.flushing, hrecords.isRequest, hrecords.admitted,
        hrecords.free⟩
    · rw [if_pos hx.symm]
      exact ⟨frame, s, rfl, rfl, rfl, hrequest, fun _ => hadmitted, fun _ _ hn => hreserves.free hn⟩

theorem Turn.recorded {seen : History} (h : Turn s call t) (hs : Sound s) (hr : Recorded seen s) :
    Recorded (seen ++ [(call, s)]) t := by
  cases h with
  | same hnone =>
    refine ⟨hr.handshake, fun x state hx => ?_⟩
    rw [lastAdmitted_of_none hnone]
    exact hr.records x state hx
  | admitted hcall haccepts => exact haccepts.recorded hcall hr
  | versioned =>
    refine ⟨hr.handshake, fun x state hx => ?_⟩
    rw [lastAdmitted_of_none rfl]
    exact hr.records x state hx
  | retired hsettles happlied =>
    constructor
    · refine Option.eq_none_iff_forall_ne_some.2 fun after hafter => ?_
      obtain ⟨before, hbefore, _⟩ := settle_follows hs.tags hsettles.get happlied hafter
      cases hr.handshake.symm.trans hbefore
    · intro x after hafter
      obtain ⟨before, hbefore, hf⟩ := settle_follows hs.tags hsettles.get happlied hafter
      obtain ⟨frame, r, hlast, hrecords⟩ := hr.records x before hbefore
      rw [lastAdmitted_of_none hsettles.admitted]
      exact ⟨frame, r, hlast, hrecords.of_follows hf⟩
  | closed => exact ⟨by simp [close], by simp [close]⟩

/-! ## Reservations have an owner -/

/-- Every reservation belongs to an outstanding request. -/
def Owned (s : Session) : Prop :=
  ∀ n : UInt32, s.reservedFids[n]? ≠ none →
    ∃ (t : UInt16) (state : TagState), s.tags[t]? = some state ∧ state.effect.reserves = some n

theorem tag_ne_notag {n : UInt32} (hcheck : checkTag frame.messageType frame.tag = .ok ())
    (hn : frame.message.reserves = some n) : frame.tag ≠ notag := by
  intro htag
  have htype := (checkTag_eq_ok.1 hcheck).2 htag
  unfold Frame.messageType at htype
  cases hmessage : frame.message <;> simp_all [Message.messageType, Message.reserves]

theorem Accepts.owned (h : Accepts s frame t)
    (hcheck : checkTag frame.messageType frame.tag = .ok ()) (ho : Owned s) : Owned t := by
  obtain ⟨_, _, hadmitted, hreserves, henters⟩ := h
  intro n hn
  rw [henters.eq] at hn
  by_cases hnew : frame.message.reserves = some n
  · refine ⟨frame.tag, _, henters.get_new (tag_ne_notag hcheck hnew), ?_⟩
    exact hadmitted.reserves.trans hnew
  · have hold : s.reservedFids[n]? ≠ none := by
      cases hreserves with
      | nothing => exact hn
      | @fid m path hm _ _ _ _ =>
        rw [hadmitted.reserves] at hm
        rw [get_insert] at hn
        split at hn
        · next heq =>
          rw [heq] at hm
          exact absurd hm hnew
        · exact hn
    obtain ⟨x, state, hx, hstate⟩ := ho n hold
    rw [← hreserves.tags_eq] at hx
    obtain ⟨after, hafter, _⟩ := henters.get_of_some hx
    refine ⟨x, after, hafter, ?_⟩
    rcases henters.tag_cases hafter with ⟨before, hbefore, heq, _⟩ | ⟨_, hfree, _⟩
    · cases hx.symm.trans hbefore
      rw [heq]
      exact hstate
    · cases hx.symm.trans hfree

theorem Turn.owned (h : Turn s call t) (hs : Sound s)
    (hcheck : ∀ frame, call = .request frame → checkTag frame.messageType frame.tag = .ok ())
    (ho : Owned s) : Owned t := by
  cases h with
  | same | versioned => exact ho
  | admitted _ haccepts => exact haccepts.owned (hcheck _ rfl) ho
  | retired hsettles happlied =>
    intro n hn
    obtain ⟨x, target, hx, htarget⟩ := ho n (settle_reserved_ne hs.tags hsettles.get happlied hn).1
    obtain ⟨after, hafter, heffect, _⟩ := settle_stays hs.tags hsettles.get happlied hx htarget hn
    exact ⟨x, after, hafter, heffect ▸ htarget⟩
  | closed => exact fun n hn => absurd (by simp [close]) hn

end Session

end AgentUplink.NineP
