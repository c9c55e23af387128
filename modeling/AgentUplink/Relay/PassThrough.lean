/-
Whether the ingress cursor is a faithful pass-through.

The ingress forwards what the cursor returns and the owner reads it with an
assembler of the same limit. `PassesThrough` is the contract for a list of
frames. Refusals, held bytes and state always agree with the directly fed
assembler; the bytes do not. A frame that completes a prefix carried from an
earlier frame and then begins another prefix has the later prefix copied over
the carried bytes before they are returned, as `carried_prefix_overwritten`
shows, and `passesThrough_iff` says that this is the only way the contract
fails.
-/
import AgentUplink.Relay.Assembly
import AgentUplink.Relay.Cursor

namespace AgentUplink

open Machine Incremental ConsumerRecordCursor ConsumerRecordAssembler List Outcome

variable {l : ConsumerRecordLimit}

/-- Every byte belongs to a record whose complete length prefix is there and within
the limit. -/
inductive Admitted (l : ConsumerRecordLimit) : List UInt8 → Prop
  | nil : Admitted l []
  | underway {r : List UInt8} (hlong : recordPrefixLen ≤ r.length)
      (hlim : declaredLength r ≤ l.maxBody)
      (hmore : r.length < recordPrefixLen + declaredLength r) : Admitted l r
  | record {r rest : List UInt8} (hlim : declaredLength r ≤ l.maxBody)
      (hlen : r.length = recordPrefixLen + declaredLength r) (hrest : Admitted l rest) :
      Admitted l (r ++ rest)

/-- The contract of the cursor for the frames given to it, after every call. -/
structure PassesThrough (l : ConsumerRecordLimit) (frames : List (List UInt8)) : Prop where
  /-- What was returned, followed by what is held, is what was given. -/
  faithful : ∀ given out c, given <+: frames →
    run relay (ConsumerRecordCursor.new l) given = ⟨out, .ok c⟩ →
    out.flatten ++ c.held = given.flatten
  held_le : ∀ given out c, given <+: frames →
    run relay (ConsumerRecordCursor.new l) given = ⟨out, .ok c⟩ → c.prefixLen ≤ 3
  /-- No byte of a record over the limit was returned. -/
  admitted : ∀ given out c, given <+: frames →
    run relay (ConsumerRecordCursor.new l) given = ⟨out, .ok c⟩ → Admitted l out.flatten
  /-- The owner finds in the returned strings the bodies it finds in the frames. -/
  same_bodies : ∀ given out c, given <+: frames →
    run relay (ConsumerRecordCursor.new l) given = ⟨out, .ok c⟩ →
    ∃ bodies a b, run dispatch (ConsumerRecordAssembler.new l) out = ⟨bodies, .ok a⟩ ∧
      run dispatch (ConsumerRecordAssembler.new l) given = ⟨bodies, .ok b⟩
  /-- The cursor refuses what the directly fed assembler refuses. -/
  same_refusal : ∀ given e, given <+: frames →
    ((run relay (ConsumerRecordCursor.new l) given).result = .error e ↔
      (run dispatch (ConsumerRecordAssembler.new l) given).result = .error e)

/-- In every accepted frame the carried prefix bytes stay intact. -/
def CarriedStaysIntact (l : ConsumerRecordLimit) (p : List UInt8) (frames : List (List UInt8)) :
    Prop :=
  ∀ given frame events q events' q', given ++ [frame] <+: frames →
    run (acceptFrame l) p given = ⟨events, .ok q⟩ →
    acceptFrame l q frame = ⟨events', .ok q'⟩ → CarriedIntact q events'

/-! ## The cursor over many frames -/

section Relay

variable {c : ConsumerRecordCursor} {p : List UInt8}

section

variable (h : Tracks l c p)
include h

theorem relay_related (frame : List UInt8) :
    Outcome.Related (Tracks l) ((c.relay frame).collect fun _ => (none : Option Unit))
      ((acceptFrame l p frame).collect fun _ => none) := by
  unfold relay
  obtain ⟨events, e, c', haccept, hrun⟩ | ⟨events, q, out, c', haccept, hrun, hq, -⟩ :=
    h.forward_spec frame
  · simp only [haccept, hrun, Outcome.ofCall, Outcome.collect, filterMap_none]
    exact .error
  · simp only [haccept, hrun, Outcome.ofCall, Outcome.collect, filterMap_none]
    exact .ok hq

/-- Whatever it returns, the cursor refuses what the scanner refuses and otherwise
keeps track of it. -/
theorem relays_scan (frames : List (List UInt8)) :
    Outcome.Related (Tracks l) ((run relay c frames).collect fun _ => (none : Option Unit))
      ((run (acceptFrame l) p frames).collect fun _ => none) := by
  rw [run_collect, run_collect]
  exact run_related (fun _ _ frame hR => relay_related hR frame) h frames

theorem relay_ok {frame q : List UInt8} {events : List RecordEvent}
    (haccept : acceptFrame l p frame = ⟨events, .ok q⟩) :
    ∃ out c', c.relay frame = ⟨[out], .ok c'⟩ ∧ Tracks l c' q ∧
      (out ++ heldBack q = heldBack p ++ frame ↔ CarriedIntact p events) := by
  obtain ⟨_, _, _, hbad, _⟩ | ⟨_, _, out, c', hok, hrun, hspec⟩ := h.forward_spec frame
  · cases haccept.symm.trans hbad
  · cases haccept.symm.trans hok
    refine ⟨out, c', ?_, hspec⟩
    rw [relay, hrun]
    rfl

theorem tracks_of_relayed {given out : List (List UInt8)} {c' : ConsumerRecordCursor}
    (hrun : run relay c given = ⟨out, .ok c'⟩) :
    ∃ events q, run (acceptFrame l) p given = ⟨events, .ok q⟩ ∧ Tracks l c' q := by
  have hrel := relays_scan h given
  rw [hrun] at hrel
  obtain ⟨q, hq, htracks⟩ := hrel.of_ok
  have hresult : (run (acceptFrame l) p given).result = .ok q := congrArg Outcome.result hq
  exact ⟨_, q, Outcome.ext rfl hresult, htracks⟩

theorem relayed_of_accepted {given : List (List UInt8)} {q : List UInt8}
    {events : List RecordEvent} (haccept : run (acceptFrame l) p given = ⟨events, .ok q⟩) :
    ∃ out c', run relay c given = ⟨out, .ok c'⟩ ∧ Tracks l c' q := by
  have hrel := relays_scan h given
  rw [haccept] at hrel
  obtain ⟨c', hc', htracks⟩ := hrel.to_ok
  have hresult : (run relay c given).result = .ok c' := congrArg Outcome.result hc'
  exact ⟨_, c', Outcome.ext rfl hresult, htracks⟩

end

end Relay

/-! ## The owner behind the cursor -/

/-- The bytes of the record under way that have been passed on. -/
def passedOn (p : List UInt8) : List UInt8 := if p.length < recordPrefixLen then [] else p

theorem passedOn_append_heldBack (p : List UInt8) : passedOn p ++ heldBack p = p := by
  unfold passedOn heldBack
  by_cases h : p.length < recordPrefixLen <;> simp [h]

variable {p frame q : List UInt8} {events : List RecordEvent} {frames : List (List UInt8)}

theorem underway_passedOn (h : Underway l p) : Underway l (passedOn p) := by
  unfold passedOn
  by_cases hshort : p.length < recordPrefixLen
  · simp only [hshort, if_true]
    exact underway_nil
  · simpa only [hshort, if_false] using h

theorem heldBack_passedOn (p : List UInt8) : heldBack (passedOn p) = [] := by
  unfold passedOn
  by_cases h : p.length < recordPrefixLen
  · rw [if_pos h]
    rfl
  · rw [if_neg h]
    exact heldBack_long (not_lt.1 h)

theorem scan_heldBack (p : List UInt8) :
    ∃ events, scan l (passedOn p) (heldBack p) = ⟨events, .ok p⟩ ∧
      events.filterMap RecordEvent.body? = [] := by
  unfold passedOn heldBack
  by_cases hshort : p.length < recordPrefixLen
  · simp only [hshort, if_true]
    exact ⟨_, scan_prefix_grows (by simpa using hshort), prefixReports_bodies _ _⟩
  · simp only [hshort, if_false]
    exact ⟨[], rfl, rfl⟩

theorem scan_of_acceptFrame (h : acceptFrame l p frame = ⟨events, .ok q⟩) :
    saturatingAdd p.length frame.length ≤ l.maxRecord ∧ scan l p frame = ⟨events, .ok q⟩ := by
  unfold acceptFrame ConsumerRecordLimit.admitInput at h
  by_cases hover : saturatingAdd p.length frame.length > l.maxRecord
  · rw [if_pos hover] at h
    cases h
  · rw [if_neg hover] at h
    exact ⟨not_lt.1 hover, h⟩

theorem acceptFrame_of_scan (h : saturatingAdd p.length frame.length ≤ l.maxRecord) :
    acceptFrame l p frame = scan l p frame := by
  unfold acceptFrame ConsumerRecordLimit.admitInput
  rw [if_neg (not_lt.2 h)]

/-- A frame passed on whole, up to the held bytes, means to the owner what the frame
means. -/
theorem accept_passedOn {out : List UInt8} (hp : Underway l p)
    (haccept : acceptFrame l p frame = ⟨events, .ok q⟩)
    (hout : out ++ heldBack q = heldBack p ++ frame) :
    ∃ events', acceptFrame l (passedOn p) out = ⟨events', .ok (passedOn q)⟩ ∧
      events'.filterMap RecordEvent.body? = events.filterMap RecordEvent.body? := by
  obtain ⟨hroom, hscan⟩ := scan_of_acceptFrame haccept
  obtain ⟨held, hheld, hnobody⟩ := scan_heldBack (l := l) p
  have hwhole : scan l (passedOn p) (out ++ heldBack q) = ⟨held ++ events, .ok q⟩ := by
    rw [hout, scan_append, hheld, andThen_ok, hscan]
  rw [scan_append] at hwhole
  obtain ⟨first, s, last, hfirst, hlast, hevents⟩ := andThen_eq_ok.1 hwhole
  obtain ⟨hs, -⟩ := (underway_passedOn hp).scan_ok hfirst
  have hle : (heldBack q).length ≤ q.length := by
    conv_rhs => rw [← passedOn_append_heldBack q]
    simp
  -- the owner stands where it has everything but the held bytes
  obtain hq | hq := (hs.scan_ok hlast).2
  · have hsq : s = passedOn q := by
      have := hq.symm.trans (passedOn_append_heldBack q).symm
      exact append_cancel_right this
    subst hsq
    refine ⟨first, ?_, ?_⟩
    · rw [acceptFrame_of_scan, hfirst]
      have hlen := congrArg List.length hout
      have hplen := congrArg List.length (passedOn_append_heldBack p)
      rw [length_append, length_append] at hlen
      rw [length_append] at hplen
      unfold saturatingAdd at hroom ⊢
      omega
    · obtain ⟨_, hlast', hnone⟩ := scan_heldBack (l := l) q
      cases hlast'.symm.trans hlast
      have := congrArg (List.filterMap RecordEvent.body?) hevents
      simpa [hnobody, hnone] using this.symm
  · omega

/-! ## Many frames -/

section Intact

variable {p q frame : List UInt8} {frames : List (List UInt8)} {events : List RecordEvent}

theorem CarriedStaysIntact.head (h : CarriedStaysIntact l p (frame :: frames))
    (haccept : acceptFrame l p frame = ⟨events, .ok q⟩) : CarriedIntact p events :=
  h [] frame [] p events q ⟨frames, rfl⟩ rfl haccept

theorem CarriedStaysIntact.tail (h : CarriedStaysIntact l p (frame :: frames))
    (haccept : acceptFrame l p frame = ⟨events, .ok q⟩) : CarriedStaysIntact l q frames := by
  rintro given frame' events₁ q₁ events₂ q₂ ⟨rest, hrest⟩ hgiven hframe
  refine h (frame :: given) frame' (events ++ events₁) q₁ events₂ q₂ ⟨rest, ?_⟩ ?_ hframe
  · rw [← hrest]
    rfl
  · rw [run_cons, haccept, andThen_ok, hgiven]

end Intact

/-- With the carried bytes intact, what the cursor returned and still holds is the
stream, and the owner stands where the scanner stands but for the held bytes. -/
theorem relays_faithful {c c' : ConsumerRecordCursor} {given out : List (List UInt8)}
    (h : Tracks l c p) (hintact : CarriedStaysIntact l p given)
    (hrun : run relay c given = ⟨out, .ok c'⟩)
    (haccept : run (acceptFrame l) p given = ⟨events, .ok q⟩) :
    out.flatten ++ heldBack q = heldBack p ++ given.flatten ∧
      ∃ events', run (acceptFrame l) (passedOn p) out = ⟨events', .ok (passedOn q)⟩ ∧
        events'.filterMap RecordEvent.body? = events.filterMap RecordEvent.body? := by
  induction given generalizing c p out events with
  | nil =>
    cases hrun
    cases haccept
    exact ⟨by simp, [], rfl, rfl⟩
  | cons frame given ih =>
    obtain ⟨events₁, r, events₂, haccept₁, haccept₂, rfl⟩ := andThen_eq_ok.1 haccept
    obtain ⟨o, c₁, hrelay, htracks, hspec⟩ := relay_ok h haccept₁
    rw [run_cons, hrelay] at hrun
    obtain ⟨_, _, rest, hone, hrest, rfl⟩ := andThen_eq_ok.1 hrun
    cases hone
    have hout := hspec.2 (hintact.head haccept₁)
    obtain ⟨hstream, events₂', howner₂, hbodies₂⟩ :=
      ih htracks (hintact.tail haccept₁) hrest haccept₂
    obtain ⟨events₁', howner₁, hbodies₁⟩ := accept_passedOn h.underway haccept₁ hout
    constructor
    · calc ([o] ++ rest).flatten ++ heldBack q
          = o ++ (rest.flatten ++ heldBack q) := by simp
        _ = (o ++ heldBack r) ++ given.flatten := by rw [hstream, append_assoc]
        _ = heldBack p ++ (frame :: given).flatten := by
          rw [hout, flatten_cons, append_assoc]
    · refine ⟨events₁' ++ events₂', ?_, by simp [hbodies₁, hbodies₂]⟩
      rw [singleton_append, run_cons, howner₁, andThen_ok, howner₂]

/-- Bytes scanned from a record boundary without a held prefix are all admitted. -/
theorem admitted_of_scan {x : List UInt8} (h : scan l [] x = ⟨events, .ok q⟩)
    (hq : heldBack q = []) : Admitted l x := by
  induction x using stream_induction l generalizing events with
  | underway x hx =>
    rw [scan_underway hx] at h
    cases h
    rcases hx with hshort | ⟨hlong, hlim, hmore⟩
    · rw [heldBack_short hshort] at hq
      subst hq
      exact .nil
    · exact .underway hlong hlim hmore
  | refused x hx hover =>
    rw [scan_refused hx hover] at h
    cases h
  | record r rest hlim hlen ih =>
    rw [scan_append, scan_record hlim hlen] at h
    obtain ⟨_, _, _, hone, hrest, _⟩ := andThen_eq_ok.1 h
    cases hone
    exact .record hlim hlen (ih hrest)

theorem scan_of_accepted (h : run (acceptFrame l) p frames = ⟨events, .ok q⟩) :
    scan l p frames.flatten = ⟨events, .ok q⟩ :=
  (run_run p frames).symm.trans
    (run_of_step_ok (fun _ _ _ _ hframe => (scan_of_acceptFrame hframe).2) h)

theorem dispatched_of_accepted (h : run (acceptFrame l) [] frames = ⟨events, .ok q⟩) :
    ∃ a, run dispatch (ConsumerRecordAssembler.new l) frames =
      ⟨events.filterMap RecordEvent.body?, .ok a⟩ := by
  have hrel := dispatches_scan (buffers_new l) frames
  rw [h] at hrel
  obtain ⟨a, ha, -⟩ := hrel.to_ok
  exact ⟨a, ha⟩

/-- The contract at one frame more: what this call returned continues the stream. -/
theorem PassesThrough.carriedStaysIntact (h : PassesThrough l frames) :
    CarriedStaysIntact l [] frames := by
  intro given frame events q events' q' hle hgiven hframe
  obtain ⟨out, c, hrun, htracks⟩ := relayed_of_accepted (tracks_new l) hgiven
  obtain ⟨o, c', hrelay, htracks', hspec⟩ := relay_ok htracks hframe
  have hrun' : run relay (ConsumerRecordCursor.new l) (given ++ [frame]) =
      ⟨out ++ [o], .ok c'⟩ := by
    rw [run_append, hrun, andThen_ok, run_singleton, hrelay]
  have hbefore := h.faithful given out c ((prefix_append _ _).trans hle) hrun
  have hafter := h.faithful (given ++ [frame]) (out ++ [o]) c' hle hrun'
  rw [htracks.held] at hbefore
  rw [htracks'.held, flatten_append, flatten_append, flatten_singleton,
    flatten_singleton, ← hbefore, append_assoc, append_assoc] at hafter
  exact hspec.1 (append_cancel_left hafter)

/-- The cursor keeps its contract for a list of frames exactly when every frame it
accepts leaves the prefix bytes carried into it intact. -/
theorem passesThrough_iff (l : ConsumerRecordLimit) (frames : List (List UInt8)) :
    PassesThrough l frames ↔ CarriedStaysIntact l [] frames := by
  constructor
  · exact PassesThrough.carriedStaysIntact
  · intro hintact
    have hfaithful {given out : List (List UInt8)} {c : ConsumerRecordCursor}
        (hle : given <+: frames)
        (hrun : run relay (ConsumerRecordCursor.new l) given = ⟨out, .ok c⟩) :
        ∃ events events' q, Tracks l c q ∧
          run (acceptFrame l) [] given = ⟨events, .ok q⟩ ∧
          out.flatten ++ heldBack q = given.flatten ∧
          run (acceptFrame l) [] out = ⟨events', .ok (passedOn q)⟩ ∧
          events'.filterMap RecordEvent.body? = events.filterMap RecordEvent.body? := by
      obtain ⟨events, q, haccept, htracks⟩ := tracks_of_relayed (tracks_new l) hrun
      obtain ⟨hstream, events', howner, hbodies⟩ :=
        relays_faithful (tracks_new l)
          (fun _ _ _ _ _ _ hle' => hintact _ _ _ _ _ _ (hle'.trans hle)) hrun haccept
      exact ⟨events, events', q, htracks, haccept, hstream, howner, hbodies⟩
    refine ⟨?_, ?_, ?_, ?_, fun given e _ => ((relays_scan (tracks_new l) given).error_iff e).trans
      ((dispatches_scan (buffers_new l) given).error_iff e).symm⟩
    · intro given out c hle hrun
      obtain ⟨_, _, q, htracks, _, hstream, _⟩ := hfaithful hle hrun
      rw [htracks.held, hstream]
    · intro given out c hle hrun
      obtain ⟨_, _, q, htracks, _⟩ := hfaithful hle hrun
      rw [htracks.prefixLen]
      exact Nat.le_of_lt_succ (length_heldBack_lt q)
    · intro given out c hle hrun
      obtain ⟨_, _, q, _, _, _, howner, _⟩ := hfaithful hle hrun
      exact admitted_of_scan (scan_of_accepted howner) (heldBack_passedOn q)
    · intro given out c hle hrun
      obtain ⟨_, _, q, _, haccept, _, howner, hbodies⟩ := hfaithful hle hrun
      obtain ⟨a, ha⟩ := dispatched_of_accepted howner
      obtain ⟨b, hb⟩ := dispatched_of_accepted haccept
      rw [hbodies] at ha
      exact ⟨_, a, b, ha, hb⟩

set_option maxRecDepth 4000 in
/-- The second frame completes the prefix carried from the first, passes its body
and begins another prefix, whose third byte is returned in place of the carried
one: the record of one byte becomes a record of 257. -/
theorem carried_prefix_overwritten : ¬ PassesThrough ⟨300⟩ [[0, 0, 0], [1, 0xAA, 0, 0, 1]] := by
  intro h
  have := h.faithful [[0, 0, 0], [1, 0xAA, 0, 0, 1]] [[], [0, 0, 1, 1, 0xAA]] _ ⟨[], rfl⟩ rfl
  revert this
  decide

end AgentUplink
