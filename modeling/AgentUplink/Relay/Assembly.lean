/-
The buffering assembler reads the stream the scanner reads.

Between frames the assembler holds exactly the bytes of the record under way.
A frame is pushed whole and then cut into records from the front, where the
scanner takes it byte by byte: `dispatch_related` says that the bodies, the next
state and the refusals agree, and `dispatches_scan` lifts this to every list of
frames.
-/
import AgentUplink.Relay.RecordScan

namespace AgentUplink

open Machine Fallible Incremental

namespace ConsumerRecordAssembler

variable {l : ConsumerRecordLimit} {x p : List UInt8}

theorem peekDeclared_short (hx : x.length < recordPrefixLen) : peekDeclared ⟨l, x⟩ = .ok none := by
  match x, hx with
  | [], _ | [_], _ | [_, _], _ | [_, _, _], _ => rfl

section

variable (hx : recordPrefixLen ≤ x.length)
include hx

theorem peekDeclared_long :
    ∃ v, u32FromBeBytes v = declaredLength x ∧
      peekDeclared ⟨l, x⟩ = (l.admitPrefix v).map some := by
  match x, hx with
  | b0 :: b1 :: b2 :: b3 :: rest, _ => exact ⟨#v[b0, b1, b2, b3], rfl, rfl⟩

theorem peekDeclared_refused (hover : l.maxBody < declaredLength x) :
    peekDeclared ⟨l, x⟩ = .error (.declaredLengthExceedsLimit (declaredLength x) l.maxBody) := by
  obtain ⟨v, hv, hpeek⟩ := peekDeclared_long (l := l) hx
  rw [hpeek, ConsumerRecordLimit.admitPrefix, hv, if_pos hover]
  rfl

theorem peekDeclared_admitted (hlim : declaredLength x ≤ l.maxBody) :
    peekDeclared ⟨l, x⟩ = .ok (some (declaredLength x)) := by
  obtain ⟨v, hv, hpeek⟩ := peekDeclared_long (l := l) hx
  rw [hpeek, ConsumerRecordLimit.admitPrefix, hv, if_neg (not_lt.2 hlim)]
  rfl

/-! ## One body -/

theorem nextBody_refused (hover : l.maxBody < declaredLength x) :
    nextBody.run ⟨l, x⟩ =
      .error (.declaredLengthExceedsLimit (declaredLength x) l.maxBody) ⟨l, x⟩ := by
  simp only [nextBody, run_get_bind, peekDeclared_refused hx hover, run_check_error_bind]

end

theorem nextBody_underway (hx : Underway l x) : nextBody.run ⟨l, x⟩ = .ok none ⟨l, x⟩ := by
  rcases hx with hshort | ⟨hlong, hlim, hmore⟩
  · simp only [nextBody, run_get_bind, peekDeclared_short hshort, run_check_ok_bind, run_pure]
  · rw [add_comm] at hmore
    simp only [nextBody, run_get_bind, peekDeclared_admitted hlong hlim, run_check_ok_bind, hmore,
      if_true, run_pure]

theorem nextBody_record {r rest : List UInt8} (hlim : declaredLength r ≤ l.maxBody)
    (hlen : r.length = recordPrefixLen + declaredLength r) :
    nextBody.run ⟨l, r ++ rest⟩ = .ok (some (r.drop recordPrefixLen)) ⟨l, rest⟩ := by
  have hlong : recordPrefixLen ≤ r.length := by omega
  have hdecl := declaredLength_append hlong rest
  have hpeek : peekDeclared ⟨l, r ++ rest⟩ = .ok (some (declaredLength (r ++ rest))) :=
    peekDeclared_admitted (by simp; omega) (by omega)
  have htotal : declaredLength (r ++ rest) + recordPrefixLen = r.length := by omega
  have hall : ¬ (r ++ rest).length < r.length := by simp
  simp only [nextBody, run_get_bind, hpeek, run_check_ok_bind, htotal, hall, if_false,
    run_modify_bind, run_pure, List.take_left, List.drop_left]

/-! ## One frame -/

/-- The assembler holds the record under way. -/
def Buffers (l : ConsumerRecordLimit) (a : ConsumerRecordAssembler) (p : List UInt8) : Prop :=
  a = ⟨l, p⟩ ∧ Underway l p

theorem drain_related {fuel : Nat} (hfuel : x.length < fuel) :
    Outcome.Related (Buffers l) (drain fuel ⟨l, x⟩) ((scan l [] x).collect RecordEvent.body?) := by
  obtain ⟨fuel, rfl⟩ := Nat.exists_eq_add_one.2 (Nat.zero_lt_of_lt hfuel)
  induction x using stream_induction l generalizing fuel with
  | underway x hx =>
    rw [drain, nextBody_underway hx, scan_underway hx]
    simp only [Outcome.collect, prefixReports_bodies]
    exact .ok ⟨rfl, hx⟩
  | refused x hx hover =>
    rw [drain, nextBody_refused hx hover, scan_refused hx hover]
    simp only [Outcome.collect, prefixReports_bodies]
    exact .error
  | record r rest hlim hlen ih =>
    have hpos : 0 < r.length := by rw [hlen, recordPrefixLen]; omega
    rw [List.length_append] at hfuel
    obtain ⟨fuel, rfl⟩ := Nat.exists_eq_add_one.2 (show 0 < fuel by omega)
    rw [drain, nextBody_record hlim hlen, scan_append, Outcome.collect_andThen,
      scan_record hlim hlen]
    simp only [Outcome.collect, List.filterMap_append, prefixReports_bodies, List.nil_append]
    refine Outcome.Related.andThen (.ok (R := fun a q => a = ⟨l, rest⟩ ∧ q = []) ⟨rfl, rfl⟩) ?_
    rintro _ _ ⟨rfl, rfl⟩
    exact ih fuel (by omega)

/-- Reading on in the middle of a record gives the bodies that reading the record
again from its start gives. -/
theorem scan_resumes (hp : Underway l p) (frame : List UInt8) :
    (scan l p frame).collect RecordEvent.body? =
      (scan l [] (p ++ frame)).collect RecordEvent.body? := by
  rw [scan_append, scan_underway hp, Outcome.collect_andThen]
  simp [Outcome.collect]

theorem dispatch_related {a : ConsumerRecordAssembler} (h : Buffers l a p) (frame : List UInt8) :
    Outcome.Related (Buffers l) (a.dispatch frame)
      ((acceptFrame l p frame).collect RecordEvent.body?) := by
  obtain ⟨rfl, hp⟩ := h
  unfold dispatch acceptFrame push
  simp only [run_get_bind]
  cases hadmit : l.admitInput p.length frame.length with
  | error e => exact .error
  | ok u =>
    simp only [run_check_ok_bind, run_modify_bind, run_get_bind, scan_resumes hp]
    cases hpeek : peekDeclared ⟨l, p ++ frame⟩ with
    | ok d =>
      exact drain_related (Nat.lt_succ_self _)
    | error e =>
      -- a push that sees an over-limit prefix fails before anything is dispatched
      have hdrain := drain_related (l := l) (Nat.lt_succ_self (p ++ frame).length)
      have hnext : nextBody.run ⟨l, p ++ frame⟩ = .error e ⟨l, p ++ frame⟩ := by
        simp only [nextBody, run_get_bind, hpeek, run_check_error_bind]
      rw [drain, hnext] at hdrain
      exact hdrain

/-- The owner dispatches the bodies the scanner finds and refuses what it refuses,
for every list of frames. -/
theorem dispatches_scan {a : ConsumerRecordAssembler} (h : Buffers l a p)
    (frames : List (List UInt8)) :
    Outcome.Related (Buffers l) (run dispatch a frames)
      ((run (acceptFrame l) p frames).collect RecordEvent.body?) := by
  rw [run_collect]
  exact run_related (fun _ _ frame hR => dispatch_related hR frame) h frames

theorem buffers_new (l : ConsumerRecordLimit) : Buffers l (new l) [] := ⟨rfl, underway_nil⟩

end ConsumerRecordAssembler

end AgentUplink
