/-
The pass-through cursor reads the stream the scanner reads.

Between frames the cursor knows how far the record under way has come, and it
holds the bytes of an incomplete length prefix. Its decisions are the
scanner's: `Tracks.forward_spec` gives the refusals and the next state.

What the cursor returns for a frame is another matter. The held bytes are read
back from the prefix buffer after the whole frame was scanned, and a prefix the
frame begins later is copied into the same buffer. `Overwritten` says what the
buffer holds then, and `Tracks.forward_spec` gives the returned bytes in terms
of it.
-/
import AgentUplink.Relay.RecordScan

namespace AgentUplink

open Machine Fallible Incremental Outcome
open List hiding Vector

/-! ## The prefix buffer -/

variable (buf : Vector UInt8 recordPrefixLen)

/-- Each byte of the buffer is the last one reported at its position, or the one
that was there. -/
def Overwritten (buf' : Vector UInt8 recordPrefixLen) (events : List RecordEvent) : Prop :=
  ∀ i : Fin recordPrefixLen, buf'[i] = (lastPrefixByte i events).getD buf[i]

theorem lastPrefixByte_append (i : Nat) (xs ys : List RecordEvent) :
    lastPrefixByte i (xs ++ ys) = (lastPrefixByte i ys).or (lastPrefixByte i xs) := by
  simp [lastPrefixByte, filterMap_append, List.getLast?_append]

theorem Overwritten.trans {a b c : Vector UInt8 recordPrefixLen} {xs ys : List RecordEvent}
    (h : Overwritten a b xs) (h' : Overwritten b c ys) : Overwritten a c (xs ++ ys) := by
  intro i
  rw [h' i, h i, lastPrefixByte_append]
  cases lastPrefixByte i ys <;> rfl

theorem Overwritten.getElem? {buf buf' : Vector UInt8 recordPrefixLen} {events : List RecordEvent}
    (h : Overwritten buf buf' events) {i : Nat} (hi : i < recordPrefixLen) :
    buf'.toList[i]? = (lastPrefixByte i events).or buf.toList[i]? := by
  have hbyte := h ⟨i, hi⟩
  simp only [Fin.getElem_fin] at hbyte
  simp only [Vector.getElem?_toList, Vector.getElem?_eq_getElem hi, hbyte]
  cases lastPrefixByte i events <;> rfl

/-- Complete bodies leave the buffer alone. -/
theorem overwritten_refl {events : List RecordEvent}
    (h : ∀ e ∈ events, ∃ bytes, e = .body bytes) : Overwritten buf buf events := by
  intro i
  have hnil : events.filterMap (RecordEvent.prefixByteAt i) = [] := by
    refine filterMap_eq_nil_iff.2 fun e he => ?_
    obtain ⟨bytes, rfl⟩ := h e he
    rfl
  rw [lastPrefixByte, hnil]
  rfl

theorem lastPrefixByte_prefixReports (i n : Nat) (chunk : List UInt8) :
    lastPrefixByte i (prefixReports n chunk) = if n ≤ i then chunk[i - n]? else none := by
  induction chunk generalizing n with
  | nil => simp [prefixReports, lastPrefixByte]
  | cons b chunk ih =>
    have hcons : prefixReports n (b :: chunk) = [.prefixByte n b] ++ prefixReports (n + 1) chunk :=
      rfl
    have hone : lastPrefixByte i [.prefixByte n b] = if n = i then some b else none := by
      by_cases h : n = i <;> simp [lastPrefixByte, RecordEvent.prefixByteAt, h]
    rw [hcons, lastPrefixByte_append, ih, hone]
    rcases lt_trichotomy n i with hlt | rfl | hgt
    · obtain ⟨k, rfl⟩ := Nat.exists_eq_add_of_lt hlt
      have hle : n + 1 ≤ n + k + 1 := by omega
      have hsub : n + k + 1 - n = k + 1 := by omega
      have hsub' : n + k + 1 - (n + 1) = k := by omega
      simp [hle, hsub, hsub', show n ≤ n + k + 1 by omega, show ¬ n = n + k + 1 by omega]
    · rw [if_neg (Nat.not_succ_le_self n), if_pos rfl, if_pos (Nat.le_refl n), Nat.sub_self]
      rfl
    · simp [show ¬ n + 1 ≤ i by omega, show ¬ n ≤ i by omega, show ¬ n = i by omega]

theorem copyFromSlice_overwritten (start : Nat) (chunk : List UInt8) :
    Overwritten buf (copyFromSlice buf start chunk) (prefixReports start chunk) := by
  intro i
  rw [lastPrefixByte_prefixReports]
  simp only [copyFromSlice, Fin.getElem_fin, Vector.getElem_ofFn]
  by_cases hle : start ≤ i
  · by_cases hlt : (i : Nat) < start + chunk.length
    · have hget : (i : Nat) - start < chunk.length := by omega
      simp [hle, hlt, getElem?_eq_getElem hget]
    · have hget : chunk.length ≤ (i : Nat) - start := by omega
      simp [hle, hlt, getElem?_eq_none hget]
  · simp [hle]

theorem copyFromSlice_take {start : Nat} {chunk : List UInt8}
    (h : start + chunk.length ≤ recordPrefixLen) :
    (copyFromSlice buf start chunk).toList.take (start + chunk.length) =
      buf.toList.take start ++ chunk := by
  have hlen : (buf.toList.take start).length = start := by simp; omega
  refine ext_getElem (by simp; omega) fun i hi _ => ?_
  have hi : i < start + chunk.length := by simp at hi; omega
  by_cases hlt : i < start
  · rw [getElem_append_left (by omega), getElem_take, Vector.getElem_toList]
    simp [copyFromSlice, show ¬ start ≤ i by omega]
  · have hget : i - start < chunk.length := by omega
    simp [copyFromSlice, hi, show start ≤ i by omega, hlen, getElem?_eq_getElem hget]

theorem u32FromBeBytes_eq : u32FromBeBytes buf = declaredLength buf.toList := by
  match buf with
  | ⟨⟨[_, _, _, _]⟩, _⟩ => rfl

/-! ## The record under way -/

/-- The bytes of the record under way that are held back: its prefix, while that
is incomplete. -/
def heldBack (p : List UInt8) : List UInt8 := if p.length < recordPrefixLen then p else []

theorem heldBack_short {p : List UInt8} (h : p.length < recordPrefixLen) : heldBack p = p :=
  if_pos h

theorem heldBack_long {p : List UInt8} (h : recordPrefixLen ≤ p.length) : heldBack p = [] :=
  if_neg (not_lt.2 h)

namespace ConsumerRecordCursor

variable {l : ConsumerRecordLimit} {c : ConsumerRecordCursor} {p : List UInt8}

/-- The cursor stands where a scanner with `p` pending stands. -/
structure Tracks (l : ConsumerRecordLimit) (c : ConsumerRecordCursor) (p : List UInt8) : Prop where
  limit : c.limit = l
  underway : Underway l p
  prefixLen : c.prefixLen = (heldBack p).length
  held : c.held = heldBack p
  declared : recordPrefixLen ≤ p.length → c.declared = declaredLength p
  bodyRemaining : c.bodyRemaining =
    if p.length < recordPrefixLen then 0 else recordPrefixLen + declaredLength p - p.length

theorem tracks_new (l : ConsumerRecordLimit) : Tracks l (new l) [] where
  limit := rfl
  underway := underway_nil
  prefixLen := rfl
  held := rfl
  declared h := absurd h (by decide)
  bodyRemaining := rfl

/-- The cursor accounts for exactly the bytes the assembler would hold. -/
theorem Tracks.buffered_eq (h : Tracks l c p) : c.buffered = p.length := by
  unfold buffered
  rcases h.underway with hshort | ⟨hlong, _, hmore⟩
  · simp [h.bodyRemaining, h.prefixLen, hshort, heldBack_short hshort]
  · have hrem := h.bodyRemaining
    rw [if_neg (not_lt.2 hlong)] at hrem
    rw [if_pos (by omega), h.declared hlong]
    omega

/-! ## One round of the loop -/

/-- A round passes some bytes on, or is refused, as the scanner does on them. -/
def Passes (l : ConsumerRecordLimit) (c : ConsumerRecordCursor) (p frame : List UInt8)
    (offset forwardableEnd : Nat) : Prop :=
  ∃ k, 0 < k ∧ offset + k ≤ frame.length ∧
    ((∃ events e c', scan l p ((frame.drop offset).take k) = ⟨events, .error e⟩ ∧
      (forwardRound frame offset forwardableEnd).run c = .error e c') ∨
    ∃ events q c', scan l p ((frame.drop offset).take k) = ⟨events, .ok q⟩ ∧
      (forwardRound frame offset forwardableEnd).run c = .ok (offset + k, offset + k) c' ∧
      Tracks l c' q ∧ heldBack q = [] ∧ Overwritten c.prefixBytes c'.prefixBytes events)

section Round

variable {frame : List UInt8} {offset : Nat}

theorem length_piece (frame : List UInt8) {offset k : Nat} (h : offset + k ≤ frame.length) :
    ((frame.drop offset).take k).length = k := by
  rw [length_take, length_drop]
  omega

/-- Passing body bytes: they are forwardable up to the new offset. -/
theorem Tracks.round_body (h : Tracks l c p) (forwardableEnd : Nat)
    (hlong : recordPrefixLen ≤ p.length) (hoff : offset < frame.length) :
    Passes l c p frame offset forwardableEnd := by
  obtain hshort | ⟨-, hlim, hmore⟩ := h.underway
  · omega
  have hrem : c.bodyRemaining = recordPrefixLen + declaredLength p - p.length := by
    rw [h.bodyRemaining, if_neg (not_lt.2 hlong)]
  have hpos : c.bodyRemaining > 0 := by omega
  have hheld := h.held
  have hprefixLen := h.prefixLen
  rw [heldBack_long hlong] at hheld hprefixLen
  obtain ⟨k, hk⟩ : ∃ k, k = min c.bodyRemaining (frame.length - offset) := ⟨_, rfl⟩
  have hpiece := length_piece frame (show offset + k ≤ frame.length by omega)
  have hrun : (forwardRound frame offset forwardableEnd).run c =
      .ok (offset + k, offset + k) { c with bodyRemaining := c.bodyRemaining - k } := by
    simp only [forwardRound, run_get_bind, hpos, if_true, run_set_bind, run_pure, ← hk]
  refine ⟨k, by omega, by omega, .inr ?_⟩
  rcases lt_or_ge k c.bodyRemaining with hlt | hge
  · have hdecl := declaredLength_append hlong ((frame.drop offset).take k)
    have hq : recordPrefixLen ≤ (p ++ (frame.drop offset).take k).length := by
      rw [length_append]
      omega
    refine ⟨[], p ++ (frame.drop offset).take k, _, scan_body_grows hlong hlim (by omega), hrun,
      ?_, heldBack_long hq, overwritten_refl _ (by simp)⟩
    exact {
      limit := h.limit
      underway := .inr ⟨hq, by omega, by rw [hdecl, length_append]; omega⟩
      prefixLen := by rw [heldBack_long hq]; exact hprefixLen
      held := by rw [heldBack_long hq]; exact hheld
      declared := fun _ => (h.declared hlong).trans hdecl.symm
      bodyRemaining := by
        rw [if_neg (not_lt.2 hq), hdecl, length_append, hpiece]
        show c.bodyRemaining - k = _
        omega }
  · refine ⟨_, [], _, scan_body_done hlong hlim (List.ne_nil_of_length_pos (by omega)) (by omega),
      hrun, ?_, rfl, overwritten_refl _ (by simp)⟩
    exact {
      limit := h.limit
      underway := underway_nil
      prefixLen := hprefixLen
      held := hheld
      declared := fun hle => absurd hle (by decide)
      bodyRemaining := by
        show c.bodyRemaining - k = 0
        omega }

def copied (c : ConsumerRecordCursor) (chunk : List UInt8) : ConsumerRecordCursor :=
  { c with
    prefixBytes := copyFromSlice c.prefixBytes c.prefixLen chunk
    prefixLen := c.prefixLen + chunk.length }

theorem Tracks.copied_held (h : Tracks l c p) (hshort : p.length < recordPrefixLen)
    {chunk : List UInt8} (hfit : p.length + chunk.length ≤ recordPrefixLen) :
    (c.copied chunk).held = p ++ chunk := by
  have hheld := h.held
  have hprefixLen := h.prefixLen
  rw [heldBack_short hshort] at hheld hprefixLen
  show (copyFromSlice c.prefixBytes c.prefixLen chunk).toList.take (c.prefixLen + chunk.length) = _
  rw [copyFromSlice_take _ (by omega)]
  exact congrArg (· ++ chunk) hheld

theorem Tracks.round_prefix_grows (h : Tracks l c p) (forwardableEnd : Nat)
    (hshort : p.length + (frame.length - offset) < recordPrefixLen) :
    ∃ c', scan l p (frame.drop offset) =
        ⟨prefixReports p.length (frame.drop offset), .ok (p ++ frame.drop offset)⟩ ∧
      (forwardRound frame offset forwardableEnd).run c =
        .ok (offset + (frame.length - offset), forwardableEnd) c' ∧
      Tracks l c' (p ++ frame.drop offset) ∧
      Overwritten c.prefixBytes c'.prefixBytes (prefixReports p.length (frame.drop offset)) := by
  have hp : p.length < recordPrefixLen := by omega
  have hlen : (frame.drop offset).length = frame.length - offset := length_drop
  have hprefixLen : c.prefixLen = p.length := by rw [h.prefixLen, heldBack_short hp]
  have hrem : c.bodyRemaining = 0 := by rw [h.bodyRemaining, if_pos hp]
  have hq : (p ++ frame.drop offset).length < recordPrefixLen := by simp; omega
  have hmin : min (recordPrefixLen - c.prefixLen) (frame.length - offset) =
      frame.length - offset := by omega
  have hopen : ¬ c.prefixLen + (frame.length - offset) = recordPrefixLen := by omega
  have htake : (frame.drop offset).take (frame.length - offset) = frame.drop offset :=
    take_of_length_le (le_of_eq hlen)
  refine ⟨c.copied (frame.drop offset), scan_prefix_grows (by omega), ?_, ?_, ?_⟩
  · simp only [forwardRound, run_get_bind, hrem, lt_irrefl, gt_iff_lt, if_false, hmin, htake,
      run_set_bind, hopen, run_pure, copied, hlen]
  · exact {
      limit := h.limit
      underway := .inl hq
      prefixLen := by
        rw [heldBack_short hq]
        show c.prefixLen + _ = _
        rw [length_append, hprefixLen]
      held := by rw [heldBack_short hq, h.copied_held hp (by omega)]
      declared := fun hle => absurd hq (not_lt.2 hle)
      bodyRemaining := by rw [if_pos hq]; exact hrem }
  · rw [← hprefixLen]
    exact copyFromSlice_overwritten _ _ _

/-- The byte that completes a prefix makes everything up to it forwardable, unless
the prefix is refused. -/
theorem Tracks.round_prefix_done (h : Tracks l c p) (forwardableEnd : Nat)
    (hp : p.length < recordPrefixLen)
    (hfull : recordPrefixLen ≤ p.length + (frame.length - offset)) :
    Passes l c p frame offset forwardableEnd := by
  obtain ⟨k, hk⟩ : ∃ k, p.length + k = recordPrefixLen := ⟨recordPrefixLen - p.length, by omega⟩
  refine ⟨k, by omega, by omega, ?_⟩
  have hpiece := length_piece frame (show offset + k ≤ frame.length by omega)
  generalize hchunk : (frame.drop offset).take k = chunk at hpiece
  have hprefixLen : c.prefixLen = p.length := by rw [h.prefixLen, heldBack_short hp]
  have hrem : c.bodyRemaining = 0 := by rw [h.bodyRemaining, if_pos hp]
  have hmin : min (recordPrefixLen - c.prefixLen) (frame.length - offset) = k := by omega
  have hfull : c.prefixLen + k = recordPrefixLen := by omega
  have hlimit : (c.copied chunk).limit = l := h.limit
  -- all four bytes of the buffer have been copied for this prefix
  have hbuf : (c.copied chunk).prefixBytes.toList = p ++ chunk := by
    rw [← h.copied_held hp (by omega), ConsumerRecordCursor.held]
    refine (take_of_length_le ?_).symm
    show _ ≤ c.prefixLen + chunk.length
    simp [hpiece, hfull]
  have hdecl : u32FromBeBytes (c.copied chunk).prefixBytes = declaredLength (p ++ chunk) := by
    rw [u32FromBeBytes_eq, hbuf]
  have hwritten : Overwritten c.prefixBytes (c.copied chunk).prefixBytes
      (prefixReports p.length chunk) := by
    rw [← hprefixLen]
    exact copyFromSlice_overwritten _ _ _
  have hround : (forwardRound frame offset forwardableEnd).run c =
      (do
        let declared ← check ((c.copied chunk).limit.admitPrefix (c.copied chunk).prefixBytes)
        modify fun c => { c with declared := declared, bodyRemaining := declared, prefixLen := 0 }
        return (offset + k, offset + k) :
        EStateM ConsumerRecordRejection ConsumerRecordCursor (Nat × Nat)).run (c.copied chunk) := by
    simp only [forwardRound, run_get_bind, hrem, lt_irrefl, gt_iff_lt, if_false, hmin, hchunk,
      run_set_bind, hfull, if_true, copied, hpiece]
  rw [hround, scan_prefix_done hp (by omega), andThen_ok, hlimit,
    ConsumerRecordLimit.admitPrefix, hdecl, decided]
  by_cases hover : declaredLength (p ++ chunk) > l.maxBody
  · simp only [hover, if_true]
    exact .inl ⟨_, _, _, rfl, rfl⟩
  · simp only [hover, if_false, run_check_ok_bind, run_modify_bind, run_pure]
    have hlen : (p ++ chunk).length = recordPrefixLen := by simp; omega
    by_cases hzero : declaredLength (p ++ chunk) = 0
    · simp only [hzero, if_true]
      refine .inr ⟨_, _, _, rfl, rfl, ?_, rfl, hwritten.trans (overwritten_refl _ (by simp))⟩
      exact {
        limit := h.limit
        underway := underway_nil
        prefixLen := rfl
        held := take_zero
        declared := fun hle => absurd hle (by decide)
        bodyRemaining := rfl }
    · simp only [hzero, if_false, append_nil]
      refine .inr ⟨_, _, _, rfl, rfl, ?_, heldBack_long (le_of_eq hlen.symm), hwritten⟩
      exact {
        limit := h.limit
        underway := .inr ⟨by omega, by omega, by omega⟩
        prefixLen := by rw [heldBack_long (le_of_eq hlen.symm)]; rfl
        held := by rw [heldBack_long (le_of_eq hlen.symm)]; exact take_zero
        declared := fun _ => rfl
        bodyRemaining := by
          rw [if_neg (by omega), hlen, Nat.add_sub_cancel_left] }

end Round

/-! ## The loop -/

/-- Where the forwardable bytes end, `offset` bytes into a frame that began with
`entry` pending. While the prefix carried into the frame is incomplete nothing
is forwardable; after that, what is held back is what lies beyond the end. -/
inductive Cut (entry frame : List UInt8) (offset forwardableEnd : Nat) (p : List UInt8) : Prop
  | carried (hend : forwardableEnd = 0) (hp : p = entry ++ frame.take offset)
      (hshort : p.length < recordPrefixLen)
  | cut (hle : forwardableEnd ≤ offset)
      (hheld : heldBack p = (frame.take offset).drop forwardableEnd)
      (hnone : forwardableEnd = 0 → heldBack entry = [])

section Loop

variable {entry frame : List UInt8} {offset forwardableEnd : Nat}

theorem cut_entry (entry frame : List UInt8) : Cut entry frame 0 0 entry := by
  rcases lt_or_ge entry.length recordPrefixLen with hshort | hlong
  · exact .carried rfl (by simp) hshort
  · exact .cut (le_refl 0) (by simp [heldBack_long hlong]) fun _ => heldBack_long hlong

theorem Cut.held_on (h : Cut entry frame offset forwardableEnd p) (hoff : offset ≤ frame.length)
    (hshort : (p ++ frame.drop offset).length < recordPrefixLen) :
    Cut entry frame frame.length forwardableEnd (p ++ frame.drop offset) := by
  cases h with
  | carried hend hp _ =>
    refine .carried hend ?_ hshort
    rw [hp, append_assoc, take_append_drop, take_length]
  | cut hle hheld hnone =>
    have hp : p.length < recordPrefixLen := by
      rw [length_append] at hshort
      omega
    refine .cut (le_trans hle hoff) ?_ hnone
    rw [heldBack_short hp] at hheld
    rw [heldBack_short hshort, take_length, hheld]
    conv_rhs => rw [← take_append_drop offset frame]
    rw [drop_append_of_le_length (by simp; omega)]

theorem cut_passed {k : Nat} (hk : 0 < k) (hp : heldBack p = []) :
    Cut entry frame (offset + k) (offset + k) p := by
  refine .cut (le_refl _) ?_ fun hzero => by omega
  rw [hp, drop_eq_nil_of_le]
  rw [length_take]
  exact min_le_left _ _

theorem forwardLoop_done (frame : List UInt8) (fuel forwardableEnd : Nat)
    (c : ConsumerRecordCursor) :
    (forwardLoop frame fuel frame.length forwardableEnd).run c = .ok forwardableEnd c := by
  cases fuel with
  | zero => rfl
  | succ fuel =>
    rw [forwardLoop, if_neg (lt_irrefl _)]
    rfl

/-- The loop answers as the scanner does on the rest of the frame. -/
theorem Tracks.loop (h : Tracks l c p) (fuel : Nat) (hcut : Cut entry frame offset forwardableEnd p)
    (hoff : offset ≤ frame.length) (hfuel : frame.length - offset ≤ fuel) :
    (∃ events e c', scan l p (frame.drop offset) = ⟨events, .error e⟩ ∧
      (forwardLoop frame fuel offset forwardableEnd).run c = .error e c') ∨
    ∃ events q fe c', scan l p (frame.drop offset) = ⟨events, .ok q⟩ ∧
      (forwardLoop frame fuel offset forwardableEnd).run c = .ok fe c' ∧
      Tracks l c' q ∧ Cut entry frame frame.length fe q ∧
      Overwritten c.prefixBytes c'.prefixBytes events := by
  induction fuel generalizing c p offset forwardableEnd with
  | zero =>
    obtain rfl : offset = frame.length := by omega
    refine .inr ⟨[], p, forwardableEnd, c, ?_, rfl, h, hcut, overwritten_refl _ (by simp)⟩
    rw [drop_length]
    rfl
  | succ fuel ih =>
    rcases lt_or_eq_of_le hoff with hlt | rfl
    · rw [forwardLoop, if_pos hlt]
      by_cases hpass : recordPrefixLen ≤ p.length + (frame.length - offset)
      · obtain ⟨k, hk, hle, hround⟩ : Passes l c p frame offset forwardableEnd :=
          (lt_or_ge p.length recordPrefixLen).elim
            (h.round_prefix_done forwardableEnd · hpass) (h.round_body forwardableEnd · hlt)
        have hsplit := take_append_drop k (frame.drop offset)
        rw [drop_drop] at hsplit
        rw [← hsplit, scan_append]
        obtain ⟨events, e, c', hscan, hrun⟩ | ⟨events, q, c', hscan, hrun, hq, hheld, hw⟩ := hround
        · exact .inl ⟨events, e, c', by rw [hscan, andThen_error], run_bind_of_error hrun⟩
        · rw [hscan, andThen_ok, run_bind_of_ok hrun]
          obtain ⟨_, e, c'', hscan', hrun'⟩ | ⟨_, q', fe, c'', hscan', hrun', hq', hcut', hw'⟩ :=
            ih hq (cut_passed hk hheld) hle (by omega)
          · exact .inl ⟨_, e, c'', by rw [hscan'], hrun'⟩
          · exact .inr ⟨_, q', fe, c'', by rw [hscan'], hrun', hq', hcut', hw.trans hw'⟩
      · obtain ⟨c', hscan, hrun, hq, hw⟩ := h.round_prefix_grows forwardableEnd (not_le.1 hpass)
        rw [Nat.add_sub_cancel' hoff] at hrun
        have hshort : (p ++ frame.drop offset).length < recordPrefixLen := by simp; omega
        refine .inr ⟨_, _, forwardableEnd, c', hscan, ?_, hq, hcut.held_on hoff hshort, hw⟩
        rw [run_bind_of_ok hrun]
        exact forwardLoop_done frame fuel forwardableEnd c'
    · refine .inr ⟨[], p, forwardableEnd, c, ?_, forwardLoop_done _ _ _ _, h, hcut,
        overwritten_refl _ (by simp)⟩
      rw [drop_length]
      rfl

end Loop

/-! ## One frame -/

/-- The prefix bytes carried into a frame are still in the buffer after it: at each
carried position, the last prefix byte of the frame, if there is one, repeats the
carried byte. -/
def CarriedIntact (p : List UInt8) (events : List RecordEvent) : Prop :=
  ∀ i b, i < (heldBack p).length → lastPrefixByte i events = some b → (heldBack p)[i]? = some b

theorem length_heldBack_lt (p : List UInt8) : (heldBack p).length < recordPrefixLen := by
  rcases lt_or_ge p.length recordPrefixLen with hshort | hlong
  · rwa [heldBack_short hshort]
  · rw [heldBack_long hlong]
    decide

/-- What the buffer gives back for the bytes carried into the frame. -/
theorem Tracks.returns_carried_iff (h : Tracks l c p) {buf : Vector UInt8 recordPrefixLen}
    {events : List RecordEvent} (hw : Overwritten c.prefixBytes buf events) :
    buf.toList.take c.prefixLen = heldBack p ↔ CarriedIntact p events := by
  have hlt := length_heldBack_lt p
  have hheld := h.held
  rw [ConsumerRecordCursor.held, h.prefixLen] at hheld
  rw [h.prefixLen, List.ext_getElem?_iff]
  have hbyte (i : Nat) (hi : i < (heldBack p).length) :
      (buf.toList.take (heldBack p).length)[i]? =
        (lastPrefixByte i events).or (heldBack p)[i]? := by
    have hi' : i < recordPrefixLen := by omega
    have hsame : (heldBack p)[i]? = c.prefixBytes.toList[i]? := by
      conv_lhs => rw [← hheld]
      exact getElem?_take_of_lt hi
    rw [getElem?_take_of_lt hi, hw.getElem? hi', hsame]
  constructor
  · intro hall i b hi hb
    rw [← hall i, hbyte i hi, hb]
    rfl
  · intro hintact i
    by_cases hi : i < (heldBack p).length
    · rw [hbyte i hi]
      cases hlast : lastPrefixByte i events with
      | none => rfl
      | some b => exact (hintact i b hi hlast).symm
    · rw [getElem?_eq_none (by simp; omega), getElem?_eq_none (by omega)]

/-- The bytes `forward` answers, given the buffer after the loop. -/
theorem Tracks.returned_iff (h : Tracks l c p) {frame q : List UInt8} {fe : Nat}
    {events : List RecordEvent} {c' : ConsumerRecordCursor}
    (hscan : scan l p frame = ⟨events, .ok q⟩) (hcut : Cut p frame frame.length fe q)
    (hw : Overwritten c.prefixBytes c'.prefixBytes events) :
    (if fe = 0 then [] else c'.prefixBytes.toList.take c.prefixLen ++ frame.take fe) ++ heldBack q =
      heldBack p ++ frame ↔ CarriedIntact p events := by
  cases hcut with
  | carried hend hq hshort =>
    rw [take_length] at hq
    rw [hq, length_append] at hshort
    have hp : p.length < recordPrefixLen := by omega
    rw [scan_prefix_grows hshort] at hscan
    cases hscan
    have hpq : (p ++ frame).length < recordPrefixLen := by simpa using hshort
    simp only [hend, if_true, heldBack_short hp, heldBack_short hpq, nil_append, true_iff]
    -- positions before the carried length are not written again
    intro i b hi hb
    rw [heldBack_short hp] at hi
    rw [lastPrefixByte_prefixReports, if_neg (not_le.2 hi)] at hb
    cases hb
  | cut hle hheld hnone =>
    rw [take_length] at hheld
    by_cases hzero : fe = 0
    · have hp := hnone hzero
      simp only [hzero, if_true, hheld, hp, drop_zero, true_iff]
      intro i b hi
      rw [hp] at hi
      exact absurd hi (Nat.not_lt_zero i)
    · rw [if_neg hzero, hheld, append_assoc, take_append_drop,
        append_cancel_right_eq]
      exact h.returns_carried_iff hw

/-- A frame is refused as the scanner refuses it. An accepted frame leads where
the scanner leads, and what is returned continues the stream exactly when the
carried bytes are intact. -/
theorem Tracks.forward_spec (h : Tracks l c p) (frame : List UInt8) :
    (∃ events e c', acceptFrame l p frame = ⟨events, .error e⟩ ∧
      (forward frame).run c = .error e c') ∨
    ∃ events q out c', acceptFrame l p frame = ⟨events, .ok q⟩ ∧
      (forward frame).run c = .ok out c' ∧ Tracks l c' q ∧
      (out ++ heldBack q = heldBack p ++ frame ↔ CarriedIntact p events) := by
  unfold forward acceptFrame
  simp only [run_get_bind, h.buffered_eq, h.limit]
  cases l.admitInput p.length frame.length with
  | error e => exact .inl ⟨_, e, c, rfl, rfl⟩
  | ok u =>
    simp only [run_check_ok_bind]
    obtain ⟨events, e, c', hscan, hrun⟩ | ⟨events, q, fe, c', hscan, hrun, hq, hcut, hw⟩ :=
      h.loop frame.length (cut_entry p frame) (Nat.zero_le _) (Nat.sub_le _ _)
    · exact .inl ⟨events, e, c', hscan, run_bind_of_error hrun⟩
    · refine .inr ⟨events, q, _, c', hscan, ?_, hq, h.returned_iff hscan hcut hw⟩
      rw [run_bind_of_ok hrun, run_get_bind]
      by_cases hzero : fe = 0 <;> simp only [hzero, if_true, if_false, run_pure]

end ConsumerRecordCursor

end AgentUplink
