/-
What a public record stream means, one byte at a time.

The scanner keeps the bytes of the record under way. A byte that completes a
record ends it, and a byte that completes a length prefix over the limit stops
the scan. It buffers nothing it has to account for and forwards nothing, so it
serves as the common reference of the assembler and the cursor.

The scanner also reports each byte of a length prefix with its position in the
prefix. What the cursor's prefix buffer ends up holding is read off these
reports.
-/
import AgentUplink.Relay.ConsumerFraming

namespace AgentUplink

open Machine Incremental List Outcome

theorem size_four (b0 b1 b2 b3 : UInt8) : #[b0, b1, b2, b3].size = 4 := rfl

/-- The body length the first four bytes declare. -/
def declaredLength : List UInt8 → Nat
  | b0 :: b1 :: b2 :: b3 :: _ => u32FromBeBytes ⟨#[b0, b1, b2, b3], size_four b0 b1 b2 b3⟩
  | _ => 0

theorem declaredLength_append {p : List UInt8} (hp : recordPrefixLen ≤ p.length)
    (rest : List UInt8) : declaredLength (p ++ rest) = declaredLength p := by
  match p, hp with
  | _ :: _ :: _ :: _ :: _, _ => rfl

inductive RecordEvent
  /-- A byte of a length prefix, with its position there. -/
  | prefixByte (position : Nat) (byte : UInt8)
  | body (bytes : List UInt8)

def RecordEvent.body? : RecordEvent → Option (List UInt8)
  | .prefixByte _ _ => none
  | .body bytes => some bytes

def RecordEvent.prefixByteAt (position : Nat) : RecordEvent → Option UInt8
  | .prefixByte i byte => if i = position then some byte else none
  | .body _ => none

def lastPrefixByte (position : Nat) (events : List RecordEvent) : Option UInt8 :=
  (events.filterMap (RecordEvent.prefixByteAt position)).getLast?

section Scan

variable (l : ConsumerRecordLimit)

/-- One byte, after the bytes `pending` of the record under way. -/
def scanByte (pending : List UInt8) (byte : UInt8) :
    Outcome RecordEvent ConsumerRecordRejection (List UInt8) :=
  let now := pending ++ [byte]
  let report : List RecordEvent :=
    if pending.length < recordPrefixLen then [.prefixByte pending.length byte] else []
  if now.length < recordPrefixLen then ⟨report, .ok now⟩
  else if declaredLength now > l.maxBody then
    ⟨report, .error (.declaredLengthExceedsLimit (declaredLength now) l.maxBody)⟩
  else if now.length = recordPrefixLen + declaredLength now then
    ⟨report ++ [.body (now.drop recordPrefixLen)], .ok []⟩
  else ⟨report, .ok now⟩

def scan (pending bytes : List UInt8) :
    Outcome RecordEvent ConsumerRecordRejection (List UInt8) :=
  run (scanByte l) pending bytes

/-- One frame: the bounded window is decided first, then the bytes are scanned. -/
def acceptFrame (pending frame : List UInt8) :
    Outcome RecordEvent ConsumerRecordRejection (List UInt8) :=
  match l.admitInput pending.length frame.length with
  | .error e => ⟨[], .error e⟩
  | .ok () => scan l pending frame

/-- Bytes of one record that is not complete, its prefix within the limit. -/
def Underway (pending : List UInt8) : Prop :=
  pending.length < recordPrefixLen ∨
    recordPrefixLen ≤ pending.length ∧ declaredLength pending ≤ l.maxBody ∧
      pending.length < recordPrefixLen + declaredLength pending

end Scan

variable {l : ConsumerRecordLimit} {p x : List UInt8}

theorem underway_nil : Underway l [] := .inl (by decide)

theorem scan_append (xs ys : List UInt8) :
    scan l p (xs ++ ys) = (scan l p xs).andThen fun q => scan l q ys :=
  run_append p xs ys

/-! ## One byte -/

/-- The byte that completes a length prefix decides it. -/
def decided (l : ConsumerRecordLimit) (complete : List UInt8) :
    Outcome RecordEvent ConsumerRecordRejection (List UInt8) :=
  if declaredLength complete > l.maxBody then
    ⟨[], .error (.declaredLengthExceedsLimit (declaredLength complete) l.maxBody)⟩
  else if declaredLength complete = 0 then ⟨[.body []], .ok []⟩
  else ⟨[], .ok complete⟩

section Byte

variable {b : UInt8}

theorem scanByte_prefix_grows (h : p.length + 1 < recordPrefixLen) :
    scanByte l p b = ⟨[.prefixByte p.length b], .ok (p ++ [b])⟩ := by
  have hp : p.length < recordPrefixLen := by omega
  simp [scanByte, h, hp]

theorem scanByte_prefix_done (h : p.length + 1 = recordPrefixLen) :
    scanByte l p b =
      (⟨[.prefixByte p.length b], .ok (p ++ [b])⟩ : Outcome _ _ _).andThen (decided l) := by
  have hp : p.length < recordPrefixLen := by omega
  have hdrop : (p ++ [b]).drop recordPrefixLen = [] := drop_eq_nil_of_le (by simp [h])
  unfold scanByte decided
  simp only [length_append, length_singleton, h, hp, hdrop, if_true, lt_irrefl,
    if_false, andThen_ok, left_eq_add]
  by_cases hover : declaredLength (p ++ [b]) > l.maxBody
  · simp [hover]
  · by_cases hzero : declaredLength (p ++ [b]) = 0 <;> simp [hover, hzero]

variable (hp : recordPrefixLen ≤ p.length) (hlim : declaredLength p ≤ l.maxBody)
include hp hlim

theorem scanByte_body_grows (h : p.length + 1 < recordPrefixLen + declaredLength p) :
    scanByte l p b = ⟨[], .ok (p ++ [b])⟩ := by
  have hdecl := declaredLength_append hp [b]
  have hlong : ¬ p.length + 1 < recordPrefixLen := by omega
  have hpre : ¬ p.length < recordPrefixLen := by omega
  have hmore : ¬ p.length + 1 = recordPrefixLen + declaredLength p := by omega
  simp [scanByte, hdecl, hlong, hpre, hmore, hlim]

theorem scanByte_body_done (h : p.length + 1 = recordPrefixLen + declaredLength p) :
    scanByte l p b = ⟨[.body ((p ++ [b]).drop recordPrefixLen)], .ok []⟩ := by
  have hdecl := declaredLength_append hp [b]
  have hpre : ¬ p.length < recordPrefixLen := by omega
  have hover : ¬ l.maxBody < declaredLength p := by omega
  simp [scanByte, hdecl, hpre, h, hover]

end Byte

/-! ## Whole pieces

A piece of a frame that stays within a length prefix, completes one, stays
within a body or completes one. -/

def prefixReports : Nat → List UInt8 → List RecordEvent
  | _, [] => []
  | n, b :: bs => .prefixByte n b :: prefixReports (n + 1) bs

theorem prefixReports_append (n : Nat) (xs ys : List UInt8) :
    prefixReports n (xs ++ ys) = prefixReports n xs ++ prefixReports (n + xs.length) ys := by
  induction xs generalizing n with
  | nil => rfl
  | cons b xs ih => simp [prefixReports, ih, add_assoc, add_comm 1]

@[simp] theorem prefixReports_bodies (n : Nat) (xs : List UInt8) :
    (prefixReports n xs).filterMap RecordEvent.body? = [] := by
  induction xs generalizing n with
  | nil => rfl
  | cons b xs ih => simpa [prefixReports, RecordEvent.body?] using ih (n + 1)

theorem scan_cons (b : UInt8) (bytes : List UInt8) :
    scan l p (b :: bytes) = (scanByte l p b).andThen fun q => scan l q bytes := rfl

theorem scan_concat (bytes : List UInt8) (b : UInt8) :
    scan l p (bytes ++ [b]) = (scan l p bytes).andThen fun q => scanByte l q b := by
  rw [scan_append]
  simp only [scan, run_singleton]

variable {chunk q : List UInt8} {events : List RecordEvent}

theorem scan_prefix_grows (h : p.length + chunk.length < recordPrefixLen) :
    scan l p chunk = ⟨prefixReports p.length chunk, .ok (p ++ chunk)⟩ := by
  induction chunk generalizing p with
  | nil => simp [scan, prefixReports, Outcome.quiet]
  | cons b chunk ih =>
    rw [length_cons] at h
    have hrest := ih (p := p ++ [b]) (by simp; omega)
    rw [scan_cons, scanByte_prefix_grows (by omega)]
    simp [hrest, prefixReports]

theorem scan_prefix_done (hp : p.length < recordPrefixLen)
    (h : p.length + chunk.length = recordPrefixLen) :
    scan l p chunk =
      (⟨prefixReports p.length chunk, .ok (p ++ chunk)⟩ : Outcome _ _ _).andThen (decided l) := by
  obtain rfl | ⟨init, b, rfl⟩ := chunk.eq_nil_or_concat'
  · simp at h
    omega
  rw [length_append, length_singleton] at h
  rw [scan_concat, scan_prefix_grows (by omega), andThen_ok,
    scanByte_prefix_done (by simp; omega), prefixReports_append]
  simp [prefixReports]

section Body

variable {chunk : List UInt8} (hp : recordPrefixLen ≤ p.length)
  (hlim : declaredLength p ≤ l.maxBody)
include hp hlim

theorem scan_body_grows (h : p.length + chunk.length < recordPrefixLen + declaredLength p) :
    scan l p chunk = ⟨[], .ok (p ++ chunk)⟩ := by
  induction chunk generalizing p with
  | nil => simp [scan, Outcome.quiet]
  | cons b chunk ih =>
    rw [length_cons] at h
    have hdecl := declaredLength_append hp [b]
    have hrest := ih (p := p ++ [b]) (by simp; omega) (by omega) (by simp [hdecl]; omega)
    rw [scan_cons, scanByte_body_grows hp hlim (by omega)]
    simp [hrest]

theorem scan_body_done (hne : chunk ≠ [])
    (h : p.length + chunk.length = recordPrefixLen + declaredLength p) :
    scan l p chunk = ⟨[.body ((p ++ chunk).drop recordPrefixLen)], .ok []⟩ := by
  obtain rfl | ⟨init, b, rfl⟩ := chunk.eq_nil_or_concat'
  · exact absurd rfl hne
  rw [length_append, length_singleton] at h
  have hdecl := declaredLength_append hp init
  rw [scan_concat, scan_body_grows hp hlim (by omega), andThen_ok,
    scanByte_body_done (by simp; omega) (by omega) (by simp [hdecl]; omega)]
  simp

end Body

/-! ## Records under way

What is pending after an accepted byte is again a record under way, and it is
either everything since the record began or shorter than what was just read. -/

theorem Underway.scanByte_ok {b : UInt8} (hp : Underway l p)
    (h : scanByte l p b = ⟨events, .ok q⟩) : Underway l q ∧ (q = p ++ [b] ∨ q = []) := by
  rcases hp with hshort | ⟨hlong, hlim, hmore⟩
  · rcases Nat.lt_or_eq_of_le hshort with hlt | heq
    · rw [scanByte_prefix_grows hlt] at h
      cases h
      exact ⟨.inl (by simpa using hlt), .inl rfl⟩
    · rw [scanByte_prefix_done heq, andThen_ok] at h
      have hlen : (p ++ [b]).length = recordPrefixLen := by simpa using heq
      unfold decided at h
      split at h
      · cases h
      · next hover =>
        split at h
        · cases h
          exact ⟨underway_nil, .inr rfl⟩
        · cases h
          exact ⟨.inr ⟨by omega, by omega, by omega⟩, .inl rfl⟩
  · rcases Nat.lt_or_eq_of_le hmore with hlt | heq
    · rw [scanByte_body_grows hlong hlim hlt] at h
      cases h
      have hdecl := declaredLength_append hlong [b]
      exact ⟨.inr ⟨by simp; omega, by omega, by simp [hdecl]; omega⟩, .inl rfl⟩
    · rw [scanByte_body_done hlong hlim heq] at h
      cases h
      exact ⟨underway_nil, .inr rfl⟩

theorem Underway.scan_ok {bytes : List UInt8} (hp : Underway l p)
    (h : scan l p bytes = ⟨events, .ok q⟩) :
    Underway l q ∧ (q = p ++ bytes ∨ q.length < bytes.length) := by
  induction bytes generalizing p events with
  | nil =>
    cases h
    exact ⟨hp, .inl (append_nil _).symm⟩
  | cons b bytes ih =>
    obtain ⟨_, r, _, hb, hrest, _⟩ := andThen_eq_ok.1 h
    obtain ⟨hr, hrb⟩ := hp.scanByte_ok hb
    obtain ⟨hq, hqr⟩ := ih hr hrest
    refine ⟨hq, ?_⟩
    rcases hqr with rfl | hshort
    · rcases hrb with rfl | rfl
      · exact .inl (by simp)
      · exact .inr (by simp)
    · exact .inr (Nat.lt_succ_of_lt hshort)

/-! ## Whole records

A stream read from a record boundary. -/

section

variable (hx : recordPrefixLen ≤ x.length)
include hx

theorem declaredLength_take : declaredLength (x.take recordPrefixLen) = declaredLength x := by
  conv_rhs => rw [← take_append_drop recordPrefixLen x]
  rw [declaredLength_append (by simp [hx])]

/-- A prefix that is all there is decided before anything after it is read. -/
theorem scan_from_boundary :
    scan l [] x =
      ((⟨prefixReports 0 (x.take recordPrefixLen), .ok (x.take recordPrefixLen)⟩ :
        Outcome _ _ _).andThen (decided l)).andThen fun q => scan l q (x.drop recordPrefixLen) := by
  conv_lhs => rw [← take_append_drop recordPrefixLen x]
  rw [scan_append, scan_prefix_done (by decide) (by simp [hx])]
  rfl

theorem scan_refused (hover : l.maxBody < declaredLength x) :
    scan l [] x = ⟨prefixReports 0 (x.take recordPrefixLen),
      .error (.declaredLengthExceedsLimit (declaredLength x) l.maxBody)⟩ := by
  rw [scan_from_boundary hx]
  simp [decided, declaredLength_take hx, hover]

end

theorem scan_underway (hp : Underway l p) :
    scan l [] p = ⟨prefixReports 0 (p.take recordPrefixLen), .ok p⟩ := by
  rcases hp with hshort | ⟨hlong, hlim, hmore⟩
  · rw [scan_prefix_grows (by simpa using hshort), take_of_length_le (le_of_lt hshort)]
    rfl
  · have hdecl := declaredLength_take hlong
    have hover : ¬ l.maxBody < declaredLength p := by omega
    have hzero : ¬ declaredLength p = 0 := by omega
    rw [scan_from_boundary hlong]
    simp only [decided, hdecl, hover, hzero, if_false, andThen_ok]
    rw [scan_body_grows (by simp [hlong]) (by omega) (by simp [hdecl]; omega)]
    simp

theorem scan_record (hlim : declaredLength x ≤ l.maxBody)
    (hlen : x.length = recordPrefixLen + declaredLength x) :
    scan l [] x = ⟨prefixReports 0 (x.take recordPrefixLen) ++ [.body (x.drop recordPrefixLen)],
      .ok []⟩ := by
  have hlong : recordPrefixLen ≤ x.length := by omega
  have hdecl := declaredLength_take hlong
  have hover : ¬ l.maxBody < declaredLength x := by omega
  rw [scan_from_boundary hlong]
  by_cases hzero : declaredLength x = 0
  · have hdrop : x.drop recordPrefixLen = [] := drop_eq_nil_of_le (by omega)
    simp [decided, hdecl, hzero, hdrop, scan, Outcome.quiet]
  · simp only [decided, hdecl, hover, hzero, if_false, andThen_ok]
    rw [scan_body_done (by simp [hlong]) (by omega) _ (by simp [hdecl]; omega)]
    · simp
    · intro hnil
      have := congrArg List.length hnil
      simp at this
      omega

/-- A stream is refused at once, is a record under way, or begins with a complete
record. -/
theorem stream_induction (l : ConsumerRecordLimit) {motive : List UInt8 → Prop}
    (underway : ∀ x, Underway l x → motive x)
    (refused : ∀ x, recordPrefixLen ≤ x.length → l.maxBody < declaredLength x → motive x)
    (record : ∀ r rest, declaredLength r ≤ l.maxBody →
      r.length = recordPrefixLen + declaredLength r → motive rest → motive (r ++ rest))
    (x : List UInt8) : motive x := by
  induction hn : x.length using Nat.strongRecOn generalizing x with
  | _ n ih =>
    by_cases hlong : recordPrefixLen ≤ x.length
    · by_cases hover : l.maxBody < declaredLength x
      · exact refused x hlong hover
      · by_cases hmore : x.length < recordPrefixLen + declaredLength x
        · exact underway x (.inr ⟨hlong, not_lt.1 hover, hmore⟩)
        · have hr : (x.take (recordPrefixLen + declaredLength x)).length =
              recordPrefixLen + declaredLength x := by simp; omega
          have hdecl : declaredLength (x.take (recordPrefixLen + declaredLength x)) =
              declaredLength x := by
            conv_rhs => rw [← take_append_drop (recordPrefixLen + declaredLength x) x]
            rw [declaredLength_append (by omega)]
          have hrest := ih (x.drop (recordPrefixLen + declaredLength x)).length
            (by simp [recordPrefixLen] at *; omega) _ rfl
          have := record (x.take (recordPrefixLen + declaredLength x)) _ (by omega) (by omega) hrest
          rwa [take_append_drop] at this
    · exact underway x (.inl (not_le.1 hlong))

end AgentUplink
