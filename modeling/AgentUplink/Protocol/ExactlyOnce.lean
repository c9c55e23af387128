/-
Exactly-once processing of journaled control messages.

Every call on a journal is one of six changes. Over a run of any calls a message is
reported new at most once, an entry stays with the fingerprint it was made with, its
replies only grow at the end, and the bytes used are the charges of what is held.
-/
import AgentUplink.Protocol.ControlJournal

namespace AgentUplink

open Machine Fallible Std List Option Ledger

def ResponseRecord.charge (r : ResponseRecord) : Nat :=
  responseOverhead + r.responseId.utf8ByteSize + r.bytes.length

/-- The bytes a request and its replies take from the budget. -/
def JournalEntry.charge (messageId : String) (e : JournalEntry) : Nat :=
  entryOverhead + messageId.utf8ByteSize + (e.responses.map ResponseRecord.charge).sum

def JournalEntry.repeated (e : JournalEntry) : Observation :=
  if e.responses.isEmpty then .pendingDuplicate else .completedDuplicate

namespace ControlJournal

section

variable (s : ControlJournal)

def observed (now : Nat) : ControlJournal := { s with lastNow := now }

def InTime (now : Nat) : Prop := s.lastNow ≤ now ∧ now < s.deadline

def Named (messageId : String) : Prop :=
  ¬ (messageId.isEmpty ∨ messageId.utf8ByteSize > maxIdentifierBytes)

def Sized (canonical : List UInt8) : Prop :=
  ¬ (canonical.isEmpty ∨ canonical.length > maxControlMessageBytes)

def admitted (messageId : String) (fingerprint : List UInt8) :
    ControlJournal :=
  { s with
    entries := s.entries.insert messageId { fingerprint, responses := [] }
    usedBytes := s.usedBytes + (entryOverhead + messageId.utf8ByteSize) }

def pushed (messageId : String) (entry : JournalEntry)
    (record : ResponseRecord) : ControlJournal :=
  { s with
    entries := s.entries.insert messageId { entry with responses := entry.responses ++ [record] }
    usedBytes := s.usedBytes + record.charge
    responseItems := s.responseItems + 1 }

end

/-- The reply a call asks to record. -/
def Op.records : Op → Option (String × ResponseRecord)
  | complete messageId bytes _ => some (messageId, { responseId := "", bytes })
  | appendResponse messageId responseId bytes _ => some (messageId, { responseId, bytes })
  | observe _ _ _ | response _ _ | responses _ _ => none

variable [Sha256]

/-- What a call may answer and do. -/
inductive Change (s : ControlJournal) : Op → Except JournalError Answer → ControlJournal → Prop
  | refused (op : Op) (e : JournalError) (now : Nat) : Change s op (.error e) (s.observed now)
  | read {op : Op} {a : Answer} (now : Nat) (hop : op.records = none)
      (ha : ∀ observation, a ≠ .observed observation) : Change s op (.ok a) (s.observed now)
  | duplicate {messageId : String} {canonical : List UInt8} {now : Nat} {entry : JournalEntry}
      (hentry : s.entries[messageId]? = some entry)
      (hfingerprint : entry.fingerprint = Sha256.digest canonical) :
      Change s (.observe messageId canonical now) (.ok (.observed entry.repeated))
        (s.observed now)
  | enter {messageId : String} {canonical : List UInt8} {now : Nat} (hnamed : Named messageId)
      (habsent : s.entries[messageId]? = none) (hsize : s.entries.size < s.maxEntries)
      (hcharge : entryOverhead + messageId.utf8ByteSize ≤ s.maxBytes - s.usedBytes) :
      Change s (.observe messageId canonical now) (.ok (.observed .new))
        ((s.observed now).admitted messageId (Sha256.digest canonical))
  | again {op : Op} {messageId : String} {record : ResponseRecord} {entry : JournalEntry}
      (now : Nat) (hop : op.records = some (messageId, record))
      (hentry : s.entries[messageId]? = some entry) (hmem : record ∈ entry.responses) :
      Change s op (.ok .recorded) (s.observed now)
  | record {op : Op} {messageId : String} {record : ResponseRecord} {entry : JournalEntry}
      (now : Nat) (hop : op.records = some (messageId, record))
      (hentry : s.entries[messageId]? = some entry)
      (hfresh : ∀ r ∈ entry.responses, r.responseId ≠ record.responseId)
      (hitems : s.responseItems < s.maxEntries)
      (hcharge : record.charge ≤ s.maxBytes - s.usedBytes) :
      Change s op (.ok .recorded) ((s.observed now).pushed messageId entry record)

section

variable {s : ControlJournal} {now : Nat}

def Changes {α : Type} (op : Op) (x : Journaling α) (answer : α → Answer)
    (s : ControlJournal) : Prop :=
  wp x s (fun a t => Change s op (.ok (answer a)) t) fun e t => Change s op (.error e) t

theorem Changes.timed {α : Type} {op : Op} {f : Unit → Journaling α} {answer : α → Answer}
    (h : wp (f ()) (s.observed now) (fun a t => Change s op (.ok (answer a)) t)
      fun e t => Change s op (.error e) t) : Changes op (checkTime now >>= f) answer s := by
  unfold Changes checkTime
  simp only [wp_bind, wp_get, wp_failIf, wp_modify]
  exact ⟨fun _ => .refused _ _ s.lastNow, fun _ => ⟨fun _ => .refused _ _ now, fun _ => h⟩⟩

variable (messageId : String)

theorem observe_changes (canonical : List UInt8) :
    Changes (.observe messageId canonical now) (observe messageId canonical now) .observed s := by
  refine .timed ?_
  simp only [wp_bind, wp_failIf, wp_get]
  refine ⟨fun _ => .refused _ _ now, fun hnamed => ⟨fun _ => .refused _ _ now, fun _ => ?_⟩⟩
  cases hentry : (s.observed now).entries[messageId]? with
  | some entry =>
    simp only [wp_bind, wp_failIf, wp_pure]
    exact ⟨fun _ => .refused _ _ now, fun hsame => .duplicate hentry (not_not.1 hsame)⟩
  | none =>
    simp only [wp_bind, wp_failIf, wp_modify, wp_pure]
    refine ⟨fun _ => .refused _ _ now, fun hroom => ?_⟩
    rw [not_or, Nat.not_le, Nat.not_lt] at hroom
    exact .enter hnamed hentry hroom.1 hroom.2

theorem pushResponse_changes {op : Op} {messageId : String} {record : ResponseRecord}
    {entry : JournalEntry} {charge : Nat} (hop : op.records = some (messageId, record))
    (hentry : s.entries[messageId]? = some entry)
    (hfresh : ∀ r ∈ entry.responses, r.responseId ≠ record.responseId)
    (hcharge : charge = record.charge) :
    wp (pushResponse messageId record charge) (s.observed now)
      (fun _ t => Change s op (.ok .recorded) t) fun e t => Change s op (.error e) t := by
  unfold pushResponse
  simp only [wp_bind, wp_get, wp_failIf, wp_orFail, wp_modify]
  refine ⟨fun _ => .refused _ _ now, fun hroom =>
    ⟨fun _ => .refused _ _ now, fun other hother => ?_⟩⟩
  cases hentry.symm.trans hother
  rw [not_or, Nat.not_le, Nat.not_lt] at hroom
  subst hcharge
  exact .record now hop hentry hfresh hroom.1 hroom.2

theorem complete_changes (bytes : List UInt8) :
    Changes (.complete messageId bytes now) (complete messageId bytes now) (fun _ => .recorded)
      s := by
  refine .timed ?_
  simp only [wp_bind, wp_failIf, wp_get, wp_orFail]
  refine ⟨fun _ => .refused _ _ now, fun _ => ⟨fun _ => .refused _ _ now, fun entry hentry => ?_⟩⟩
  cases hfirst : entry.responses.head? with
  | some previous =>
    refine (wp_failIf _ _).2 ⟨fun _ => .refused _ _ now, fun hsame => ?_⟩
    obtain ⟨hempty, rfl⟩ := not_not.1 hsame
    refine .again now rfl hentry ?_
    have hid : previous.responseId = "" := String.isEmpty_iff.1 hempty
    rw [← hid]
    exact mem_of_head? hfirst
  | none =>
    rw [wp_bind, wp_orFail]
    refine ⟨fun _ => .refused _ _ now, fun charge hcharge => ?_⟩
    obtain ⟨_, rfl⟩ := checkedAdd_eq_some.1 hcharge
    refine pushResponse_changes rfl hentry ?_ rfl
    rw [List.head?_eq_none_iff.1 hfirst]
    exact fun _ h => absurd h not_mem_nil

theorem appendResponse_changes (responseId : String) (bytes : List UInt8) :
    Changes (.appendResponse messageId responseId bytes now)
      (appendResponse messageId responseId bytes now) (fun _ => .recorded) s := by
  refine .timed ?_
  simp only [wp_bind, wp_failIf, wp_get, wp_orFail]
  refine ⟨fun _ => .refused _ _ now, fun _ => ⟨fun _ => .refused _ _ now, fun _ =>
    ⟨fun _ => .refused _ _ now, fun entry hentry => ?_⟩⟩⟩
  cases hfind : entry.responses.find? (fun previous => previous.responseId = responseId) with
  | some previous =>
    refine (wp_failIf _ _).2 ⟨fun _ => .refused _ _ now, fun hsame => ?_⟩
    have hid : previous.responseId = responseId := by simpa using List.find?_some hfind
    refine .again now rfl hentry ?_
    rw [← not_not.1 hsame, ← hid]
    exact mem_of_find?_eq_some hfind
  | none =>
    rw [wp_bind, wp_orFail]
    refine ⟨fun _ => .refused _ _ now, fun charge hcharge => ?_⟩
    obtain ⟨middle, hfirst, hsecond⟩ := bind_eq_some_iff.1 hcharge
    obtain ⟨_, rfl⟩ := checkedAdd_eq_some.1 hfirst
    obtain ⟨_, rfl⟩ := checkedAdd_eq_some.1 hsecond
    refine pushResponse_changes rfl hentry (fun r hr hid => ?_) rfl
    exact List.find?_eq_none.1 hfind r hr (decide_eq_true hid)

theorem response_changes : Changes (.response messageId now) (response messageId now) .reply s := by
  refine .timed ?_
  simp only [wp_bind, wp_get, wp_orFail, wp_pure]
  exact ⟨fun _ => .refused _ _ now, fun _ _ => .read now rfl fun _ h => by cases h⟩

theorem responses_changes :
    Changes (.responses messageId now) (responses messageId now) .replies s := by
  refine .timed ?_
  simp only [wp_bind, wp_get, wp_orFail, wp_ite, wp_pure]
  exact ⟨fun _ => .refused _ _ now, fun _ _ =>
    ⟨fun _ => .read now rfl fun _ h => (by cases h), fun _ => .read now rfl fun _ h => by cases h⟩⟩

theorem Op.call_of_wp {α : Type} {op : Op} {x : Journaling α} {answer : α → Answer}
    {p : Except JournalError Answer → ControlJournal → Prop} (hexec : op.exec = answer <$> x)
    (h : wp x s (fun a => p (.ok (answer a))) fun e => p (.error e)) :
    p (op.call s).answer (op.next s) := by
  unfold wp at h
  unfold Op.call Op.next
  rw [hexec, run_map]
  cases hrun : x.run s with
  | ok a t | error e t =>
    rw [hrun] at h
    exact h

theorem Op.change (op : Op) (s : ControlJournal) : Change s op (op.call s).answer (op.next s) := by
  cases op with
  | observe messageId canonical now => exact Op.call_of_wp rfl (observe_changes messageId canonical)
  | complete messageId bytes now => exact Op.call_of_wp rfl (complete_changes messageId bytes)
  | appendResponse messageId responseId bytes now =>
    exact Op.call_of_wp rfl (appendResponse_changes messageId responseId bytes)
  | response messageId now => exact Op.call_of_wp rfl (response_changes messageId)
  | responses messageId now => exact Op.call_of_wp rfl (responses_changes messageId)

end

/-! ## What a journal keeps -/

/-- Entries stay, with their fingerprint, and replies are added behind those there are. -/
structure Grows (s t : ControlJournal) : Prop where
  maxEntries : t.maxEntries = s.maxEntries
  maxBytes : t.maxBytes = s.maxBytes
  deadline : t.deadline = s.deadline
  entries : ∀ (messageId : String) (entry : JournalEntry), s.entries[messageId]? = some entry →
    ∃ entry' : JournalEntry, t.entries[messageId]? = some entry' ∧
      entry'.fingerprint = entry.fingerprint ∧ entry.responses <+: entry'.responses

section

omit [Sha256]

variable {s t u : ControlJournal}

theorem Grows.of_entries (hmax : t.maxEntries = s.maxEntries) (hbytes : t.maxBytes = s.maxBytes)
    (hdeadline : t.deadline = s.deadline) (hentries : t.entries = s.entries) : s.Grows t where
  maxEntries := hmax
  maxBytes := hbytes
  deadline := hdeadline
  entries messageId entry hentry := ⟨entry, by rw [hentries]; exact hentry, rfl, prefix_rfl⟩

theorem Grows.refl (s : ControlJournal) : s.Grows s := .of_entries rfl rfl rfl rfl

theorem Grows.trans (h : s.Grows t) (h' : t.Grows u) : s.Grows u where
  maxEntries := h'.maxEntries.trans h.maxEntries
  maxBytes := h'.maxBytes.trans h.maxBytes
  deadline := h'.deadline.trans h.deadline
  entries messageId entry hentry := by
    obtain ⟨middle, hmiddle, hfirst, hprefix⟩ := h.entries messageId entry hentry
    obtain ⟨last, hlast, hsecond, hprefix'⟩ := h'.entries messageId middle hmiddle
    exact ⟨last, hlast, hsecond.trans hfirst, hprefix.trans hprefix'⟩

theorem observed_grows (now : Nat) : s.Grows (s.observed now) := .of_entries rfl rfl rfl rfl

theorem admitted_grows {messageId : String} (fingerprint : List UInt8)
    (habsent : s.entries[messageId]? = none) : s.Grows (s.admitted messageId fingerprint) where
  maxEntries := rfl
  maxBytes := rfl
  deadline := rfl
  entries _ entry hentry := ⟨entry, get_insert_of_none habsent hentry, rfl, prefix_rfl⟩

theorem pushed_grows {messageId : String} {entry : JournalEntry} (record : ResponseRecord)
    (hentry : s.entries[messageId]? = some entry) :
    s.Grows (s.pushed messageId entry record) where
  maxEntries := rfl
  maxBytes := rfl
  deadline := rfl
  entries other found hfound := by
    unfold pushed
    simp only [get_insert]
    by_cases hother : messageId = other
    · subst hother
      cases hentry.symm.trans hfound
      rw [if_pos rfl]
      exact ⟨_, rfl, rfl, prefix_append _ _⟩
    · rw [if_neg hother]
      exact ⟨found, hfound, rfl, prefix_rfl⟩

end

variable {s t : ControlJournal} {op : Op} {answer : Except JournalError Answer}

theorem Change.grows (h : Change s op answer t) : s.Grows t := by
  cases h with
  | refused op e now | read now | again now => exact observed_grows now
  | duplicate => exact observed_grows _
  | enter _ habsent => exact (observed_grows _).trans (admitted_grows _ habsent)
  | record now hop hentry => exact (observed_grows now).trans (pushed_grows _ hentry)

theorem run_grows (s : ControlJournal) (ops : List Op) : s.Grows (s.run ops) := by
  induction ops generalizing s with
  | nil => exact .refl s
  | cons op ops ih => exact (op.change s).grows.trans (ih (op.next s))

/-! ## The budget -/

/-- The totals are those of the entries, and within the limits. -/
structure Accounted (s : ControlJournal) : Prop where
  usedBytes : s.usedBytes = Ledger.total JournalEntry.charge s.entries
  usedBytes_le : s.usedBytes ≤ s.maxBytes
  responseItems : s.responseItems = Ledger.total (fun _ e => e.responses.length) s.entries
  responseItems_le : s.responseItems ≤ s.maxEntries
  size_le : s.entries.size ≤ s.maxEntries
  responseIds : ∀ (messageId : String) (entry : JournalEntry),
    s.entries[messageId]? = some entry → (entry.responses.map ResponseRecord.responseId).Nodup
  named : ∀ (messageId : String) (entry : JournalEntry),
    s.entries[messageId]? = some entry → Named messageId

section

omit [Sha256]

variable {s : ControlJournal}

theorem accounted_new {maxEntries maxBytes now deadline : Nat}
    (h : new maxEntries maxBytes now deadline = .ok s) : s.Accounted := by
  unfold new at h
  split at h
  · cases h
  · cases h
    exact
      { usedBytes := (total_empty _).symm
        usedBytes_le := Nat.zero_le _
        responseItems := (total_empty _).symm
        responseItems_le := Nat.zero_le _
        size_le := Nat.zero_le _
        responseIds := fun _ _ h => (nomatch ExtTreeMap.getElem?_empty.symm.trans h)
        named := fun _ _ h => (nomatch ExtTreeMap.getElem?_empty.symm.trans h) }

theorem Accounted.observed (h : s.Accounted) (now : Nat) : (s.observed now).Accounted :=
  ⟨h.usedBytes, h.usedBytes_le, h.responseItems, h.responseItems_le, h.size_le, h.responseIds,
    h.named⟩

theorem Accounted.admitted (h : s.Accounted) {messageId : String} (fingerprint : List UInt8)
    (hnamed : Named messageId) (habsent : s.entries[messageId]? = none)
    (hsize : s.entries.size < s.maxEntries)
    (hcharge : entryOverhead + messageId.utf8ByteSize ≤ s.maxBytes - s.usedBytes) :
    (s.admitted messageId fingerprint).Accounted where
  usedBytes := by
    unfold ControlJournal.admitted
    rw [total_insert habsent, h.usedBytes]
    rfl
  usedBytes_le := by
    have hle := h.usedBytes_le
    show s.usedBytes + (entryOverhead + messageId.utf8ByteSize) ≤ s.maxBytes
    omega
  responseItems := by
    unfold ControlJournal.admitted
    rw [total_insert habsent, h.responseItems]
    rfl
  responseItems_le := h.responseItems_le
  size_le := by
    unfold ControlJournal.admitted
    rw [size_insert_of_none habsent]
    exact hsize
  responseIds other entry hentry := by
    rcases get_insert_eq_some.1 hentry with ⟨-, rfl⟩ | ⟨-, hentry⟩
    · exact nodup_nil
    · exact h.responseIds other entry hentry
  named other entry hentry := by
    rcases get_insert_eq_some.1 hentry with ⟨rfl, -⟩ | ⟨-, hentry⟩
    · exact hnamed
    · exact h.named other entry hentry

theorem Accounted.pushed (h : s.Accounted) {messageId : String} {entry : JournalEntry}
    {record : ResponseRecord} (hentry : s.entries[messageId]? = some entry)
    (hfresh : ∀ r ∈ entry.responses, r.responseId ≠ record.responseId)
    (hitems : s.responseItems < s.maxEntries) (hcharge : record.charge ≤ s.maxBytes - s.usedBytes) :
    (s.pushed messageId entry record).Accounted where
  usedBytes := by
    have hreplace := total_replace hentry JournalEntry.charge
      { entry with responses := entry.responses ++ [record] }
    have hgain : JournalEntry.charge messageId
        { entry with responses := entry.responses ++ [record] } =
          JournalEntry.charge messageId entry + record.charge := by
      unfold JournalEntry.charge
      rw [map_append, sum_append, map_singleton, sum_singleton]
      omega
    have hused := h.usedBytes
    show s.usedBytes + record.charge = Ledger.total JournalEntry.charge
      (s.entries.insert messageId { entry with responses := entry.responses ++ [record] })
    omega
  usedBytes_le := by
    have hle := h.usedBytes_le
    show s.usedBytes + record.charge ≤ s.maxBytes
    omega
  responseItems := by
    have hreplace := total_replace hentry (fun _ e => e.responses.length)
      { entry with responses := entry.responses ++ [record] }
    have hused := h.responseItems
    rw [length_append, length_singleton] at hreplace
    show s.responseItems + 1 = Ledger.total (fun _ e => e.responses.length)
      (s.entries.insert messageId { entry with responses := entry.responses ++ [record] })
    omega
  responseItems_le := hitems
  size_le := by
    unfold ControlJournal.pushed
    rw [size_replace hentry]
    exact h.size_le
  responseIds other found hfound := by
    rcases get_insert_eq_some.1 hfound with ⟨-, rfl⟩ | ⟨-, hfound⟩
    · rw [map_append, map_singleton, nodup_append]
      refine ⟨h.responseIds _ entry hentry, nodup_singleton _, fun a ha b hb heq => ?_⟩
      obtain ⟨r, hr, rfl⟩ := mem_map.1 ha
      exact hfresh r hr (heq.trans (mem_singleton.1 hb))
    · exact h.responseIds other found hfound
  named other found hfound := by
    rcases get_insert_eq_some.1 hfound with ⟨rfl, -⟩ | ⟨-, hfound⟩
    · exact h.named _ entry hentry
    · exact h.named other found hfound

end

theorem Change.accounted (h : Change s op answer t) (hs : s.Accounted) : t.Accounted := by
  cases h with
  | refused op e now | read now | again now => exact hs.observed now
  | duplicate => exact hs.observed _
  | enter hnamed habsent hsize hcharge =>
    exact (hs.observed _).admitted _ hnamed habsent hsize hcharge
  | record now hop hentry hfresh hitems hcharge =>
    exact (hs.observed now).pushed hentry hfresh hitems hcharge

/-! ## The history -/

def Call.newId (c : Call) : Option String :=
  match c.op, c.answer with
  | .observe messageId _ _, .ok (.observed .new) => some messageId
  | _, _ => none

/-- The call took the message, as new or as a repeat. -/
def Call.Takes (c : Call) (messageId : String) (canonical : List UInt8) : Prop :=
  (∃ now, c.op = .observe messageId canonical now) ∧
    ∃ observation, c.answer = .ok (.observed observation)

/-- The call recorded the reply, or found it recorded. -/
def Call.Records (c : Call) (messageId : String) (record : ResponseRecord) : Prop :=
  c.op.records = some (messageId, record) ∧ c.answer = .ok .recorded

/-- The entries are what the calls so far reported and recorded. -/
structure Journaled (seen : List Call) (s : ControlJournal) : Prop where
  new_once : (seen.filterMap Call.newId).Nodup
  new_iff : ∀ messageId : String,
    messageId ∈ seen.filterMap Call.newId ↔ ∃ entry, s.entries[messageId]? = some entry
  taken : ∀ c ∈ seen, ∀ messageId canonical, c.Takes messageId canonical →
    ∃ entry, s.entries[messageId]? = some entry ∧ entry.fingerprint = Sha256.digest canonical
  recorded : ∀ (messageId : String) (record : ResponseRecord),
    (∃ c ∈ seen, c.Records messageId record) ↔
      ∃ entry, s.entries[messageId]? = some entry ∧ record ∈ entry.responses

section

variable {seen : List Call} {s t : ControlJournal} {c : Call}

omit [Sha256] in
theorem newIds_snoc (seen : List Call) (c : Call) :
    (seen ++ [c]).filterMap Call.newId = seen.filterMap Call.newId ++ c.newId.toList := by
  cases h : c.newId <;> simp [h]

omit [Sha256] in
theorem exists_snoc {p : Call → Prop} :
    (∃ call ∈ seen ++ [c], p call) ↔ (∃ call ∈ seen, p call) ∨ p c := by
  simp only [mem_append, mem_singleton, or_and_right, exists_or, exists_eq_left]

section

variable (h : Journaled seen s)
include h

theorem Journaled.observed (now : Nat) : Journaled seen (s.observed now) :=
  ⟨h.new_once, h.new_iff, h.taken, h.recorded⟩

theorem Journaled.quiet (hentries : t.entries = s.entries) (hnew : c.newId = none)
    (htaken : ∀ messageId canonical, c.Takes messageId canonical →
      ∃ entry, s.entries[messageId]? = some entry ∧ entry.fingerprint = Sha256.digest canonical)
    (hrecorded : ∀ messageId record, c.Records messageId record →
      ∃ entry, s.entries[messageId]? = some entry ∧ record ∈ entry.responses) :
    Journaled (seen ++ [c]) t := by
  have hids : (seen ++ [c]).filterMap Call.newId = seen.filterMap Call.newId := by
    rw [newIds_snoc, hnew, toList_none, append_nil]
  refine ⟨hids ▸ h.new_once, fun messageId => ?_, ?_, fun messageId record => ?_⟩
  · rw [hids, hentries]
    exact h.new_iff messageId
  · rw [hentries]
    exact forall_mem_append.2 ⟨h.taken, forall_mem_singleton.2 htaken⟩
  · rw [exists_snoc, hentries, h.recorded]
    exact or_iff_left_of_imp (hrecorded messageId record)

theorem Journaled.admitted {messageId : String} {canonical : List UInt8}
    {now : Nat} (habsent : s.entries[messageId]? = none) :
    Journaled (seen ++ [⟨.observe messageId canonical now, .ok (.observed .new)⟩])
      (s.admitted messageId (Sha256.digest canonical)) := by
  have hids := newIds_snoc seen ⟨.observe messageId canonical now, .ok (.observed .new)⟩
  rw [show Call.newId _ = some messageId from rfl, toList_some] at hids
  have hfresh : messageId ∉ seen.filterMap Call.newId := by
    intro hmem
    obtain ⟨entry, hentry⟩ := (h.new_iff messageId).1 hmem
    cases habsent.symm.trans hentry
  unfold ControlJournal.admitted
  refine ⟨?_, fun other => ?_, fun call hcall other bytes htakes => ?_, fun other record => ?_⟩
  · rw [hids]
    exact nodup_append.2 ⟨h.new_once, nodup_singleton _, fun a ha b hb heq =>
      hfresh (mem_singleton.1 hb ▸ heq ▸ ha)⟩
  · rw [hids, mem_append, h.new_iff, mem_singleton]
    simp only [get_insert]
    by_cases hother : messageId = other
    · simp [hother]
    · simp [hother, Ne.symm hother]
  · rcases mem_append.1 hcall with hold | hlast
    · obtain ⟨entry, hentry, hfingerprint⟩ := h.taken call hold other bytes htakes
      exact ⟨entry, get_insert_of_none habsent hentry, hfingerprint⟩
    · obtain ⟨⟨_, hop⟩, _⟩ := htakes
      cases mem_singleton.1 hlast
      cases hop
      exact ⟨_, by rw [get_insert, if_pos rfl], rfl⟩
  · rw [exists_snoc, h.recorded]
    constructor
    · rintro (⟨entry, hentry, hmem⟩ | ⟨hop, _⟩)
      · exact ⟨entry, get_insert_of_none habsent hentry, hmem⟩
      · cases hop
    · rintro ⟨entry, hentry, hmem⟩
      rcases get_insert_eq_some.1 hentry with ⟨-, rfl⟩ | ⟨-, hentry⟩
      · cases hmem
      · exact .inl ⟨entry, hentry, hmem⟩

theorem Journaled.pushed {op : Op} {messageId : String}
    {entry : JournalEntry} {record : ResponseRecord} (hop : op.records = some (messageId, record))
    (hentry : s.entries[messageId]? = some entry) :
    Journaled (seen ++ [⟨op, .ok .recorded⟩]) (s.pushed messageId entry record) := by
  have hnew : Call.newId ⟨op, .ok .recorded⟩ = none := by cases op <;> rfl
  have hids := newIds_snoc seen ⟨op, .ok .recorded⟩
  rw [hnew, toList_none, append_nil] at hids
  have hgrows : s.Grows (s.pushed messageId entry record) := pushed_grows record hentry
  refine ⟨hids ▸ h.new_once, fun other => ?_, fun call hcall other bytes htakes => ?_,
    fun other reply => ?_⟩
  · rw [hids, h.new_iff]
    unfold ControlJournal.pushed
    simp only [get_insert]
    by_cases hother : messageId = other
    · simp [← hother, hentry]
    · simp [hother]
  · rcases mem_append.1 hcall with hold | hlast
    · obtain ⟨found, hfound, hfingerprint⟩ := h.taken call hold other bytes htakes
      obtain ⟨later, hlater, hsame, _⟩ := hgrows.entries other found hfound
      exact ⟨later, hlater, hsame.trans hfingerprint⟩
    · obtain ⟨_, _, hanswer⟩ := htakes
      cases mem_singleton.1 hlast
      cases hanswer
  · rw [exists_snoc, h.recorded]
    unfold ControlJournal.pushed Call.Records
    simp only [get_insert, hop, Option.some.injEq, Prod.mk.injEq, and_true]
    by_cases hother : messageId = other
    · subst hother
      simp [hentry, eq_comm]
    · simp [hother]

end

theorem Change.journaled {op : Op} {answer : Except JournalError Answer} (h : Change s op answer t)
    (hs : Journaled seen s) : Journaled (seen ++ [⟨op, answer⟩]) t := by
  cases h with
  | refused op e now =>
    refine hs.quiet rfl (by cases op <;> rfl) (fun _ _ htakes => ?_) fun _ _ hrecords => ?_
    · obtain ⟨_, _, hanswer⟩ := htakes
      cases hanswer
    · cases hrecords.2
  | @read _ a now hop ha =>
    refine hs.quiet rfl ?_ (fun _ _ htakes => ?_) fun _ _ hrecords => ?_
    · cases op with
      | observe =>
        cases a with
        | observed observation => exact absurd rfl (ha observation)
        | _ => rfl
      | _ => rfl
    · obtain ⟨_, observation, hanswer⟩ := htakes
      exact absurd (Except.ok.inj hanswer) (ha observation)
    · cases hop.symm.trans hrecords.1
  | @duplicate messageId canonical now entry hentry hfingerprint =>
    refine hs.quiet rfl ?_ (fun _ _ htakes => ?_) fun _ _ hrecords => ?_
    · unfold JournalEntry.repeated
      cases entry.responses.isEmpty <;> rfl
    · obtain ⟨⟨_, hop⟩, _⟩ := htakes
      cases hop
      exact ⟨entry, hentry, hfingerprint⟩
    · cases hrecords.1
  | enter _ habsent => exact (hs.observed _).admitted habsent
  | again now hop hentry hmem =>
    refine hs.quiet rfl (by cases op <;> rfl) (fun _ _ htakes => ?_) fun _ _ hrecords => ?_
    · obtain ⟨_, _, hanswer⟩ := htakes
      cases hanswer
    · cases hop.symm.trans hrecords.1
      exact ⟨_, hentry, hmem⟩
  | record now hop hentry => exact (hs.observed now).pushed hop hentry

end

section

variable {maxEntries maxBytes start deadline : Nat} {s : ControlJournal}

section

variable (h : new maxEntries maxBytes start deadline = .ok s)
include h

theorem run_accounted (ops : List Op) : (s.run ops).Accounted :=
  Trace.run_invariant (fun op t => (op.change t).accounted) (accounted_new h) ops

theorem journaled_new : Journaled [] s := by
  have hempty : ∀ messageId : String, s.entries[messageId]? = none := by
    unfold new at h
    split at h
    · cases h
    · cases h
      exact fun messageId => ExtTreeMap.getElem?_empty
  refine ⟨nodup_nil, fun messageId => ?_, fun _ hc => (nomatch hc), fun messageId _ => ?_⟩
  · simp [hempty messageId]
  · simp [hempty messageId]

theorem run_journaled (ops : List Op) : Journaled (s.history ops) (s.run ops) :=
  Trace.events_invariant (fun _ op t => (op.change t).journaled) (journaled_new h) ops

end

end

/-! ## Repeats and refusals -/

/-- How a journal answers a message it holds, within the attempt's time and outside it. -/
structure AnswersRepeats (s : ControlJournal) : Prop where
  observe : ∀ (messageId : String) (entry : JournalEntry), s.entries[messageId]? = some entry →
    ∀ canonical now, s.InTime now → Sized canonical →
      ((Op.observe messageId canonical now).call s).answer =
        if entry.fingerprint = Sha256.digest canonical then .ok (.observed entry.repeated)
        else .error .conflictingMessage
  refused : ∀ (messageId : String) (entry : JournalEntry), s.entries[messageId]? = some entry →
    ∀ canonical now, ¬ (s.InTime now ∧ Sized canonical) →
      ((Op.observe messageId canonical now).call s).answer =
        .error (if now < s.lastNow then .clockReversed else if s.deadline ≤ now then .expired
          else .oversizedMessage)
  response : ∀ (messageId : String) (entry : JournalEntry), s.entries[messageId]? = some entry →
    ∀ now, s.InTime now → ((Op.response messageId now).call s).answer =
      .ok (.reply (entry.responses.head?.map ResponseRecord.bytes))
  responses : ∀ (messageId : String) (entry : JournalEntry), s.entries[messageId]? = some entry →
    ∀ now, s.InTime now → ((Op.responses messageId now).call s).answer =
      .ok (.replies (if entry.responses.isEmpty then none
        else some (entry.responses.map ResponseRecord.bytes)))

section

variable {s : ControlJournal}

omit [Sha256] in
theorem wp_checkTime_inTime {now : Nat} (h : s.InTime now) {post : Unit → ControlJournal → Prop}
    {fail : JournalError → ControlJournal → Prop} :
    wp (checkTime now) s post fail ↔ post () (s.observed now) := by
  unfold checkTime
  simp only [wp_bind, wp_get, wp_failIf, wp_modify, Nat.not_lt.2 h.1, Nat.not_le.2 h.2,
    ge_iff_le, false_imp_iff, not_false_eq_true, true_imp_iff, true_and]
  exact Iff.rfl

theorem Accounted.answersRepeats (h : s.Accounted) : s.AnswersRepeats where
  observe messageId entry hentry canonical now htime hsized := by
    refine Op.call_of_wp (p := fun a _ => a = _) rfl ?_
    unfold ControlJournal.observe
    rw [wp_bind, wp_checkTime_inTime htime]
    simp only [wp_bind, wp_failIf, wp_get]
    refine ⟨fun hbad => absurd hbad (h.named messageId entry hentry), fun _ =>
      ⟨fun hbad => absurd hbad hsized, fun _ => ?_⟩⟩
    have hfound : (s.observed now).entries[messageId]? = some entry := hentry
    rw [hfound]
    simp only [wp_bind, wp_failIf, wp_pure]
    refine ⟨fun hother => (if_neg hother).symm, fun hsame => ?_⟩
    rw [if_pos (not_not.1 hsame)]
    rfl
  refused messageId entry hentry canonical now hout := by
    refine Op.call_of_wp (p := fun a _ => a = _) rfl ?_
    unfold ControlJournal.observe checkTime
    simp only [wp_bind, wp_get, wp_failIf, wp_modify]
    refine ⟨fun hback => ?_, fun hback => ⟨fun hlate => ?_, fun hlate =>
      ⟨fun hbad => absurd hbad (h.named messageId entry hentry), fun _ => ⟨fun _ => ?_,
        fun hsized => absurd ⟨⟨Nat.le_of_not_lt hback, Nat.lt_of_not_le hlate⟩, hsized⟩ hout⟩⟩⟩⟩
    · rw [if_pos hback]
    · rw [if_neg hback, if_pos hlate]
    · rw [if_neg hback, if_neg hlate]
  response messageId entry hentry now htime := by
    refine Op.call_of_wp (p := fun a _ => a = _) rfl ?_
    unfold ControlJournal.response
    rw [wp_bind, wp_checkTime_inTime htime]
    simp only [wp_bind, wp_get, wp_orFail, wp_pure]
    refine ⟨fun hnone => ?_, fun found hfound => ?_⟩
    · cases hentry.symm.trans hnone
    · cases hentry.symm.trans hfound
      rfl
  responses messageId entry hentry now htime := by
    refine Op.call_of_wp (p := fun a _ => a = _) rfl ?_
    unfold ControlJournal.responses
    rw [wp_bind, wp_checkTime_inTime htime]
    simp only [wp_bind, wp_get, wp_orFail, wp_ite, wp_pure]
    refine ⟨fun hnone => ?_, fun found hfound => ?_⟩
    · cases hentry.symm.trans hnone
    · cases hentry.symm.trans hfound
      exact ⟨fun hempty => by rw [if_pos hempty], fun hempty => by rw [if_neg hempty]⟩

theorem Op.refused_next {op : Op} {e : JournalError} (h : (op.call s).answer = .error e) :
    op.next s = s.observed (op.next s).lastNow := by
  have hchange := op.change s
  rw [h] at hchange
  generalize op.next s = t at hchange ⊢
  cases hchange with
  | refused now => rfl

end

/-- Over any calls on a fresh journal: a message is reported new at most once and its entry
stays, with replies that are only added at the end; the bytes used are the charges of what is
held; a message that is held is answered from its entry while the attempt lasts, and a refused
call changes nothing but the clock reading. -/
theorem processed_exactly_once {maxEntries maxBytes start deadline : Nat} {s : ControlJournal}
    (h : new maxEntries maxBytes start deadline = .ok s) (ops : List Op) :
    Journaled (s.history ops) (s.run ops) ∧ (s.run ops).Accounted ∧
      (s.run ops).AnswersRepeats ∧ (∀ more, (s.run ops).Grows ((s.run ops).run more)) ∧
      ∀ (op : Op) (e : JournalError), (op.call (s.run ops)).answer = .error e →
        op.next (s.run ops) = (s.run ops).observed (op.next (s.run ops)).lastNow := by
  have haccounted : (s.run ops).Accounted := run_accounted h ops
  exact ⟨run_journaled h ops, haccounted, haccounted.answersRepeats, run_grows _,
    fun op e hrefused => op.refused_next hrefused⟩

/-- A journal for two messages of one kilobyte, opened at 0 and kept until 20. -/
def short : ControlJournal where
  entries := ∅
  maxEntries := 2
  maxBytes := 1024
  usedBytes := 0
  responseItems := 0
  lastNow := 0
  deadline := 20

omit [Sha256] in
theorem processed_exactly_once_short :
    new 2 1024 0 20 = .ok short ∧
      letI : Sha256 := ⟨id⟩
      ((Op.observe "request" [2] 2).call (short.run [.observe "request" [1] 1])).answer =
        .error .conflictingMessage :=
  have hnew : new 2 1024 0 20 = .ok short := by rfl
  let _ : Sha256 := ⟨id⟩
  ⟨hnew, (processed_exactly_once hnew [.observe "request" [1] 1]).2.2.1.observe "request"
    ⟨[1], []⟩ (by rfl) [2] 2 ⟨by decide, by decide⟩ (by unfold Sized; decide)⟩

omit [Sha256] in
/-- A repeat with other bytes is not always answered as a conflict: past the deadline it is
answered as expired. -/
theorem late_repeat_expired :
    ¬ ∀ [Sha256] (maxEntries maxBytes start deadline : Nat) (s : ControlJournal),
      new maxEntries maxBytes start deadline = .ok s → ∀ (ops : List Op) (c : Call),
        c ∈ s.history ops → ∀ messageId first second now, c.Takes messageId first →
          first ≠ second → ((Op.observe messageId second now).call (s.run ops)).answer =
            .error .conflictingMessage := by
  intro h
  let _ : Sha256 := ⟨id⟩
  have hlate := h 2 1024 0 20 short (by rfl) [.observe "request" [1] 1]
    ⟨.observe "request" [1] 1, .ok (.observed .new)⟩ (mem_singleton.2 (by rfl)) "request"
    [1] [2] 20 ⟨⟨1, rfl⟩, .new, rfl⟩ (by decide)
  cases hlate

end ControlJournal

end AgentUplink
