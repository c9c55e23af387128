/-
The OPEN journal of a connector session.

Every OPEN the connector takes is journaled under its message identifier before
anything else is done with it. A repeat finds the entry and is answered from it.
An entry is pending until its answer is recorded, a tombstone once the answer is
given up, and leaves the journal when the owner has forgotten its stream.
-/
import AgentUplink.Protocol.ControlJournal

namespace AgentUplink

open Machine Fallible Std Ledger

/-- A point on the monotonic and on the wall clock, in nanoseconds. -/
structure Clock where
  monotonic : Nat
  wall : Nat

structure DualDeadline where
  startedWall : Nat
  monotonic : Nat
  wall : Nat
  deriving DecidableEq

def openJournalMaxEntries : Nat := maxJournalEntries

def openJournalEntryOverhead : Nat := 256

def openJournalResponseOverhead : Nat := 256

inductive OpenJournalState
  | pending
  | completed (responses : List String) (deadlines : List (Option DualDeadline))
  | tombstone
  deriving DecidableEq

structure OpenJournalEntry where
  canonical : String
  streamId : UInt64
  operationId : String
  receiveOrdinal : Nat
  requestBytes : Nat
  responseBytes : Nat
  state : OpenJournalState

inductive OpenJournalObservation
  | new
  | pendingDuplicate
  | completedDuplicate (responses : List String) (deadlines : List (Option DualDeadline))
  | tombstone
  deriving DecidableEq

inductive OpenJournalError
  | capacity
  | conflictingMessage
  | missingMessage
  | conflictingResponse
  | tombstoneCapacity
  deriving DecidableEq

structure OpenJournal where
  entries : ExtTreeMap String OpenJournalEntry
  nextReceiveOrdinal : Nat
  activeEntries : Nat
  tombstones : Nat
  usedBytes : Nat
  maxActiveEntries : Nat
  maxBytes : Nat

abbrev OpenJournaling := EStateM OpenJournalError OpenJournal

def OpenJournalEntry.received (e : OpenJournalEntry) : String × UInt64 × String × Nat :=
  (e.canonical, e.streamId, e.operationId, e.receiveOrdinal)

/-- What a repeat of an entry's request is told. -/
def OpenJournalState.observation : OpenJournalState → OpenJournalObservation
  | pending => .pendingDuplicate
  | completed responses deadlines => .completedDuplicate responses deadlines
  | tombstone => .tombstone

namespace OpenJournal

def new (maxActiveEntries maxBytes : Nat) : OpenJournal where
  entries := ∅
  nextReceiveOrdinal := 0
  activeEntries := 0
  tombstones := 0
  usedBytes := 0
  maxActiveEntries := max maxActiveEntries 1
  maxBytes

section

variable (messageId : String)

def requestCharge (canonical operationId : String) : Option Nat := do
  let charge ← checkedAdd openJournalEntryOverhead messageId.utf8ByteSize
  let charge ← checkedAdd charge canonical.utf8ByteSize
  checkedAdd charge operationId.utf8ByteSize

def observe (canonical : String) (streamId : UInt64) (operationId : String) :
    OpenJournaling OpenJournalObservation := do
  let j ← get
  match j.entries[messageId]? with
  | some entry =>
    failIf (entry.canonical ≠ canonical) .conflictingMessage
    return entry.state.observation
  | none =>
    failIf (j.activeEntries ≥ j.maxActiveEntries ∨ j.entries.size ≥ openJournalMaxEntries) .capacity
    let charge ← orFail (requestCharge messageId canonical operationId) .capacity
    failIf (charge > j.maxBytes - j.usedBytes) .capacity
    let next ← orFail (checkedAdd j.nextReceiveOrdinal 1) .capacity
    modify fun j =>
      { j with
        nextReceiveOrdinal := next
        entries := j.entries.insert messageId
          { canonical, streamId, operationId, receiveOrdinal := j.nextReceiveOrdinal,
            requestBytes := charge, responseBytes := 0, state := .pending }
        activeEntries := j.activeEntries + 1
        usedBytes := j.usedBytes + charge }
    return .new

def ensureResponseCapacity (responseBytes : Nat) : OpenJournaling Unit := do
  let j ← get
  let entry ← orFail j.entries[messageId]? .missingMessage
  failIf (entry.state ≠ .pending) .conflictingResponse
  failIf (responseBytes > j.maxBytes - j.usedBytes) .capacity

def complete (responses : List String)
    (deadlines : List (Option DualDeadline)) (responseBytes : Nat) : OpenJournaling Unit := do
  failIf (responses.isEmpty ∨ responses.length ≠ deadlines.length) .conflictingResponse
  ensureResponseCapacity messageId responseBytes
  let j ← get
  let entry ← orFail j.entries[messageId]? .missingMessage
  modify fun j =>
    { j with
      entries := j.entries.insert messageId
        { entry with responseBytes, state := .completed responses deadlines }
      usedBytes := j.usedBytes + responseBytes }

def compact : OpenJournaling Unit := do
  let j ← get
  match j.entries[messageId]? with
  | none => return ()
  | some entry =>
    if entry.state = .tombstone then return ()
    failIf (j.tombstones ≥ openJournalMaxEntries) .tombstoneCapacity
    modify fun j =>
      { j with
        entries := j.entries.insert messageId { entry with responseBytes := 0, state := .tombstone }
        usedBytes := j.usedBytes - entry.responseBytes
        activeEntries := j.activeEntries - 1
        tombstones := j.tombstones + 1 }

end

section

variable (j : OpenJournal)

def release (messageId : String) : OpenJournal :=
  match j.entries[messageId]? with
  | none => j
  | some entry =>
    { j with
      entries := j.entries.erase messageId
      usedBytes := j.usedBytes - entry.requestBytes - entry.responseBytes
      tombstones := if entry.state = .tombstone then j.tombstones - 1 else j.tombstones
      activeEntries := if entry.state = .tombstone then j.activeEntries else j.activeEntries - 1 }

section

variable (streamId : UInt64)

def matching (operationId : String) : List String :=
  (j.entries.toList.filter fun entry =>
    entry.2.streamId = streamId ∧ entry.2.operationId = operationId).map Prod.fst

def releaseMatching (operationId : String) : OpenJournal :=
  (j.matching streamId operationId).foldl release j

/-- The entry received first, the first one of those that are equal. -/
def earliest : List (String × OpenJournalEntry) → Option (String × OpenJournalEntry)
  | [] => none
  | entry :: entries =>
    match earliest entries with
    | none => some entry
    | some other =>
      if other.2.receiveOrdinal < entry.2.receiveOrdinal then some other else some entry

def streamMessageIsReservedByOther (messageId : String) :
    Bool :=
  (earliest (j.entries.toList.filter fun entry => entry.2.streamId = streamId)).any
    fun first => first.1 ≠ messageId

def retainedOperationMatches (operationId : String) :
    Option Bool :=
  let retained := j.entries.toList.filter fun entry =>
    entry.2.streamId = streamId ∧ entry.2.state ≠ .tombstone
  if retained.any fun entry => entry.2.operationId = operationId then some true
  else if retained.isEmpty then none
  else some false

end

/-! ## What the journal calls do -/

/-- The journals hold the same requests, perhaps with other answers. -/
def SameRequests (k : OpenJournal) : Prop :=
  ∀ messageId : String, k.entries[messageId]?.map OpenJournalEntry.received =
    j.entries[messageId]?.map OpenJournalEntry.received

/-- The journal holds the request as it was received. -/
def Holds (messageId canonical : String) (streamId : UInt64)
    (operationId : String) : Prop :=
  ∃ entry, j.entries[messageId]? = some entry ∧ entry.canonical = canonical ∧
    entry.streamId = streamId ∧ entry.operationId = operationId

end

variable {j k : OpenJournal}

theorem SameRequests.refl (j : OpenJournal) : j.SameRequests j := fun _ => rfl

theorem SameRequests.trans {l : OpenJournal} (h : j.SameRequests k) (h' : k.SameRequests l) :
    j.SameRequests l := fun messageId => (h' messageId).trans (h messageId)

variable {messageId canonical operationId : String} {streamId : UInt64}

theorem SameRequests.holds (h : j.SameRequests k)
    (hj : j.Holds messageId canonical streamId operationId) :
    k.Holds messageId canonical streamId operationId := by
  obtain ⟨entry, hentry, hcanonical, hstream, hoperation⟩ := hj
  have hsame := h messageId
  rw [hentry] at hsame
  obtain ⟨later, hlater, hreceived⟩ := Option.map_eq_some_iff.1 hsame
  unfold OpenJournalEntry.received at hreceived
  simp only [Prod.mk.injEq] at hreceived
  exact ⟨later, hlater, hreceived.1.trans hcanonical, hreceived.2.1.trans hstream,
    hreceived.2.2.1.trans hoperation⟩

theorem sameRequests_insert {entry : OpenJournalEntry}
    (hentry : j.entries[messageId]? = some entry) (responseBytes : Nat) (state : OpenJournalState)
    (hentries : k.entries = j.entries.insert messageId { entry with responseBytes, state }) :
    j.SameRequests k := by
  intro other
  rw [hentries, get_insert]
  by_cases hother : messageId = other
  · subst hother
    rw [if_pos rfl, hentry]
    rfl
  · rw [if_neg hother]

/-- A message that is not known is journaled as it is received; one that is known is
answered from its entry. -/
theorem observe_spec (messageId canonical : String) (streamId : UInt64) (operationId : String) :
    wp (observe messageId canonical streamId operationId) j
      (fun observation k =>
        (∃ entry, j.entries[messageId]? = some entry ∧ entry.canonical = canonical ∧
          observation = entry.state.observation ∧ k = j) ∨
        (j.entries[messageId]? = none ∧ observation = .new ∧
          k.Holds messageId canonical streamId operationId ∧
          ∀ other, other ≠ messageId → k.entries[other]? = j.entries[other]?))
      fun _ k => k = j := by
  unfold observe
  rw [wp_bind, wp_get]
  cases hentry : j.entries[messageId]? with
  | some entry =>
    simp only [wp_bind, wp_failIf, wp_pure]
    refine ⟨fun _ => trivial, fun hsame => .inl ⟨entry, rfl, not_not.1 hsame, rfl, trivial⟩⟩
  | none =>
    simp only [wp_bind, wp_failIf, wp_orFail, wp_modify, wp_pure]
    refine ⟨fun _ => trivial, fun _ => ⟨fun _ => trivial, fun charge _ => ⟨fun _ => trivial,
      fun _ => ⟨fun _ => trivial, fun next _ => .inr ⟨trivial, trivial, ?_, ?_⟩⟩⟩⟩⟩
    · exact ⟨_, by rw [get_insert, if_pos rfl], rfl, rfl, rfl⟩
    · intro other hother
      rw [get_insert, if_neg (Ne.symm hother)]

theorem ensureResponseCapacity_spec (messageId : String) (responseBytes : Nat) :
    wp (ensureResponseCapacity messageId responseBytes) j (fun _ k => k = j) fun _ k => k = j := by
  unfold ensureResponseCapacity
  simp only [wp_bind, wp_get, wp_orFail, wp_failIf]
  exact ⟨fun _ => trivial, fun _ _ => ⟨fun _ => trivial, fun _ => ⟨fun _ => trivial,
    fun _ => trivial⟩⟩⟩

theorem complete_spec (messageId : String) (responses : List String)
    (deadlines : List (Option DualDeadline)) (responseBytes : Nat) :
    wp (complete messageId responses deadlines responseBytes) j (fun _ k => j.SameRequests k)
      fun _ k => j.SameRequests k := by
  unfold complete
  rw [wp_bind, wp_failIf]
  refine ⟨fun _ => .refl j, fun _ => ?_⟩
  rw [wp_bind]
  refine wp_mono (ensureResponseCapacity_spec messageId responseBytes) (fun _ k hk => ?_)
    fun _ k hk => ?_
  · subst hk
    simp only [wp_bind, wp_get, wp_orFail, wp_modify]
    exact ⟨fun _ => .refl _, fun entry hentry => sameRequests_insert hentry _ _ rfl⟩
  · subst hk
    exact .refl _

theorem compact_spec (messageId : String) :
    wp (compact messageId) j (fun _ k => j.SameRequests k) fun _ k => j.SameRequests k := by
  unfold compact
  rw [wp_bind, wp_get]
  cases hentry : j.entries[messageId]? with
  | none => exact .refl j
  | some entry =>
    simp only [wp_ite, wp_pure, wp_bind, wp_failIf, wp_modify]
    exact ⟨fun _ => .refl j, fun _ => ⟨fun _ => .refl j, fun _ =>
      sameRequests_insert hentry _ _ rfl⟩⟩

theorem release_entries (j : OpenJournal) (messageId : String) :
    (j.release messageId).entries = j.entries.erase messageId := by
  unfold release
  split
  · next hnone => exact (erase_eq_self hnone).symm
  · rfl

theorem foldl_release_entries (messageIds : List String) (j : OpenJournal) (other : String) :
    (messageIds.foldl release j).entries[other]? =
      if other ∈ messageIds then none else j.entries[other]? := by
  induction messageIds generalizing j with
  | nil => simp
  | cons messageId messageIds ih =>
    rw [List.foldl_cons, ih, release_entries, get_erase]
    by_cases hother : other = messageId
    · simp [hother]
    · simp [hother, Ne.symm hother]

theorem releaseMatching_holds {released : UInt64} {releasedOperation : String}
    (h : j.Holds messageId canonical streamId operationId)
    (hother : ¬ (streamId = released ∧ operationId = releasedOperation)) :
    (j.releaseMatching released releasedOperation).Holds messageId canonical streamId
      operationId := by
  obtain ⟨entry, hentry, hcanonical, hstream, hoperation⟩ := h
  refine ⟨entry, ?_, hcanonical, hstream, hoperation⟩
  unfold releaseMatching
  rw [foldl_release_entries, if_neg, hentry]
  intro hmem
  obtain ⟨⟨_, found⟩, hfound, rfl⟩ := List.mem_map.1 hmem
  obtain ⟨hin, hmatch⟩ := List.mem_filter.1 hfound
  cases hentry.symm.trans (ExtTreeMap.mem_toList_iff_getElem?_eq_some.1 hin)
  rw [decide_eq_true_eq] at hmatch
  exact hother ⟨hstream.symm.trans hmatch.1, hoperation.symm.trans hmatch.2⟩

theorem retainedOperationMatches_none
    (h : ∀ (messageId : String) (entry : OpenJournalEntry),
      j.entries[messageId]? = some entry → entry.streamId ≠ streamId)
    (operationId : String) : j.retainedOperationMatches streamId operationId = none := by
  have hretained : (j.entries.toList.filter fun entry =>
      entry.2.streamId = streamId ∧ entry.2.state ≠ .tombstone) = [] := by
    rw [List.filter_eq_nil_iff]
    rintro ⟨messageId, entry⟩ hmem hmatch
    rw [decide_eq_true_eq] at hmatch
    exact h messageId entry (ExtTreeMap.mem_toList_iff_getElem?_eq_some.1 hmem) hmatch.1
  unfold retainedOperationMatches
  rw [hretained]
  rfl

end OpenJournal

end AgentUplink
