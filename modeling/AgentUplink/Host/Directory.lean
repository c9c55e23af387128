import AgentUplink.Host.Identity
import AgentUplink.Lib.Machine

/-!
# Enumerating a host directory

A reader goes through the raw entries of a directory and returns those that the profile can
serve. A cookie is the number of entries returned since the last rewind. `listing` is the
whole directory: its servable entries with their cookies.
-/

namespace AgentUplink.Host

open Machine List

/-- One entry as the host has it: its name, and what `statat` says about it. -/
structure RawEntry where
  name : List UInt8
  stat : Except Errno FileIdentity

/-- An open directory: all that reading it yields from the start, and what is still to
come. -/
structure Dir where
  entries : List (Except Errno RawEntry)
  ahead : List (Except Errno RawEntry)
  bounded : entries.length < wordBound

def Dir.rewind (dir : Dir) : Dir := { dir with ahead := dir.entries }

structure HostEntry where
  name : String
  kind : FileKind
  qidPath : UInt64
  cookie : Nat

structure DirReader where
  dir : Dir
  /-- How many entries have been returned since the last rewind. -/
  position : Nat
  root : FileIdentity
  /-- How many unservable entries one call may pass over. -/
  skipBudget : Nat

/-- A name that is not UTF-8 fails the whole enumeration. -/
def entryName (raw : List UInt8) : Except FsError String :=
  match Utf8.ofBytes? raw with
  | some name => .ok name
  | none => .error (.refused .einval)

/-- What one raw entry makes `nextEntry` do. -/
inductive Look
  | returned (name : String) (identity : FileIdentity)
  /-- One of the two fixed entries, which are not charged to the budget. -/
  | fixed
  | skipped
  | failed (error : FsError)

def look (root : FileIdentity) (entry : Except Errno RawEntry) : Look :=
  match entry with
  | .error errno => .failed (hostError errno)
  | .ok raw =>
    match entryName raw.name with
    | .error error => .failed error
    | .ok name =>
      if name = "." ∨ name = ".." then .fixed
      else
        match raw.stat with
        -- removed since the directory was read
        | .error .noent => .skipped
        | .error errno => .failed (hostError errno)
        | .ok identity =>
          match checkExportable identity.kind, checkSameDevice root identity with
          | .ok (), .ok () => .returned name identity
          | _, _ => .skipped

namespace DirReader

def rewind (reader : DirReader) : DirReader :=
  { reader with dir := reader.dir.rewind, position := 0 }

/-- The loop over the raw entries ahead: the next servable one, and what is then ahead. -/
def pass (root : FileIdentity) (skipBudget : Nat) :
    Nat → List (Except Errno RawEntry) →
      Except FsError (Option (String × FileIdentity)) × List (Except Errno RawEntry)
  | skipped, ahead =>
    if skipped > skipBudget then (.error (.limit .maxTraversalEntries), ahead)
    else
      match ahead with
      | [] => (.ok none, [])
      | entry :: ahead =>
        match look root entry with
        | .returned name identity => (.ok (some (name, identity)), ahead)
        | .fixed => pass root skipBudget skipped ahead
        | .skipped => pass root skipBudget (skipped + 1) ahead
        | .failed error => (.error error, ahead)

def nextEntry (reader : DirReader) : Except FsError (Option HostEntry) × DirReader :=
  match pass reader.root reader.skipBudget 0 reader.dir.ahead with
  | (.ok (some (name, identity)), ahead) =>
    let position := saturatingAdd reader.position 1
    (.ok (some { name, kind := identity.kind, qidPath := identity.qidPath, cookie := position }),
      { reader with dir := { reader.dir with ahead }, position })
  | (.ok none, ahead) => (.ok none, { reader with dir := { reader.dir with ahead } })
  | (.error error, ahead) => (.error error, { reader with dir := { reader.dir with ahead } })

/-- The loop of `seek`: read until the position is reached. Each round takes an entry. -/
def advance : Nat → DirReader → Nat → Except FsError Unit × DirReader
  | 0, reader, _ => (.ok (), reader)
  | fuel + 1, reader, cookie =>
    if reader.position < cookie then
      match reader.nextEntry with
      | (.ok (some _), reader) => advance fuel reader cookie
      -- the directory no longer has the position
      | (.ok none, reader) => (.error (.refused .einval), reader)
      | (.error error, reader) => (.error error, reader)
    else (.ok (), reader)

def seek (reader : DirReader) (cookie budget : Nat) : Except FsError Unit × DirReader :=
  if cookie = reader.position then (.ok (), reader)
  else if cookie > budget then (.error (.refused .einval), reader)
  else advance (cookie + 1) reader.rewind cookie

end DirReader

/-! ## The directory as a whole -/

section

variable (root : FileIdentity)

def served (entry : Except Errno RawEntry) :
    Option (String × FileIdentity) :=
  match look root entry with
  | .returned name identity => some (name, identity)
  | _ => none

section

variable (entries : List (Except Errno RawEntry))

/-- What the profile serves of some raw entries. -/
def servable :
    List (String × FileIdentity) :=
  entries.filterMap (served root)

/-- The entries of a directory, each with its cookie. -/
def listing : List HostEntry :=
  (servable root entries).mapIdx fun index (name, identity) =>
    { name, kind := identity.kind, qidPath := identity.qidPath, cookie := index + 1 }

theorem length_listing : (listing root entries).length = (servable root entries).length := by
  simp [listing]

end

end

theorem cookie_of_getElem? {root : FileIdentity} {entries : List (Except Errno RawEntry)} {k : Nat}
    {entry : HostEntry} (h : (listing root entries)[k]? = some entry) : entry.cookie = k + 1 := by
  rw [listing, getElem?_mapIdx, Option.map_eq_some_iff] at h
  obtain ⟨_, -, rfl⟩ := h
  rfl

namespace DirReader

variable {root : FileIdentity} {entries : List (Except Errno RawEntry)}

/-- The loop stops at the next servable entry, or having passed over none. -/
theorem pass_servable (root : FileIdentity) (skipBudget skipped : Nat)
    (ahead : List (Except Errno RawEntry)) :
    match pass root skipBudget skipped ahead with
    | (.ok (some found), rest) => servable root ahead = found :: servable root rest
    | (.ok none, rest) => servable root ahead = [] ∧ servable root rest = []
    | (.error _, rest) => servable root ahead = servable root rest := by
  induction ahead generalizing skipped with
  | nil =>
    rw [pass]
    split_ifs
    · rfl
    · exact ⟨rfl, rfl⟩
  | cons entry ahead ih =>
    rw [pass]
    split_ifs
    · rfl
    · cases hlook : look root entry with
      | returned name identity | failed error => simp [servable, served, hlook]
      | fixed =>
        have hservable : servable root (entry :: ahead) = servable root ahead := by
          simp [servable, served, hlook]
        rw [hservable]
        exact ih skipped
      | skipped =>
        have hservable : servable root (entry :: ahead) = servable root ahead := by
          simp [servable, served, hlook]
        rw [hservable]
        exact ih (skipped + 1)

/-- The reader has returned the first `k` entries of the directory. -/
structure At (root : FileIdentity) (entries : List (Except Errno RawEntry)) (reader : DirReader)
    (k : Nat) : Prop where
  sameRoot : reader.root = root
  sameEntries : reader.dir.entries = entries
  position : reader.position = k
  ahead : servable root reader.dir.ahead = (servable root entries).drop k
  le : k ≤ (servable root entries).length

variable {reader : DirReader} {k : Nat}

theorem At.rewind (h : At root entries reader k) : At root entries reader.rewind 0 where
  sameRoot := h.sameRoot
  sameEntries := h.sameEntries
  position := rfl
  ahead := by
    show servable root reader.dir.entries = _
    rw [h.sameEntries, drop_zero]
  le := Nat.zero_le _

section

variable (h : At root entries reader k)
include h

theorem At.lt_wordBound : (servable root entries).length < wordBound := by
  have hbound := reader.dir.bounded
  rw [h.sameEntries] at hbound
  exact lt_of_le_of_lt (length_filterMap_le _ _) hbound

/-- Reading on gives the next entry of the listing, its end, or an error that loses
nothing. -/
theorem nextEntry_cases :
    (∃ entry after, (listing root entries)[k]? = some entry ∧
      reader.nextEntry = (.ok (some entry), after) ∧ At root entries after (k + 1)) ∨
    (∃ after, k = (listing root entries).length ∧ reader.nextEntry = (.ok none, after) ∧
      At root entries after k) ∨
    (∃ error after, reader.nextEntry = (.error error, after) ∧ At root entries after k) := by
  have hpass := pass_servable root reader.skipBudget 0 reader.dir.ahead
  have hbound := h.lt_wordBound
  obtain ⟨hroot, hentries, hposition, hahead, hle⟩ := h
  unfold nextEntry
  rw [hroot]
  rw [hahead] at hpass
  generalize pass root reader.skipBudget 0 reader.dir.ahead = passed at hpass
  obtain ⟨found, rest⟩ := passed
  rcases found with error | found
  · exact .inr (.inr ⟨error, _, rfl, rfl, hentries, hposition, hpass.symm, hle⟩)
  · rcases found with _ | ⟨name, identity⟩
    · obtain ⟨hend, hrest⟩ := hpass
      have hk : k = (servable root entries).length := le_antisymm hle (drop_eq_nil_iff.1 hend)
      refine .inr (.inl ⟨_, ?_, rfl, rfl, hentries, hposition, ?_, hle⟩)
      · rw [length_listing, hk]
      · exact hrest.trans hend.symm
    · have hlt : k < (servable root entries).length := by
        rw [← not_le, ← drop_eq_nil_iff, hpass]
        nofun
      rw [drop_eq_getElem_cons hlt] at hpass
      obtain ⟨hfound, hrest⟩ := cons.inj hpass
      have hposition' : saturatingAdd reader.position 1 = k + 1 := by
        rw [hposition, saturatingAdd_of_lt (by omega)]
      rw [hposition']
      refine .inl ⟨_, _, ?_, rfl, rfl, hentries, rfl, hrest.symm, hlt⟩
      simp [listing, getElem?_eq_getElem hlt, hfound]

theorem advance_cases {fuel cookie : Nat} (hk : k ≤ cookie) (hfuel : cookie - k < fuel) :
    (∃ after, advance fuel reader cookie = (.ok (), after) ∧ At root entries after cookie) ∨
    (∃ error after j, advance fuel reader cookie = (.error error, after) ∧
      At root entries after j) := by
  induction fuel generalizing reader k with
  | zero => omega
  | succ fuel ih =>
    rw [advance, h.position]
    by_cases hlt : k < cookie
    · rw [if_pos hlt]
      obtain ⟨entry, after, -, hnext, hafter⟩ | ⟨after, -, hnext, hafter⟩ |
        ⟨error, after, hnext, hafter⟩ := nextEntry_cases h
      · rw [hnext]
        exact ih hafter hlt (by omega)
      · rw [hnext]
        exact .inr ⟨_, after, k, rfl, hafter⟩
      · rw [hnext]
        exact .inr ⟨error, after, k, rfl, hafter⟩
    · have hcookie : k = cookie := by omega
      rw [if_neg hlt]
      subst hcookie
      exact .inl ⟨reader, rfl, h⟩

theorem seek_cases (cookie budget : Nat) :
    (∃ after, reader.seek cookie budget = (.ok (), after) ∧ At root entries after cookie) ∨
    (∃ error after j, reader.seek cookie budget = (.error error, after) ∧
      At root entries after j) := by
  unfold seek
  rw [h.position]
  split_ifs with hcookie hbudget
  · subst hcookie
    exact .inl ⟨reader, rfl, h⟩
  · exact .inr ⟨_, reader, k, rfl, h⟩
  · exact advance_cases h.rewind (Nat.zero_le _) (by omega)

end

end DirReader

end AgentUplink.Host
