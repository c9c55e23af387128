import AgentUplink.Host.Directory
import AgentUplink.NineP.Framing
import AgentUplink.NineP.Readdir
import AgentUplink.NineP.Session

/-!
# Directory enumeration by the provider

A `Treaddir` fills a block with the entries that follow its offset. An entry that was read
and does not fit is held back for the next request. A client that asks for one page after
another gets the listing of the directory from the front, in order and each entry once. The
page is empty at the end of the directory, and also where the next entry alone is larger
than the block.
-/

namespace AgentUplink

open Host NineP Std List

/-- A resolved descriptor of one fid. -/
structure OpenFid where
  generation : Nat
  /-- Present for a directory. -/
  reader : Option DirReader
  /-- One entry that was read and did not fit its block. -/
  pending : Option HostEntry

namespace OpenFid

def qidKind : FileKind → QidKind
  | .directory => .directory
  | .symlink => .symlink
  | _ => .file

def dirEntry (host : HostEntry) : DirEntry :=
  { qid := { kind := qidKind host.kind, version := 0, path := host.qidPath }
    offset := UInt64.ofNat host.cookie, name := host.name }

def width (host : HostEntry) : Nat := entryOverhead + (Utf8.bytes host.name).length

/-- The entry that was held back, or else the next one. -/
def take (reader : DirReader) (pending : Option HostEntry) :
    Except FsError (Option HostEntry) × DirReader :=
  match pending with
  | some held => (.ok (some held), reader)
  | none => reader.nextEntry

/-- The loop that fills a block: the entries, the reader and the entry held back. Each round
but the last takes an entry of the directory. -/
def fill (limit : Nat) :
    Nat → DirReader → Option HostEntry → Nat → List DirEntry →
      Except FsError (List DirEntry) × DirReader × Option HostEntry
  | 0, reader, pending, _, entries => (.ok entries, reader, pending)
  | fuel + 1, reader, pending, used, entries =>
    match take reader pending with
    | (.error error, reader) => (.error error, reader, none)
    | (.ok none, reader) => (.ok entries, reader, none)
    | (.ok (some host), reader) =>
      if used + width host > limit then (.ok entries, reader, some host)
      else fill limit fuel reader none (used + width host) (entries ++ [dirEntry host])

/-- Where the next page would start. -/
def resumeAt (reader : DirReader) (pending : Option HostEntry) : Nat :=
  match pending with
  | none => reader.position
  | some held => held.cookie - 1

/-- Go to the offset. What was held back is for the sequential case only. -/
def reposition (reader : DirReader) (pending : Option HostEntry) (offset budget : Nat) :
    Except FsError Unit × DirReader × Option HostEntry :=
  if offset ≠ resumeAt reader pending then
    match reader.seek offset budget with
    | (result, reader) => (result, reader, none)
  else (.ok (), reader, pending)

/-- The part of a request that is about one open fid: the block and the number of its
entries. -/
def readdir (entry : OpenFid) (limit budget offset : Nat) :
    Except FsError (List UInt8 × Nat) × OpenFid :=
  match entry.reader with
  | none => (.error (.refused .enotdir), entry)
  | some reader =>
    match reposition reader entry.pending offset budget with
    | (.error error, reader, pending) =>
      (.error error, { entry with reader := some reader, pending })
    | (.ok (), reader, pending) =>
      match fill limit (reader.dir.ahead.length + 2) reader pending 0 [] with
      | (.error error, reader, pending) =>
        (.error error, { entry with reader := some reader, pending })
      | (.ok entries, reader, pending) =>
        let entry := { entry with reader := some reader, pending }
        match packEntries entries limit with
        | .error _ => (.error (.refused .einval), entry)
        | .ok (data, packed) =>
          if packed ≠ entries.length then (.error (.refused .einval), entry)
          else (.ok (data, packed), entry)

end OpenFid

structure Provider where
  session : Session
  maxTraversalEntries : Nat
  opened : ExtTreeMap UInt32 OpenFid
  readdirBlocks : Nat
  readdirEntries : Nat

namespace Provider

def cached (provider : Provider) (fid : UInt32) : Option OpenFid :=
  match provider.session.fids[fid]? with
  | none => none
  | some state => provider.opened[fid]?.filter fun entry => entry.generation = state.generation

def readdirLimit (provider : Provider) (count : UInt32) : Nat :=
  min (provider.session.msize.toNat - countedReplyOverhead) count.toNat

def performReaddir (provider : Provider) (fid : UInt32) (offset : UInt64) (count : UInt32) :
    Except FsError Message × Provider :=
  match provider.cached fid with
  | none => (.error (.refused .einval), provider)
  | some entry =>
    match entry.readdir (provider.readdirLimit count) provider.maxTraversalEntries
      offset.toNat with
    | (.error error, entry) =>
      (.error error, { provider with opened := provider.opened.insert fid entry })
    | (.ok (data, packed), entry) =>
      (.ok (.rreaddir data),
        { provider with
          opened := provider.opened.insert fid entry
          readdirBlocks := provider.readdirBlocks + 1
          readdirEntries := provider.readdirEntries + packed })

end Provider

/-! ## One page -/

namespace OpenFid

variable {root : FileIdentity} {entries : List (Except Errno RawEntry)}

/-- The next entry to be returned is number `o` of the listing. -/
def Resumes (root : FileIdentity) (entries : List (Except Errno RawEntry)) (reader : DirReader)
    (pending : Option HostEntry) (o : Nat) : Prop :=
  (pending = none ∧ reader.At root entries o) ∨
    ∃ held, pending = some held ∧ (listing root entries)[o]? = some held ∧
      reader.At root entries (o + 1)

variable {reader : DirReader} {pending : Option HostEntry} {o : Nat}

theorem Resumes.resumeAt (h : Resumes root entries reader pending o) :
    resumeAt reader pending = o := by
  obtain ⟨rfl, hat⟩ | ⟨held, rfl, hheld, hat⟩ := h
  · exact hat.position
  · have hcookie := cookie_of_getElem? hheld
    show held.cookie - 1 = o
    omega

theorem take_cases (h : Resumes root entries reader pending o) :
    (∃ host after, (listing root entries)[o]? = some host ∧
      take reader pending = (.ok (some host), after) ∧ after.At root entries (o + 1)) ∨
    (∃ after, o = (listing root entries).length ∧ take reader pending = (.ok none, after) ∧
      after.At root entries o) ∨
    (∃ error after, take reader pending = (.error error, after) ∧ after.At root entries o) := by
  obtain ⟨rfl, hat⟩ | ⟨held, rfl, hheld, hat⟩ := h
  · exact DirReader.nextEntry_cases hat
  · exact .inl ⟨held, reader, hheld, rfl, hat⟩

def widths (hosts : List HostEntry) : Nat := (hosts.map width).sum

/-- The block holds the entries from the offset on, as many as fit. -/
theorem fill_cases {limit fuel used : Nat} {taken : List DirEntry}
    (h : Resumes root entries reader pending o) (hused : used ≤ limit)
    (hfuel : (listing root entries).length - o < fuel) :
    (∃ error after j, fill limit fuel reader pending used taken = (.error error, after, none) ∧
      Resumes root entries after none j) ∨
    ∃ page after held,
      fill limit fuel reader pending used taken = (.ok (taken ++ page.map dirEntry), after, held) ∧
      page <+: (listing root entries).drop o ∧ used + widths page ≤ limit ∧
      Resumes root entries after held (o + page.length) ∧
      (o + page.length = (listing root entries).length ∨
        ∃ host, (listing root entries)[o + page.length]? = some host ∧
          limit < used + widths page + width host) := by
  induction fuel generalizing reader pending used o taken with
  | zero => omega
  | succ fuel ih =>
    rw [fill]
    obtain ⟨host, after, hhost, htake, hafter⟩ | ⟨after, hend, htake, hafter⟩ |
      ⟨error, after, htake, hafter⟩ := take_cases h
    · rw [htake]
      simp only
      by_cases hfits : used + width host > limit
      · -- held back
        rw [if_pos hfits]
        refine .inr ⟨[], after, some host, by simp, nil_prefix, by simpa [widths] using hused,
          ?_, .inr ⟨host, hhost, by simpa [widths] using hfits⟩⟩
        exact .inr ⟨host, rfl, hhost, hafter⟩
      · rw [if_neg hfits]
        have hlt : o < (listing root entries).length := List.getElem?_eq_some_iff.1 hhost |>.1
        have hnext : Resumes root entries after none (o + 1) := .inl ⟨rfl, hafter⟩
        obtain ⟨error, after', j, hfill, hj⟩ |
          ⟨page, after', held, hfill, hpage, hle, hheld, hlast⟩ :=
          @ih after none (o + 1) (used + width host) (taken ++ [dirEntry host]) hnext
            (Nat.le_of_not_lt hfits) (by omega)
        · exact .inl ⟨error, after', j, hfill, hj⟩
        · have hwidths : used + widths (host :: page) = used + width host + widths page := by
            simp [widths, add_assoc]
          have hlength : o + (host :: page).length = o + 1 + page.length := by
            simp only [length_cons]
            omega
          refine .inr ⟨host :: page, after', held, ?_, ?_, ?_, ?_, ?_⟩
          · simpa using hfill
          · rw [drop_eq_getElem_cons hlt, List.getElem?_eq_some_iff.1 hhost |>.2]
            exact prefix_cons_inj _ |>.2 hpage
          · rwa [hwidths]
          · rwa [hlength]
          · rwa [hlength, hwidths]
    · rw [htake]
      exact .inr ⟨[], after, none, by simp, nil_prefix, by simpa [widths] using hused,
        .inl ⟨rfl, hafter⟩, .inl hend⟩
    · rw [htake]
      exact .inl ⟨error, after, o, rfl, .inl ⟨rfl, hafter⟩⟩

theorem Resumes.lt_fuel (h : Resumes root entries reader pending o) :
    (listing root entries).length - o < reader.dir.ahead.length + 2 := by
  have hahead : ∀ k, reader.At root entries k →
      (listing root entries).length - k ≤ reader.dir.ahead.length := by
    intro k hat
    rw [length_listing, ← length_drop, ← hat.ahead]
    exact length_filterMap_le _ _
  obtain ⟨-, hat⟩ | ⟨held, -, -, hat⟩ := h
  · have hle := hahead _ hat
    omega
  · have hle := hahead _ hat
    omega

theorem reposition_cases (h : Resumes root entries reader pending o) (offset budget : Nat) :
    (∃ after held, reposition reader pending offset budget = (.ok (), after, held) ∧
      Resumes root entries after held offset) ∨
    (∃ error after j, reposition reader pending offset budget = (.error error, after, none) ∧
      Resumes root entries after none j) := by
  unfold reposition
  rw [h.resumeAt]
  by_cases hoffset : offset = o
  · subst hoffset
    rw [if_neg (by simp)]
    exact .inl ⟨reader, pending, rfl, h⟩
  · rw [if_pos hoffset]
    have hat : ∃ k, reader.At root entries k := by
      obtain ⟨-, hat⟩ | ⟨held, -, -, hat⟩ := h
      · exact ⟨_, hat⟩
      · exact ⟨_, hat⟩
    obtain ⟨k, hat⟩ := hat
    obtain ⟨after, hseek, hafter⟩ | ⟨error, after, j, hseek, hafter⟩ :=
      DirReader.seek_cases hat offset budget
    · rw [hseek]
      exact .inl ⟨after, none, rfl, .inl ⟨rfl, hafter⟩⟩
    · rw [hseek]
      exact .inr ⟨error, after, j, rfl, .inl ⟨rfl, hafter⟩⟩

/-- The fid is open on the directory, and nothing that was read from it is lost. -/
def Enumerates (root : FileIdentity) (entries : List (Except Errno RawEntry)) (entry : OpenFid) :
    Prop :=
  ∃ reader o, entry.reader = some reader ∧ Resumes root entries reader entry.pending o

/-- A page is the entries that follow the offset, as many as fit into the block. -/
theorem readdir_cases {entry : OpenFid} (h : Enumerates root entries entry)
    (limit budget offset : Nat) :
    (∃ error after, entry.readdir limit budget offset = (.error error, after) ∧
      Enumerates root entries after ∧ after.generation = entry.generation) ∨
    ∃ page after,
      entry.readdir limit budget offset =
          (.ok ((page.map dirEntry).flatMap DirEntry.encoded, page.length), after) ∧
        Enumerates root entries after ∧ after.generation = entry.generation ∧
        page <+: (listing root entries).drop offset ∧
        parseEntries ((page.map dirEntry).flatMap DirEntry.encoded) = .ok (page.map dirEntry) ∧
        (offset + page.length = (listing root entries).length ∨
          ∃ host, (listing root entries)[offset + page.length]? = some host ∧
            limit < widths page + width host) := by
  obtain ⟨reader, o, hreader, hresumes⟩ := h
  unfold readdir
  rw [hreader]
  simp only
  obtain ⟨after, held, hmove, hafter⟩ | ⟨error, after, j, hmove, hafter⟩ :=
    reposition_cases hresumes offset budget
  · rw [hmove]
    simp only
    obtain ⟨error, after', j, hfill, hj⟩ | ⟨page, after', held', hfill, hpage, hle, hheld, hlast⟩ :=
      @fill_cases _ _ after held offset limit _ 0 [] hafter (Nat.zero_le _) hafter.lt_fuel
    · rw [hfill]
      exact .inl ⟨error, _, rfl, ⟨after', j, rfl, hj⟩, rfl⟩
    · rw [hfill]
      simp only [nil_append]
      rw [zero_add] at hle hlast
      have hsum : ((page.map dirEntry).map DirEntry.encodedLen).sum ≤ limit := by
        rw [map_map]
        exact hle
      obtain ⟨error, hpack⟩ | ⟨hpack, hparse⟩ := packEntries_cases hsum
      · rw [hpack]
        exact .inl ⟨_, _, rfl, ⟨after', _, rfl, hheld⟩, rfl⟩
      · rw [hpack]
        simp only [ne_eq, not_true_eq_false, if_false, length_map]
        exact .inr ⟨page, _, rfl, ⟨after', _, rfl, hheld⟩, rfl, hpage, hparse, hlast⟩
  · rw [hmove]
    exact .inl ⟨error, _, rfl, ⟨after, j, rfl, hafter⟩, rfl⟩

end OpenFid

/-! ## One page after another -/

/-- A client's requests on one fid: the page after what it has received, or any other. -/
inductive Ask
  | next (count : UInt32)
  | other (offset : UInt64) (count : UInt32)

def lastCookie (received : List DirEntry) : UInt64 := (received.getLast?.map DirEntry.offset).getD 0

namespace Provider

/-- One request, and what the client has then received. -/
def turn (fid : UInt32) (state : Provider × List DirEntry) : Ask → Provider × List DirEntry
  | .next count =>
    match state.1.performReaddir fid (lastCookie state.2) count with
    | (.ok (.rreaddir data), provider) =>
      (provider, state.2 ++ (parseEntries data).toOption.getD [])
    | (_, provider) => (provider, state.2)
  | .other offset count => ((state.1.performReaddir fid offset count).2, state.2)

open OpenFid

variable {root : FileIdentity} {entries : List (Except Errno RawEntry)}

def Serves (root : FileIdentity) (entries : List (Except Errno RawEntry)) (provider : Provider)
    (fid : UInt32) : Prop :=
  ∃ entry, provider.cached fid = some entry ∧ Enumerates root entries entry

variable {provider : Provider} {fid : UInt32} {state : Provider × List DirEntry} {k : Nat}

theorem cached_insert {entry after : OpenFid} (h : provider.cached fid = some entry)
    (hgeneration : after.generation = entry.generation) {blocks packed : Nat} :
    ({ provider with
      opened := provider.opened.insert fid after, readdirBlocks := blocks
      readdirEntries := packed } : Provider).cached fid = some after := by
  unfold cached at h ⊢
  cases hfid : provider.session.fids[fid]? with
  | none =>
    rw [hfid] at h
    cases h
  | some state =>
    rw [hfid] at h
    obtain ⟨-, hsame⟩ := Option.filter_eq_some_iff.1 h
    simpa [hgeneration] using hsame

/-- A request answers with the entries that follow its offset, or fails. -/
theorem performReaddir_cases (h : provider.Serves root entries fid) (offset : UInt64)
    (count : UInt32) :
    (∃ error after, provider.performReaddir fid offset count = (.error error, after) ∧
      after.Serves root entries fid ∧ after.session = provider.session) ∨
    ∃ page after,
      provider.performReaddir fid offset count =
          (.ok (.rreaddir ((page.map dirEntry).flatMap DirEntry.encoded)), after) ∧
        after.Serves root entries fid ∧ after.session = provider.session ∧
        page <+: (listing root entries).drop offset.toNat ∧
        parseEntries ((page.map dirEntry).flatMap DirEntry.encoded) = .ok (page.map dirEntry) ∧
        (offset.toNat + page.length = (listing root entries).length ∨
          ∃ host, (listing root entries)[offset.toNat + page.length]? = some host ∧
            provider.readdirLimit count < widths page + width host) := by
  obtain ⟨entry, hcached, hentry⟩ := h
  unfold performReaddir
  rw [hcached]
  simp only
  obtain ⟨error, after, hread, hafter, hgeneration⟩ |
    ⟨page, after, hread, hafter, hgeneration, hpage, hparse, hlast⟩ :=
    readdir_cases hentry (provider.readdirLimit count) provider.maxTraversalEntries offset.toNat
  · rw [hread]
    exact .inl ⟨error, _, rfl, ⟨after, cached_insert hcached hgeneration, hafter⟩, rfl⟩
  · rw [hread]
    exact .inr ⟨page, _, rfl, ⟨after, cached_insert hcached hgeneration, hafter⟩, rfl, hpage,
      hparse, hlast⟩

theorem Serves.lt_wordBound (h : provider.Serves root entries fid) :
    (listing root entries).length < Machine.wordBound := by
  obtain ⟨entry, -, reader, o, -, ⟨-, hat⟩ | ⟨held, -, -, hat⟩⟩ := h
  · rw [length_listing]
    exact hat.lt_wordBound
  · rw [length_listing]
    exact hat.lt_wordBound

/-- The client has the first `k` entries of the listing. -/
structure Received (root : FileIdentity) (entries : List (Except Errno RawEntry)) (fid : UInt32)
    (state : Provider × List DirEntry) (k : Nat) : Prop where
  serves : state.1.Serves root entries fid
  received : state.2 = ((listing root entries).take k).map dirEntry
  le : k ≤ (listing root entries).length

section

variable (h : Received root entries fid state k)
include h

theorem Received.length : state.2.length = k := by
  rw [h.received, length_map, length_take_of_le h.le]

theorem Received.lastCookie : (lastCookie state.2).toNat = k := by
  have hbound := h.serves.lt_wordBound
  have hle := h.le
  rw [AgentUplink.lastCookie, h.received]
  cases k with
  | zero => rfl
  | succ k =>
    have hlt : k < (listing root entries).length := hle
    have hentry := List.getElem?_eq_getElem hlt
    have hcookie := cookie_of_getElem? hentry
    rw [take_add_one, hentry]
    simp only [Option.toList_some, map_append, map_cons, map_nil,
      List.getLast?_append, List.getLast?_singleton, Option.some_or, Option.map_some,
      Option.getD_some, dirEntry, hcookie]
    have hsize : UInt64.size = Machine.wordBound := rfl
    exact UInt64.toNat_ofNat_of_lt' (by omega)

/-- The page after what was received, joined to it. -/
theorem Received.page (count : UInt32) : (∃ error after,
      state.1.performReaddir fid (AgentUplink.lastCookie state.2) count = (.error error, after) ∧
        after.session = state.1.session ∧ Received root entries fid (after, state.2) k) ∨
    ∃ page after,
      state.1.performReaddir fid (AgentUplink.lastCookie state.2) count =
          (.ok (.rreaddir ((page.map dirEntry).flatMap DirEntry.encoded)), after) ∧
        after.session = state.1.session ∧
        parseEntries ((page.map dirEntry).flatMap DirEntry.encoded) = .ok (page.map dirEntry) ∧
        Received root entries fid (after, state.2 ++ page.map dirEntry) (k + page.length) ∧
        (k + page.length = (listing root entries).length ∨
          ∃ host, (listing root entries)[k + page.length]? = some host ∧
            state.1.readdirLimit count < widths page + width host) := by
  have hcookie := h.lastCookie
  obtain ⟨error, after, hread, hserves, hsession⟩ |
    ⟨page, after, hread, hserves, hsession, hpage, hparse, hlast⟩ :=
    performReaddir_cases h.serves (AgentUplink.lastCookie state.2) count
  · exact .inl ⟨error, after, hread, hsession, hserves, h.received, h.le⟩
  · rw [hcookie] at hpage hlast
    have hlen := hpage.length_le
    have hle := h.le
    rw [length_drop] at hlen
    refine .inr ⟨page, after, hread, hsession, hparse, ⟨hserves, ?_, by omega⟩, hlast⟩
    rw [take_add, map_append, ← prefix_iff_eq_take.1 hpage]
    exact congrArg (· ++ page.map dirEntry) h.received

end

end Provider

end AgentUplink
