import AgentUplink.NineP.Wire

/-!
# The packed entries of an `Rreaddir`

A block is a sequence of `qid[13] offset[8] type[1] name[s]` records with no count of its
own. What is packed into a block is parsed out of it again.
-/

open Fallible Reader

namespace AgentUplink.NineP

open List Utf8

def entryOverhead : Nat := 13 + 8 + 1 + 2

structure DirEntry where
  qid : Qid
  /-- The cookie a later request resumes from. -/
  offset : UInt64
  name : String
  deriving DecidableEq

namespace QidKind

/-- The kind as a directory entry spells it: `DT_REG`, `DT_DIR` or `DT_LNK`. -/
def direntType : QidKind → UInt8
  | file => 8
  | directory => 4
  | symlink => 10

end QidKind

namespace DirEntry

def direntType (entry : DirEntry) : UInt8 := entry.qid.kind.direntType

def encodedLen (entry : DirEntry) : Nat := entryOverhead + (bytes entry.name).length

def encoded (entry : DirEntry) : List UInt8 :=
  Writer.qid entry.qid ++ Writer.u64 entry.offset ++ Writer.u8 entry.direntType ++
    Writer.text entry.name

end DirEntry

/-- The type repeats what the qid says, and has to agree with it. -/
def kindFromDirent (byte : UInt8) (qid : Qid) : Except CodecError Unit :=
  if byte = qid.kind.direntType then .ok () else .error .malformedDirEntry

/-- One record. A block that ends inside one is malformed wherever it ends. -/
def readEntry : Reader.FieldReader DirEntry := do
  let qid ← mapError (fun | .truncatedBody => .malformedDirEntry | other => other) Reader.qid
  let offset ← mapError (fun _ => .malformedDirEntry) Reader.u64
  let direntType ← mapError (fun _ => .malformedDirEntry) Reader.u8
  let _ ← kindFromDirent direntType qid
  let name ← mapError
    (fun | .stringNotUtf8 field => .stringNotUtf8 field | _ => .malformedDirEntry)
    (Reader.string .dirEntryName)
  return { qid, offset, name }

/-- Records until the block runs out. A record takes up some of it. -/
def parseFor : Nat → List UInt8 → Except CodecError (List DirEntry)
  | _, [] => .ok []
  | 0, _ => .error .malformedDirEntry
  | fuel + 1, data => do
    let (entry, rest) ← readEntry.run data
    let entries ← parseFor fuel rest
    return entry :: entries

def parseEntries (data : List UInt8) : Except CodecError (List DirEntry) :=
  parseFor data.length data

/-- The loop of `packEntries`, with the block and the number of entries written so far. -/
def packFor (limit : Nat) :
    List DirEntry → List UInt8 → Nat → Except CodecError (List UInt8 × Nat)
  | [], out, written => .ok (out, written)
  | entry :: entries, out, written =>
    if out.length + entry.encodedLen > limit then .ok (out, written)
    else do
      let name ← Writer.string .dirEntryName entry.name
      packFor limit entries
        (out ++ Writer.qid entry.qid ++ Writer.u64 entry.offset ++ Writer.u8 entry.direntType
          ++ name)
        (written + 1)

/-- A block no larger than `limit`, and how many entries it holds. An entry that does not
fit is left out entirely. -/
def packEntries (entries : List DirEntry) (limit : Nat) : Except CodecError (List UInt8 × Nat) :=
  packFor limit entries [] 0

/-! ## Blocks -/

theorem kindFromDirent_eq_ok {byte : UInt8} {qid : Qid} {u : Unit} :
    kindFromDirent byte qid = .ok u ↔ byte = qid.kind.direntType := by
  unfold kindFromDirent
  split_ifs with h <;> simp [h]

namespace DirEntry

theorem length_encoded (entry : DirEntry) : entry.encoded.length = entry.encodedLen := by
  simp [encoded, Writer.qid, Writer.u64, Writer.text, encodedLen, entryOverhead]
  omega

theorem encoded_ne_nil (entry : DirEntry) : entry.encoded ≠ [] := by
  intro hnil
  have hlen := entry.length_encoded
  rw [hnil, encodedLen, entryOverhead, length_nil] at hlen
  omega

theorem inverts_readEntry :
    Inverts readEntry encoded fun entry => (bytes entry.name).length < 2 ^ 16 := by
  apply inverts_of_run
  intro input entry rest
  unfold readEntry
  simp only [run_bind_eq_ok, run_mapError_eq_ok, Reader.qid_eq_ok, Reader.u64_eq_ok,
    Reader.u8_eq_ok, Reader.string_eq_ok, run_lift_eq_ok, run_pure_eq_ok, kindFromDirent_eq_ok]
  constructor
  · rintro ⟨qid, _, rfl, offset, _, rfl, _, _, rfl, _, _, ⟨rfl, rfl⟩, name, _, ⟨hname, rfl⟩, rfl,
      rfl⟩
    exact ⟨hname, by simp [encoded, direntType]⟩
  · rintro ⟨hname, rfl⟩
    refine ⟨entry.qid, _, ?_, entry.offset, _, rfl, entry.direntType, _, rfl, (), _, ⟨rfl, rfl⟩,
      entry.name, rest, ⟨hname, rfl⟩, rfl, rfl⟩
    simp [encoded]

end DirEntry

variable {entries : List DirEntry} {limit : Nat}

theorem parseFor_eq_ok {fuel : Nat} {data : List UInt8} (hfuel : data.length ≤ fuel) :
    parseFor fuel data = .ok entries ↔
      (∀ entry ∈ entries, (bytes entry.name).length < 2 ^ 16) ∧
        data = entries.flatMap DirEntry.encoded := by
  fun_induction parseFor fuel data generalizing entries with
  | case1 =>
    cases entries with
    | nil => simp
    | cons entry entries => simp [entry.encoded_ne_nil]
  | case2 data hne => exact absurd (length_eq_zero_iff.1 (Nat.le_zero.1 hfuel)) hne
  | case3 fuel data hne ih =>
    simp only [except_bind_eq_ok, DirEntry.inverts_readEntry.run_eq_ok, Prod.exists, pure,
      Except.pure, Except.ok.injEq]
    have hshorter {entry : DirEntry} {rest : List UInt8}
        (hdata : data = entry.encoded ++ rest) : rest.length ≤ fuel := by
      rw [hdata, length_append, entry.length_encoded, DirEntry.encodedLen, entryOverhead] at hfuel
      omega
    constructor
    · rintro ⟨entry, rest, ⟨hname, hdata⟩, others, hothers, rfl⟩
      obtain ⟨hnames, rfl⟩ := (ih rest (hshorter hdata)).1 hothers
      exact ⟨forall_mem_cons.2 ⟨hname, hnames⟩, hdata⟩
    · rintro ⟨hnames, hdata⟩
      cases entries with
      | nil => exact absurd hdata hne
      | cons entry entries =>
        obtain ⟨hname, hnames⟩ := forall_mem_cons.1 hnames
        exact ⟨entry, _, ⟨hname, hdata⟩, entries, (ih _ (hshorter hdata)).2 ⟨hnames, rfl⟩, rfl⟩

theorem parseEntries_eq_ok {data : List UInt8} :
    parseEntries data = .ok entries ↔
      (∀ entry ∈ entries, (bytes entry.name).length < 2 ^ 16) ∧
        data = entries.flatMap DirEntry.encoded :=
  parseFor_eq_ok (le_refl _)

/-- Entries that fit are packed, unless a name is too long. -/
theorem packFor_cases {out : List UInt8} {written : Nat}
    (h : out.length + (entries.map DirEntry.encodedLen).sum ≤ limit) :
    (∃ error, packFor limit entries out written = .error error) ∨
      packFor limit entries out written =
          .ok (out ++ entries.flatMap DirEntry.encoded, written + entries.length) ∧
        ∀ entry ∈ entries, (bytes entry.name).length < 2 ^ 16 := by
  induction entries generalizing out written with
  | nil => exact .inr ⟨by simp [packFor], by simp⟩
  | cons entry entries ih =>
    rw [map_cons, sum_cons] at h
    rw [packFor, if_neg (by omega)]
    cases hname : Writer.string .dirEntryName entry.name with
    | error error => exact .inl ⟨error, rfl⟩
    | ok name =>
      obtain ⟨hfits, rfl⟩ := Writer.string_eq_ok.1 hname
      have hout : out ++ Writer.qid entry.qid ++ Writer.u64 entry.offset ++
          Writer.u8 entry.direntType ++ Writer.text entry.name = out ++ entry.encoded := by
        simp [DirEntry.encoded]
      rw [except_ok_bind, hout]
      have hlen :
          (out ++ entry.encoded).length + (entries.map DirEntry.encodedLen).sum ≤ limit := by
        rw [length_append, entry.length_encoded]
        omega
      refine (ih hlen).imp id fun ⟨hpacked, hnames⟩ => ⟨?_, forall_mem_cons.2 ⟨hfits, hnames⟩⟩
      rw [hpacked, flatMap_cons, append_assoc, length_cons]
      congr 2
      omega

theorem packEntries_cases (h : (entries.map DirEntry.encodedLen).sum ≤ limit) :
    (∃ error, packEntries entries limit = .error error) ∨
      packEntries entries limit = .ok (entries.flatMap DirEntry.encoded, entries.length) ∧
        parseEntries (entries.flatMap DirEntry.encoded) = .ok entries := by
  have hpack := @packFor_cases entries limit [] 0 (by simpa using h)
  rw [nil_append, zero_add] at hpack
  exact hpack.imp id fun ⟨hpacked, hnames⟩ => ⟨hpacked, parseEntries_eq_ok.2 ⟨hnames, rfl⟩⟩

end AgentUplink.NineP
