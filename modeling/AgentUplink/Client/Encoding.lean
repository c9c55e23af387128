import AgentUplink.Client.Decoding
import AgentUplink.NineP.FrameDecoder

/-!
# What the two 9P codecs encode

The client writes a message exactly as the device writes the same message, and refuses the
messages that the device has none for. With what the two decode this says where the codecs are
the same: on the messages none of whose texts begins with a byte order mark.
-/

open Bytes Fallible Reader

namespace AgentUplink.Client

open List Utf8

/-! ## Fields -/

section Fields

variable {field : String} {bytes : List UInt8}

variable {value : Number} {α β : Type} {item : String}

theorem unsigned_eq_ok {width : Nat} :
    Writer.unsigned width value field = .ok bytes ↔
      ∃ n, n < 256 ^ width ∧ value = .ofNat n ∧ bytes = toLeBytes width n := by
  have hpow : 2 ^ (8 * width) = 256 ^ width := by rw [Nat.pow_mul]
  have hpos : 0 < 256 ^ width := Nat.pow_pos (by decide)
  unfold Writer.unsigned Writer.checkUnsigned fail
  simp only [except_bind_eq_ok, ite_error_ok, and_true, pure, Except.pure, Except.ok.injEq, hpow,
    Number.unsigned_iff]
  constructor
  · rintro ⟨_, ⟨n, hn, rfl⟩, rfl⟩
    exact ⟨n, by omega, rfl, rfl⟩
  · rintro ⟨n, hn, rfl, rfl⟩
    exact ⟨(), ⟨n, by omega, rfl⟩, rfl⟩

/-- A word is written as the device writes it, and no other number is. -/
theorem word_eq_ok {width : Nat} {toNat : α → Nat} {ofNat : Nat → α} {w : α → List UInt8}
    (hlt : ∀ n, toNat n < 256 ^ width) (hof : ∀ n < 256 ^ width, toNat (ofNat n) = n)
    (hw : ∀ n, toLeBytes width (toNat n) = w n) :
    Writer.unsigned width value field = .ok bytes ↔
      ∃ n, value = .ofNat (toNat n) ∧ bytes = w n := by
  rw [unsigned_eq_ok]
  constructor
  · rintro ⟨n, hn, rfl, rfl⟩
    exact ⟨ofNat n, by rw [hof n hn], by rw [← hw, hof n hn]⟩
  · rintro ⟨n, rfl, rfl⟩
    exact ⟨toNat n, hlt n, rfl, (hw n).symm⟩

theorem u8_eq_ok :
    Writer.u8 value field = .ok bytes ↔
      ∃ n : UInt8, value = .ofNat n.toNat ∧ bytes = NineP.Writer.u8 n := by
  refine word_eq_ok UInt8.toNat_lt (fun _ => UInt8.toNat_ofNat_of_lt') fun n => ?_
  have hread : ofLeBytes [n] = n.toNat := by simp [ofLeBytes, ofBytes]
  have hback : toLeBytes 1 (ofLeBytes [n]) = [n] := toLeBytes_ofLeBytes rfl
  rw [← hread, hback]
  rfl

theorem u16_eq_ok :
    Writer.u16 value field = .ok bytes ↔
      ∃ n : UInt16, value = .ofNat n.toNat ∧ bytes = NineP.Writer.u16 n :=
  word_eq_ok UInt16.toNat_lt (fun _ => UInt16.toNat_ofNat_of_lt') fun _ => rfl

theorem u32_eq_ok :
    Writer.u32 value field = .ok bytes ↔
      ∃ n : UInt32, value = .ofNat n.toNat ∧ bytes = NineP.Writer.u32 n :=
  word_eq_ok UInt32.toNat_lt (fun _ => UInt32.toNat_ofNat_of_lt') fun _ => rfl

theorem u64_eq_ok {value : Int} :
    Writer.u64 value field = .ok bytes ↔
      ∃ n : UInt64, value = n.toNat ∧ bytes = NineP.Writer.u64 n := by
  unfold Writer.u64 fail
  rw [ite_error_ok, not_or]
  constructor
  · rintro ⟨⟨hlow, hhigh⟩, rfl⟩
    have hlt : value.toNat < 2 ^ 64 := by omega
    have htoNat : (UInt64.ofNat value.toNat).toNat = value.toNat := UInt64.toNat_ofNat_of_lt' hlt
    refine ⟨UInt64.ofNat value.toNat, ?_, ?_⟩
    · omega
    · rw [NineP.Writer.u64, htoNat]
  · rintro ⟨n, rfl, rfl⟩
    have hlt := n.toNat_lt
    refine ⟨⟨by omega, by omega⟩, ?_⟩
    rw [Int.toNat_natCast, NineP.Writer.u64]

theorem string_eq_ok {value : String} :
    Writer.string value field = .ok bytes ↔
      (Utf8.bytes value).length < 2 ^ 16 ∧ NineP.Writer.text value = bytes := by
  unfold Writer.string fail
  rw [ite_error_eq_ok]
  simp only [except_bind_eq_ok, u16_eq_ok, pure, Except.pure, Except.ok.injEq]
  constructor
  · rintro ⟨hlen, _, ⟨n, hn, rfl⟩, rfl⟩
    rw [Number.ofNat_inj] at hn
    refine ⟨by omega, ?_⟩
    rw [NineP.Writer.text, hn, UInt16.ofNat_toNat]
  · rintro ⟨hlen, rfl⟩
    have htoNat : (UInt16.ofNat (bytes value).length).toNat = (bytes value).length :=
      UInt16.toNat_ofNat_of_lt' hlen
    exact ⟨by omega, _, ⟨UInt16.ofNat (bytes value).length, by rw [htoNat], rfl⟩, rfl⟩

theorem writeQid_eq_ok {qid : Qid} :
    writeQid qid field = .ok bytes ↔
      ∃ sent, qid = .ofDevice sent ∧ bytes = NineP.Writer.qid sent := by
  obtain ⟨type, version, path⟩ := qid
  unfold writeQid
  simp only [except_bind_eq_ok, u8_eq_ok, u32_eq_ok, u64_eq_ok, pure, Except.pure, Except.ok.injEq]
  constructor
  · rintro ⟨_, hcheck, _, ⟨n, rfl, rfl⟩, _, ⟨version, rfl, rfl⟩, _, ⟨path, rfl, rfl⟩, rfl⟩
    obtain ⟨kind, rfl⟩ := checkQid_eq_ok.1 hcheck
    exact ⟨{ kind, version, path }, rfl, rfl⟩
  · rintro ⟨sent, hqid, rfl⟩
    cases hqid
    exact ⟨(), checkQid_eq_ok.2 ⟨sent.kind, rfl⟩, _, ⟨_, rfl, rfl⟩, _, ⟨_, rfl, rfl⟩, _,
      ⟨_, rfl, rfl⟩, rfl⟩

theorem encodeDirEntry_eq_ok {entry : DirEntry} :
    encodeDirEntry entry = .ok bytes ↔
      ∃ sent, entry = .ofDevice sent ∧ (Utf8.bytes sent.name).length < 2 ^ 16 ∧
        bytes = sent.encoded := by
  obtain ⟨qid, offset, type, name⟩ := entry
  unfold encodeDirEntry
  simp only [except_bind_eq_ok, writeQid_eq_ok, u8_eq_ok, u64_eq_ok, string_eq_ok, pure,
    Except.pure, Except.ok.injEq]
  constructor
  · rintro ⟨_, hcheck, _, ⟨qid, rfl, rfl⟩, _, ⟨offset, rfl, rfl⟩, _, ⟨byte, rfl, rfl⟩, _,
      ⟨hname, rfl⟩, rfl⟩
    obtain rfl := checkDirent_eq_ok.1 hcheck
    exact ⟨{ qid, offset, name }, rfl, hname, rfl⟩
  · rintro ⟨sent, hentry, hname, rfl⟩
    cases hentry
    exact ⟨(), checkDirent_eq_ok.2 rfl, _, ⟨_, rfl, rfl⟩, _, ⟨_, rfl, rfl⟩, _, ⟨_, rfl, rfl⟩, _,
      ⟨hname, rfl⟩, rfl⟩

theorem each_eq_ok {w : α → String → Result (List UInt8)} {f : β → α} {valid : β → Prop}
    {w' : β → List UInt8}
    (hw : ∀ a field bytes, w a field = .ok bytes ↔ ∃ b, a = f b ∧ valid b ∧ bytes = w' b)
    {index : Nat} {values : List α} :
    Writer.each w item index values = .ok bytes ↔
      ∃ sent : List β, values = sent.map f ∧ (∀ b ∈ sent, valid b) ∧ bytes = sent.flatMap w' := by
  induction values generalizing index bytes with
  | nil =>
    constructor
    · intro h
      cases h
      exact ⟨[], rfl, nofun, rfl⟩
    · rintro ⟨sent, hsent, -, rfl⟩
      rw [map_eq_nil_iff.1 hsent.symm]
      rfl
  | cons value values ih =>
    rw [Writer.each]
    simp only [except_bind_eq_ok, hw, ih, pure, Except.pure, Except.ok.injEq]
    constructor
    · rintro ⟨_, ⟨first, rfl, hfirst, rfl⟩, _, ⟨others, rfl, hothers, rfl⟩, rfl⟩
      exact ⟨first :: others, rfl, forall_mem_cons.2 ⟨hfirst, hothers⟩, rfl⟩
    · rintro ⟨sent, hsent, hvalid, rfl⟩
      cases sent with
      | nil => cases hsent
      | cons first others =>
        cases hsent
        obtain ⟨hfirst, hothers⟩ := forall_mem_cons.1 hvalid
        exact ⟨_, ⟨first, rfl, hfirst, rfl⟩, _, ⟨others, rfl, hothers, rfl⟩, rfl⟩

theorem encodeDirEntries_eq (item : String) (index : Nat) (entries : List DirEntry) :
    encodeDirEntries entries =
      Writer.each (fun entry _ => encodeDirEntry entry) item index entries := by
  induction entries generalizing index with
  | nil => rfl
  | cons entry entries ih => rw [encodeDirEntries, Writer.each, ih (index + 1)]

theorem encodeDirEntries_eq_ok {entries : List DirEntry} :
    encodeDirEntries entries = .ok bytes ↔
      ∃ sent : List NineP.DirEntry, entries = sent.map .ofDevice ∧
        (∀ entry ∈ sent, (Utf8.bytes entry.name).length < 2 ^ 16) ∧
        bytes = sent.flatMap NineP.DirEntry.encoded := by
  rw [encodeDirEntries_eq "" 0]
  exact each_eq_ok fun _ _ _ => encodeDirEntry_eq_ok

theorem writeElements_eq_ok {w : α → String → Result (List UInt8)} {f : β → α} {valid : β → Prop}
    {w' : β → List UInt8} {counter : String}
    (hw : ∀ a field bytes, w a field = .ok bytes ↔ ∃ b, a = f b ∧ valid b ∧ bytes = w' b)
    {values : List α} (hlen : values.length ≤ maxwelem) :
    writeElements counter item w values = .ok bytes ↔
      ∃ sent : List β, values = sent.map f ∧ (∀ b ∈ sent, valid b) ∧
        bytes = NineP.Writer.u16 (UInt16.ofNat sent.length) ++ sent.flatMap w' := by
  unfold writeElements
  simp only [except_bind_eq_ok, u16_eq_ok, each_eq_ok hw, pure, Except.pure, Except.ok.injEq]
  constructor
  · rintro ⟨_, ⟨n, hn, rfl⟩, _, ⟨sent, rfl, hvalid, rfl⟩, rfl⟩
    rw [Number.ofNat_inj, length_map] at hn
    exact ⟨sent, rfl, hvalid, by rw [hn, UInt16.ofNat_toNat]⟩
  · rintro ⟨sent, rfl, hvalid, rfl⟩
    rw [length_map] at hlen
    have htoNat : (UInt16.ofNat sent.length).toNat = sent.length :=
      UInt16.toNat_ofNat_of_lt' (lt_of_le_of_lt hlen (by decide))
    exact ⟨_, ⟨UInt16.ofNat sent.length, by rw [htoNat, length_map], rfl⟩, _,
      ⟨sent, rfl, hvalid, rfl⟩, rfl⟩

theorem writeCounted_eq_ok {data : List UInt8} :
    writeCounted data = .ok bytes ↔ data.length < 2 ^ 32 ∧ NineP.Writer.counted data = bytes := by
  unfold writeCounted
  simp only [except_bind_eq_ok, u32_eq_ok, pure, Except.pure, Except.ok.injEq]
  constructor
  · rintro ⟨_, ⟨n, hn, rfl⟩, rfl⟩
    rw [Number.ofNat_inj] at hn
    have hlt : data.length < 2 ^ 32 := hn ▸ n.toNat_lt
    refine ⟨hlt, ?_⟩
    rw [NineP.Writer.counted, min_eq_left (by omega), hn, UInt32.ofNat_toNat]
  · rintro ⟨hlt, rfl⟩
    have htoNat : (UInt32.ofNat data.length).toNat = data.length := UInt32.toNat_ofNat_of_lt' hlt
    refine ⟨_, ⟨UInt32.ofNat data.length, by rw [htoNat], rfl⟩, ?_⟩
    rw [NineP.Writer.counted, min_eq_left (by omega)]

theorem bind_eq_ok {x : Result (List UInt8)} {P : β → Prop} {w : β → List UInt8}
    (h : ∀ bytes, x = .ok bytes ↔ ∃ b, P b ∧ bytes = w b) {k : List UInt8 → Result α} {a : α} :
    (x >>= k) = .ok a ↔ ∃ b, P b ∧ k (w b) = .ok a := by
  rw [except_bind_eq_ok]
  constructor
  · rintro ⟨bytes, hx, ha⟩
    obtain ⟨b, hb, rfl⟩ := (h bytes).1 hx
    exact ⟨b, hb, ha⟩
  · rintro ⟨b, hb, ha⟩
    exact ⟨w b, (h _).2 ⟨b, hb, rfl⟩, ha⟩

section

variable {α : Type} {k : List UInt8 → Result α} {a : α}

theorem u32_bind_eq_ok {value : Number} : (Writer.u32 value field >>= k) = .ok a ↔
    ∃ n : UInt32, value = .ofNat n.toNat ∧ k (NineP.Writer.u32 n) = .ok a :=
  bind_eq_ok fun _ => u32_eq_ok

theorem u64_bind_eq_ok {value : Int} : (Writer.u64 value field >>= k) = .ok a ↔
    ∃ n : UInt64, value = n.toNat ∧ k (NineP.Writer.u64 n) = .ok a :=
  bind_eq_ok fun _ => u64_eq_ok

theorem string_bind_eq_ok {value : String} : (Writer.string value field >>= k) = .ok a ↔
    (Utf8.bytes value).length < 2 ^ 16 ∧ k (NineP.Writer.text value) = .ok a := by
  rw [except_bind_eq_ok]
  simp only [string_eq_ok]
  constructor
  · rintro ⟨_, ⟨hlen, rfl⟩, ha⟩
    exact ⟨hlen, ha⟩
  · rintro ⟨hlen, ha⟩
    exact ⟨_, ⟨hlen, rfl⟩, ha⟩

theorem qid_bind_eq_ok {qid : Qid} : (writeQid qid field >>= k) = .ok a ↔
    ∃ sent, qid = .ofDevice sent ∧ k (NineP.Writer.qid sent) = .ok a :=
  bind_eq_ok fun _ => writeQid_eq_ok

end

theorem writeAttributes_eq_ok {attributes : Attributes} :
    writeAttributes attributes = .ok bytes ↔
      ∃ sent, attributes = .ofDevice sent ∧ bytes = NineP.Writer.attributes sent := by
  unfold writeAttributes
  simp only [u32_bind_eq_ok, u64_bind_eq_ok, qid_bind_eq_ok, pure, Except.pure, Except.ok.injEq]
  constructor
  · intro h
    cases attributes
    casesm* _ ∧ _, ∃ _, _
    subst_vars
    refine ⟨⟨_, _, _, _, _, _, _, _, _, _, _, _, _, _, _, _, _, _, _, _⟩, rfl, ?_⟩
    simp [NineP.Writer.attributes]
  · rintro ⟨sent, rfl, rfl⟩
    refine ⟨_, rfl, _, rfl, _, rfl, _, rfl, _, rfl, _, rfl, _, rfl, _, rfl, _, rfl, _, rfl, _,
      rfl, _, rfl, _, rfl, _, rfl, _, rfl, _, rfl, _, rfl, _, rfl, _, rfl, _, rfl, ?_⟩
    simp [NineP.Writer.attributes]

end Fields

/-! ## Bodies -/

theorem writes_string (value field : String) (bytes : List UInt8) :
    Writer.string value field = .ok bytes ↔
      ∃ sent, value = id sent ∧ (Utf8.bytes sent).length < 2 ^ 16 ∧
        bytes = NineP.Writer.text sent := by
  rw [string_eq_ok]
  constructor
  · rintro ⟨hlen, rfl⟩
    exact ⟨value, rfl, hlen, rfl⟩
  · rintro ⟨sent, rfl, hlen, rfl⟩
    exact ⟨hlen, rfl⟩

theorem writes_qid (qid : Qid) (field : String) (bytes : List UInt8) :
    writeQid qid field = .ok bytes ↔
      ∃ sent, qid = .ofDevice sent ∧ True ∧ bytes = NineP.Writer.qid sent := by
  rw [writeQid_eq_ok]
  simp only [true_and]

variable {body : Body} {α : Type} {bytes : List UInt8} {message : NineP.Message}

section

variable {field : String}

theorem u16_ofNat (n : UInt16) : Writer.u16 (.ofNat n.toNat) field = .ok (NineP.Writer.u16 n) :=
  u16_eq_ok.2 ⟨n, rfl, rfl⟩

theorem u32_ofNat (n : UInt32) : Writer.u32 (.ofNat n.toNat) field = .ok (NineP.Writer.u32 n) :=
  u32_eq_ok.2 ⟨n, rfl, rfl⟩

theorem u64_ofNat (n : UInt64) : Writer.u64 n.toNat field = .ok (NineP.Writer.u64 n) :=
  u64_eq_ok.2 ⟨n, rfl, rfl⟩

theorem qid_ofDevice (qid : NineP.Qid) :
    writeQid (.ofDevice qid) field = .ok (NineP.Writer.qid qid) :=
  writeQid_eq_ok.2 ⟨qid, rfl, rfl⟩

end

/-- The client and the device write the same message in the same bytes. -/
theorem encodeBody_ofDevice (hbody : Body.ofDevice message = some body) :
    encodeBody body = .ok bytes ↔ message.Counted ∧ message.encodeBody = .ok bytes := by
  cases message
  case rreaddir data =>
    rw [ofDevice_rreaddir] at hbody
    cases hentries : NineP.parseEntries data with
    | error error =>
      rw [hentries] at hbody
      cases hbody
    | ok entries =>
      rw [hentries] at hbody
      cases hbody
      obtain ⟨hnames, hblock⟩ := NineP.parseEntries_eq_ok.1 hentries
      have hwritten : encodeDirEntries (entries.map .ofDevice) = .ok data :=
        encodeDirEntries_eq_ok.2 ⟨entries, rfl, hnames, hblock⟩
      show (encodeDirEntries (entries.map .ofDevice) >>= writeCounted) = _ ↔ _
      rw [hwritten, except_ok_bind, writeCounted_eq_ok, NineP.Message.encodeBody, Except.ok.injEq]
      rfl
  all_goals
    cases hbody
    simp only [encodeBody, NineP.Message.encodeBody, NineP.Message.Counted, fail, true_and]
  case twalk fid newfid names =>
    rw [ite_error_eq_ok, ite_error_eq_ok]
    refine and_congr_right fun hlen => ?_
    rw [u32_ofNat, except_ok_bind, u32_ofNat, except_ok_bind]
    simp only [except_bind_eq_ok, writeElements_eq_ok writes_string (Nat.le_of_not_lt hlen),
      NineP.Writer.strings_eq_ok, map_id, pure, Except.pure, Except.ok.injEq]
    simp
  case rwalk qids =>
    rw [length_map, ite_error_eq_ok, ite_error_eq_ok]
    refine and_congr_right fun hlen => ?_
    have hmax : (qids.map Qid.ofDevice).length ≤ maxwelem := by
      rw [length_map]
      exact Nat.le_of_not_lt hlen
    rw [(writeElements_eq_ok writes_qid hmax).2 ⟨qids, rfl, fun _ _ => trivial, rfl⟩,
      Except.ok.injEq, Except.ok.injEq]
  case rlerror code =>
    have hcheck : checkErrno (.ofNat code.errno.toNat) = .ok () := checkErrno_eq_ok.2 ⟨code, rfl⟩
    simp only [hcheck, u32_ofNat, except_ok_bind, Except.ok.injEq]
  case rgetattr attributes =>
    rw [writeAttributes_eq_ok.2 ⟨attributes, rfl, rfl⟩, Except.ok.injEq, Except.ok.injEq]
  -- every other body is a sequence of fields, of which only the texts can be refused
  all_goals
    simp only [u16_ofNat, u32_ofNat, u64_ofNat, qid_ofDevice, string_eq_ok, except_ok_bind,
      NineP.Writer.string_eq_ok, except_bind_eq_ok, writeCounted_eq_ok, pure, Except.pure,
      Except.ok.injEq]
  case twrite => simp

theorem ofDevice_of_encodeBody (h : encodeBody body = .ok bytes) :
    ∃ message, Body.ofDevice message = some body := by
  cases body
  case rlerror ecode =>
    simp only [encodeBody, except_bind_eq_ok, u32_eq_ok] at h
    obtain ⟨_, hcheck, errno, rfl, -⟩ := h
    obtain ⟨code, rfl⟩ := checkErrno_eq_ok.1 hcheck
    exact ⟨.rlerror code, rfl⟩
  case rwalk wqids =>
    simp only [encodeBody, fail, ite_error_eq_ok] at h
    obtain ⟨hlen, hwritten⟩ := h
    obtain ⟨sent, rfl, -⟩ := (writeElements_eq_ok writes_qid (Nat.le_of_not_lt hlen)).1 hwritten
    exact ⟨.rwalk sent, rfl⟩
  case rreaddir entries =>
    simp only [encodeBody, except_bind_eq_ok, encodeDirEntries_eq_ok] at h
    obtain ⟨_, ⟨sent, rfl, hnames, rfl⟩, -⟩ := h
    refine ⟨.rreaddir (sent.flatMap NineP.DirEntry.encoded), ?_⟩
    rw [ofDevice_rreaddir, NineP.parseEntries_eq_ok.2 ⟨hnames, rfl⟩]
  -- every other body is the fields of its type one after another
  all_goals
    simp only [encodeBody, fail, ite_error_eq_ok, u32_bind_eq_ok, u64_bind_eq_ok,
      string_bind_eq_ok, qid_bind_eq_ok, u16_eq_ok, u32_eq_ok, string_eq_ok, writeQid_eq_ok,
      writeAttributes_eq_ok, pure, Except.pure, Except.ok.injEq] at h
  all_goals try casesm* _ ∧ _, ∃ _, _
  all_goals subst_vars
  case rattach => exact ⟨.rattach _, rfl⟩
  case tflush => exact ⟨.tflush _, rfl⟩
  case rflush => exact ⟨.rflush, rfl⟩
  case tlopen => exact ⟨.tlopen _ _, rfl⟩
  case rlopen => exact ⟨.rlopen _ _, rfl⟩
  case rlcreate => exact ⟨.rlcreate _ _, rfl⟩
  case rsymlink => exact ⟨.rsymlink _, rfl⟩
  case treadlink => exact ⟨.treadlink _, rfl⟩
  case tgetattr => exact ⟨.tgetattr _ _, rfl⟩
  case rgetattr => exact ⟨.rgetattr _, rfl⟩
  case tsetattr => exact ⟨.tsetattr _ _ _ _ _ _ _ _ _ _, rfl⟩
  case rsetattr => exact ⟨.rsetattr, rfl⟩
  case treaddir => exact ⟨.treaddir _ _ _, rfl⟩
  case rlink => exact ⟨.rlink, rfl⟩
  case rmkdir => exact ⟨.rmkdir _, rfl⟩
  case rrename => exact ⟨.rrename, rfl⟩
  case rrenameat => exact ⟨.rrenameat, rfl⟩
  case runlinkat => exact ⟨.runlinkat, rfl⟩
  case tread => exact ⟨.tread _ _ _, rfl⟩
  case rread => exact ⟨.rread _, rfl⟩
  case rwrite => exact ⟨.rwrite _, rfl⟩
  case tclunk => exact ⟨.tclunk _, rfl⟩
  case rclunk => exact ⟨.rclunk, rfl⟩
  case tremove => exact ⟨.tremove _, rfl⟩
  case rremove => exact ⟨.rremove, rfl⟩
  case twrite => exact ⟨.twrite _ _ _, rfl⟩
  case twalk => exact ⟨.twalk _ _ _, rfl⟩
  case tversion => exact ⟨.tversion _ _, rfl⟩
  case rversion => exact ⟨.rversion _ _, rfl⟩
  case tattach => exact ⟨.tattach _ _ _ _ _, rfl⟩
  case tlcreate => exact ⟨.tlcreate _ _ _ _ _, rfl⟩
  case tsymlink => exact ⟨.tsymlink _ _ _ _, rfl⟩
  case rreadlink => exact ⟨.rreadlink _, rfl⟩
  case tlink => exact ⟨.tlink _ _ _, rfl⟩
  case tmkdir => exact ⟨.tmkdir _ _ _ _, rfl⟩
  case trename => exact ⟨.trename _ _ _, rfl⟩
  case trenameat => exact ⟨.trenameat _ _ _ _, rfl⟩
  case tunlinkat => exact ⟨.tunlinkat _ _ _, rfl⟩

/-! ## Frames -/

theorem kind_ofDevice (h : Body.ofDevice message = some body) :
    body.kind = message.messageType := by
  cases message
  case rreaddir data =>
    rw [ofDevice_rreaddir] at h
    split at h
    · cases h
      rfl
    · cases h
  all_goals
    cases h
    rfl

theorem checkCounts_received (message : Message) (msize : Nat) :
    checkCounts message.received msize = checkCounts message msize := by
  obtain ⟨tag, body⟩ := message
  cases body <;> rfl

theorem opcodeOf_eq (kind : MessageName) : opcodeOf kind = kind.code.toNat := by
  cases kind <;> rfl

/-- The client writes the messages that the device has and writes, as the device does. -/
theorem encode_eq_ok {message : Message} {msize : UInt32} {bytes : List UInt8} :
    encode message { msize := some msize.toNat } = .ok bytes ↔
      ∃ frame, Message.ofDevice frame = some message ∧ frame.toBytes msize = .ok bytes := by
  have hsize : ∀ {len : Nat}, headerBytes + len < 2 ^ 32 →
      (checkDeclaredSize (.ofNat (headerBytes + len)) msize.toNat = .ok () ↔
        NineP.checkSize (UInt32.ofNat (NineP.headerLen + len)) msize = .ok ()) := by
    intro len hlen
    have htoNat : (UInt32.ofNat (NineP.headerLen + len)).toNat = headerBytes + len :=
      UInt32.toNat_ofNat_of_lt' hlen
    rw [← checkDeclaredSize_eq_ok, htoNat]
  have hcounts : ∀ {sent : NineP.Message}, Body.ofDevice sent = some message.body →
      (checkCounts message msize.toNat = .ok () ↔ NineP.checkCounts sent msize = .ok ()) := by
    intro sent hsent
    rw [← checkCounts_received]
    exact checkCounts_eq_ok ⟨message.body, hsent, rfl⟩
  unfold encode
  simp only [DecodeOptions.limit, Option.getD_some, except_bind_eq_ok, pure, Except.pure,
    Except.ok.injEq, NineP.Frame.toBytes_eq_ok, Message.ofDevice_eq_some]
  constructor
  · rintro ⟨_, htag, _, hcount, body, hbody, _, hdeclared, _, hwritten, _, hcode, _, hwtag, rfl⟩
    obtain ⟨sent, hsent⟩ := ofDevice_of_encodeBody hbody
    have hencoded := ((encodeBody_ofDevice hsent).1 hbody).2
    obtain ⟨tag, htagged, rfl⟩ := u16_eq_ok.1 hwtag
    obtain ⟨size, hsized, rfl⟩ := u32_eq_ok.1 hwritten
    obtain ⟨code, hcoded, rfl⟩ := u8_eq_ok.1 hcode
    have hkind : message.kind = sent.messageType := kind_ofDevice hsent
    rw [Number.ofNat_inj] at hsized hcoded
    have hlen : headerBytes + body.length < 2 ^ 32 := hsized ▸ size.toNat_lt
    have hsize' : size = UInt32.ofNat (NineP.headerLen + body.length) := by
      rw [← UInt32.ofNat_toNat (x := size), ← hsized]
      rfl
    have hcode' : code = sent.messageType.code := by
      rw [opcodeOf_eq, hkind] at hcoded
      exact (UInt8.toNat_inj.1 hcoded).symm
    rw [htagged, hkind] at htag
    refine ⟨{ tag, message := sent }, ⟨htagged, hsent⟩, body, hencoded, hlen,
      checkTag_eq_ok.1 htag, (hsize hlen).1 hdeclared, (hcounts hsent).1 hcount, ?_⟩
    rw [hsize', hcode']
    rfl
  · rintro ⟨frame, ⟨htagged, hsent⟩, body, hencoded, hlen, htag, hdeclared, hcount, rfl⟩
    have hkind : message.kind = frame.messageType := kind_ofDevice hsent
    have hdata := NineP.Message.counted_of_length hencoded (by omega)
    have htoNat : (UInt32.ofNat (NineP.headerLen + body.length)).toNat
        = headerBytes + body.length := UInt32.toNat_ofNat_of_lt' hlen
    have hbody := (encodeBody_ofDevice hsent).2 ⟨hdata, hencoded⟩
    refine ⟨(), ?_, (), (hcounts hsent).2 hcount, body, hbody, (), (hsize hlen).2 hdeclared, _,
      u32_eq_ok.2 ⟨_, congrArg Number.ofNat htoNat.symm, rfl⟩, _,
      u8_eq_ok.2 ⟨frame.messageType.code, ?_, rfl⟩, _, u16_eq_ok.2 ⟨_, htagged, rfl⟩, rfl⟩
    · rw [htagged, hkind]
      exact checkTag_eq_ok.2 htag
    · rw [opcodeOf_eq, hkind]

/-! ## The two codecs -/

theorem withoutBom_eq_self {text : String} :
    withoutBom text = text ↔ text.toList.head? ≠ some (Char.ofNat 0xFEFF) := by
  unfold withoutBom
  cases htext : text.toList with
  | nil => simp
  | cons c rest =>
    dsimp only [List.head?_cons]
    rw [ne_eq, Option.some.injEq]
    by_cases hc : c = Char.ofNat 0xFEFF
    · rw [if_pos hc]
      refine iff_of_false ?_ (not_not.2 hc)
      intro heq
      have hlen := congrArg (fun s : String => s.toList.length) heq
      simp only [String.toList_ofList, htext, length_cons] at hlen
      omega
    · rw [if_neg hc]
      exact iff_of_true rfl hc

theorem map_eq_self {f : α → α} {l : List α} : l.map f = l ↔ ∀ a ∈ l, f a = a := by
  induction l with
  | nil => simp
  | cons a l ih => rw [map_cons, List.cons.injEq, ih, forall_mem_cons]

theorem mapStrings_eq_self {f : String → String} :
    body.mapStrings f = body ↔ ∀ text ∈ body.strings, f text = text := by
  cases body
  case twalk fid newfid wnames =>
    rw [Body.mapStrings, Body.strings, Body.twalk.injEq, map_eq_self]
    exact ⟨fun h => h.2.2, fun h => ⟨rfl, rfl, h⟩⟩
  case rreaddir entries =>
    rw [Body.mapStrings, Body.strings, Body.rreaddir.injEq, map_eq_self, forall_mem_map]
    refine forall₂_congr fun entry _ => ?_
    obtain ⟨qid, offset, type, name⟩ := entry
    simp only [DirEntry.mk.injEq, true_and]
  all_goals simp [Body.mapStrings, Body.strings]

theorem received_eq_self {message : Message} : message.received = message ↔ message.Markless := by
  obtain ⟨tag, body⟩ := message
  unfold Message.received Message.Markless
  simp only [Message.mk.injEq, true_and, mapStrings_eq_self, withoutBom_eq_self]

/-- The codecs agree on a list of bytes exactly when it is not the encoding of a message one of
whose texts begins with a byte order mark, nor of an `Rreaddir` whose data are not entries. The
client reads back a message it has written exactly when no text of it begins with that mark. -/
theorem codecs_agree_iff (msize : UInt32) :
    (∀ bytes,
      (((∃ message, decodeExact bytes { msize := some msize.toNat } = .ok message) ↔
          ∃ frame, NineP.decodeExact bytes msize = .ok frame) ∧
        (∀ message frame, decodeExact bytes { msize := some msize.toNat } = .ok message →
          NineP.decodeExact bytes msize = .ok frame → Message.ofDevice frame = some message) ∧
        (∀ message, decodeExact bytes { msize := some msize.toNat } = .ok message →
          encode message { msize := some msize.toNat } = .ok bytes)) ↔
      ∀ frame : NineP.Frame, frame.toBytes msize = .ok bytes →
        ∃ message, Message.ofDevice frame = some message ∧ message.Markless) ∧
    ∀ message bytes, encode message { msize := some msize.toNat } = .ok bytes →
      (decodeExact bytes { msize := some msize.toNat } = .ok message ↔ message.Markless) := by
  refine ⟨fun bytes => ⟨?_, ?_⟩, fun message bytes hencode => ?_⟩
  · rintro ⟨haccepts, hsame, -⟩ frame hframe
    have hdevice := NineP.decodeExact_eq_ok.2 hframe
    obtain ⟨message, hmessage⟩ := haccepts.2 ⟨frame, hdevice⟩
    have hsent := hsame message frame hmessage hdevice
    obtain ⟨frame', sent, hdevice', hsent', rfl⟩ := decodeExact_eq_ok.1 hmessage
    -- what is read is what is sent, so the texts lose nothing
    cases hdevice.symm.trans hdevice'
    have hself : sent.received = sent := Option.some.inj (hsent.symm.trans hsent')
    rw [hself] at hsent
    exact ⟨sent, hsent, received_eq_self.1 hself⟩
  · intro hclean
    have hclient : ∀ frame, NineP.decodeExact bytes msize = .ok frame →
        ∃ message, Message.ofDevice frame = some message ∧
          decodeExact bytes { msize := some msize.toNat } = .ok message ∧
          encode message { msize := some msize.toNat } = .ok bytes := by
      intro frame hframe
      have hbytes := NineP.decodeExact_eq_ok.1 hframe
      obtain ⟨message, hmessage, hmarkless⟩ := hclean frame hbytes
      refine ⟨message, hmessage, ?_, encode_eq_ok.2 ⟨frame, hmessage, hbytes⟩⟩
      exact decodeExact_eq_ok.2 ⟨frame, message, hframe, hmessage,
        (received_eq_self.2 hmarkless).symm⟩
    refine ⟨⟨?_, ?_⟩, ?_, ?_⟩
    · rintro ⟨message, hmessage⟩
      obtain ⟨frame, -, hframe, -⟩ := decodeExact_eq_ok.1 hmessage
      exact ⟨frame, hframe⟩
    · rintro ⟨frame, hframe⟩
      obtain ⟨message, -, hmessage, -⟩ := hclient frame hframe
      exact ⟨message, hmessage⟩
    · intro message frame hmessage hframe
      obtain ⟨message', hsent, hmessage', -⟩ := hclient frame hframe
      cases hmessage.symm.trans hmessage'
      exact hsent
    · intro message hmessage
      obtain ⟨frame, -, hframe, -⟩ := decodeExact_eq_ok.1 hmessage
      obtain ⟨message', -, hmessage', hencode⟩ := hclient frame hframe
      cases hmessage.symm.trans hmessage'
      exact hencode
  · obtain ⟨frame, hsent, hbytes⟩ := encode_eq_ok.1 hencode
    have hdevice := NineP.decodeExact_eq_ok.2 hbytes
    rw [decodeExact_eq_ok, ← received_eq_self]
    constructor
    · rintro ⟨frame', sent, hdevice', hsent', hreceived⟩
      cases hdevice.symm.trans hdevice'
      cases hsent.symm.trans hsent'
      exact hreceived.symm
    · intro hself
      exact ⟨frame, message, hdevice, hsent, hself.symm⟩

theorem codecs_agree_readlink :
    encode ⟨.ofNat 1, .rreadlink "a"⟩ { msize := some (8192 : UInt32).toNat }
        = .ok [10, 0, 0, 0, 23, 1, 0, 1, 0, 0x61] ∧
      decodeExact [10, 0, 0, 0, 23, 1, 0, 1, 0, 0x61] { msize := some (8192 : UInt32).toNat }
        = .ok ⟨.ofNat 1, .rreadlink "a"⟩ := by
  have hencode : encode ⟨.ofNat 1, .rreadlink "a"⟩ { msize := some (8192 : UInt32).toNat }
      = .ok [10, 0, 0, 0, 23, 1, 0, 1, 0, 0x61] :=
    encode_eq_ok.2 ⟨⟨1, .rreadlink "a"⟩, rfl, rfl⟩
  exact ⟨hencode, ((codecs_agree_iff 8192).2 _ _ hencode).2 (by decide)⟩

/-- A link target that begins with a byte order mark: the device reads it, the client reads
another target, and writes that one back as other bytes. -/
theorem mark_is_dropped :
    NineP.decodeExact [13, 0, 0, 0, 23, 1, 0, 4, 0, 0xEF, 0xBB, 0xBF, 0x61] 8192
        = .ok ⟨1, .rreadlink (String.ofList [Char.ofNat 0xFEFF, 'a'])⟩ ∧
      decodeExact [13, 0, 0, 0, 23, 1, 0, 4, 0, 0xEF, 0xBB, 0xBF, 0x61]
          { msize := some (8192 : UInt32).toNat } = .ok ⟨.ofNat 1, .rreadlink "a"⟩ ∧
      encode ⟨.ofNat 1, .rreadlink "a"⟩ { msize := some (8192 : UInt32).toNat }
        = .ok [10, 0, 0, 0, 23, 1, 0, 1, 0, 0x61] := by
  have hdevice : NineP.decodeExact [13, 0, 0, 0, 23, 1, 0, 4, 0, 0xEF, 0xBB, 0xBF, 0x61] 8192
      = .ok ⟨1, .rreadlink (String.ofList [Char.ofNat 0xFEFF, 'a'])⟩ :=
    NineP.decodeExact_eq_ok.2 rfl
  refine ⟨hdevice, ?_, encode_eq_ok.2 ⟨⟨1, .rreadlink "a"⟩, rfl, rfl⟩⟩
  exact decodeExact_eq_ok.2 ⟨_, _, hdevice, rfl, by decide⟩

/-! ## From the client to the device -/

open NineP.FrameDecoder

theorem scan_written {msize : UInt32} {messages : List Message} {encoded : List (List UInt8)}
    (h : Forall₂ (fun m b => encode m { msize := some msize.toNat } = .ok b) messages encoded) :
    ∃ frames : List NineP.Frame, frames.map Message.ofDevice = messages.map some ∧
      Scan.scan (NineP.front msize) encoded.flatten = ⟨frames, .ok []⟩ := by
  induction h with
  | nil => exact ⟨[], rfl, Scan.scan_of_waits (NineP.front_of_short (by decide))⟩
  | @cons message bytes messages encoded hwritten _ ih =>
    obtain ⟨frames, hframes, hscan⟩ := ih
    obtain ⟨frame, hframe, hbytes⟩ := encode_eq_ok.1 hwritten
    obtain ⟨hlen, hsize, hdeclared, hrest⟩ :=
      NineP.decodeExact_checks.1 (NineP.decodeExact_eq_ok.2 hbytes)
    have hfront : NineP.front msize bytes = .item frame [] := by
      rw [NineP.front_of_complete hlen hsize (Nat.le_of_eq hdeclared), hdeclared, slice,
        ← length_drop, take_length, hrest]
      exact congrArg _ (drop_length ..)
    refine ⟨frame :: frames, by rw [map_cons, map_cons, hframe, hframes], ?_⟩
    have hstable := NineP.front_stable msize
    rw [flatten_cons, Scan.scan_of_item hstable (hstable.item_append _ hfront), nil_append, hscan]

/-- However what the client writes is cut on its way, the device reads those messages and no
others, and the stream ends well. -/
theorem device_reads_what_client_writes (msize : UInt32) {messages : List Message}
    {encoded chunks : List (List UInt8)}
    (h : Forall₂ (fun m b => encode m { msize := some msize.toNat } = .ok b) messages encoded)
    (hcut : chunks.flatten = encoded.flatten) :
    let read := (withMsize msize).readAll chunks
    read.1.map Message.ofDevice = messages.map some ∧ read.2.fin.1 = .ok () := by
  obtain ⟨frames, hframes, hscan⟩ := scan_written h
  have hread := readAll_follows (holds_withMsize msize) chunks
  rw [nil_append, hcut, show (withMsize msize).msize = msize from rfl, hscan] at hread
  exact ⟨hread.1 ▸ hframes, hread.2.2.fin⟩

/-- Two messages in three pieces, the last two of which share the second message. -/
theorem device_reads_cut_messages :
    let read := (withMsize 8192).readAll
      [[10, 0, 0], [0, 23, 1, 0, 1, 0, 0x61, 11, 0, 0, 0, 120], [2, 0, 7, 0, 0, 0]]
    read.1.map Message.ofDevice =
        [some ⟨.ofNat 1, .rreadlink "a"⟩, some ⟨.ofNat 2, .tclunk (.ofNat 7)⟩] ∧
      read.2.fin.1 = .ok () :=
  device_reads_what_client_writes 8192
    (.cons (encode_eq_ok.2 ⟨⟨1, .rreadlink "a"⟩, rfl, rfl⟩)
      (.cons (encode_eq_ok.2 ⟨⟨2, .tclunk 7⟩, rfl, rfl⟩) .nil)) rfl

end AgentUplink.Client
