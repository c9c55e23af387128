import AgentUplink.NineP.Wire

/-!
# Encoding and decoding one 9P message

A message is `size[4] type[1] tag[2]` and a body laid out by its type. Decoding a body
and encoding it are inverse: what is decoded was encoded, byte for byte, and what was
encoded is decoded again.
-/

open Fallible Reader

namespace AgentUplink.NineP

open List

/-! ## Tables -/

namespace MessageType

def all : List MessageType :=
  [rlerror, tlopen, rlopen, tlcreate, rlcreate, tsymlink, rsymlink, trename, rrename, treadlink,
    rreadlink, tgetattr, rgetattr, tsetattr, rsetattr, treaddir, rreaddir, tlink, rlink, tmkdir,
    rmkdir, trenameat, rrenameat, tunlinkat, runlinkat, tversion, rversion, tattach, rattach,
    tflush, rflush, twalk, rwalk, tread, rread, twrite, rwrite, tclunk, rclunk, tremove, rremove]

/-- The types that 9P2000.L or plain 9P2000 define and this profile leaves out. -/
def knownOutsideProfile : List UInt8 :=
  [8, 9, 18, 19, 30, 31, 32, 33, 50, 51, 52, 53, 54, 55, 102, 103, 107, 112, 113, 114, 115, 124,
    125, 126, 127]

def fromCode (code : UInt8) : Except CodecError MessageType :=
  match all.find? fun candidate => candidate.code = code with
  | some type => .ok type
  | none =>
    if code ∈ knownOutsideProfile then .error (.messageTypeNotInProfile code)
    else .error (.unknownMessageType code)

theorem mem_all (type : MessageType) : type ∈ all := by
  cases type <;> decide

theorem code_injective {type type' : MessageType} (h : type.code = type'.code) : type = type' := by
  have hall : ∀ a ∈ all, ∀ b ∈ all, a.code = b.code → a = b := by decide
  exact hall type (mem_all type) type' (mem_all type') h

theorem fromCode_eq_ok {code : UInt8} {type : MessageType} :
    fromCode code = .ok type ↔ code = type.code := by
  unfold fromCode
  constructor
  · intro h
    split at h
    · next found hfound =>
      cases h
      have hcode := List.find?_some hfound
      simp only [decide_eq_true_eq] at hcode
      exact hcode.symm
    · split_ifs at h
  · intro h
    subst h
    cases hfind : all.find? fun candidate => candidate.code = type.code with
    | none => simpa using List.find?_eq_none.1 hfind type (mem_all type)
    | some found =>
      have hcode : found.code = type.code := by simpa using List.find?_some hfind
      rw [code_injective hcode]

end MessageType

namespace FsErrorCode

def errno : FsErrorCode → UInt32
  | enoent => 2
  | eacces => 13
  | eperm => 1
  | erofs => 30
  | eexist => 17
  | enotdir => 20
  | eisdir => 21
  | enotempty => 39
  | eloop => 40
  | exdev => 18
  | enotsup => 95
  | efbig => 27
  | enametoolong => 36
  | einval => 22

def all : List FsErrorCode :=
  [enoent, eacces, eperm, erofs, eexist, enotdir, eisdir, enotempty, eloop, exdev, enotsup, efbig,
    enametoolong, einval]

def fromErrno (errno : UInt32) : Except CodecError FsErrorCode :=
  match all.find? fun candidate => candidate.errno = errno with
  | some code => .ok code
  | none => .error .errnoNotInVocabulary

theorem fromErrno_eq_ok {errno : UInt32} {code : FsErrorCode} :
    fromErrno errno = .ok code ↔ errno = code.errno := by
  unfold fromErrno
  constructor
  · intro h
    split at h
    · next found hfound =>
      cases h
      have hcode := List.find?_some hfound
      simp only [decide_eq_true_eq] at hcode
      exact hcode.symm
    · cases h
  · intro h
    subst h
    cases code <;> decide

end FsErrorCode

/-! ## Bodies -/

namespace Writer

def strings (field : StringField) : List String → Except CodecError (List UInt8)
  | [] => .ok []
  | value :: values => do
    let first ← string field value
    let rest ← strings field values
    return first ++ rest

theorem strings_eq_ok {field : StringField} {values : List String} {bytes : List UInt8} :
    strings field values = .ok bytes ↔
      (∀ value ∈ values, (Utf8.bytes value).length < 2 ^ 16) ∧ values.flatMap text = bytes := by
  induction values generalizing bytes with
  | nil => simp [strings]
  | cons value values ih =>
    rw [strings]
    simp only [except_bind_eq_ok, string_eq_ok, ih, pure, Except.pure, Except.ok.injEq]
    simp [and_assoc]

def attributes (attributes : Attributes) : List UInt8 :=
  u64 attributes.valid ++ qid attributes.qid ++ u32 attributes.mode ++ u32 attributes.uid
    ++ u32 attributes.gid
    ++ [attributes.nlink, attributes.rdev, attributes.size, attributes.blksize, attributes.blocks,
        attributes.atimeSec, attributes.atimeNsec, attributes.mtimeSec, attributes.mtimeNsec,
        attributes.ctimeSec, attributes.ctimeNsec, attributes.btimeSec, attributes.btimeNsec,
        attributes.generation, attributes.dataVersion].flatMap u64

end Writer

namespace Message

open Writer in
def encodeBody : Message → Except CodecError (List UInt8)
  | rlerror code => .ok (u32 code.errno)
  | tversion msize version | rversion msize version => do
    let version ← string .version version
    return u32 msize ++ version
  | tattach fid afid uname aname nUname => do
    let uname ← string .uname uname
    let aname ← string .aname aname
    return u32 fid ++ u32 afid ++ uname ++ aname ++ u32 nUname
  | rattach value | rsymlink value | rmkdir value => .ok (qid value)
  | tflush oldtag => .ok (u16 oldtag)
  | rflush | rsetattr | rlink | rrename | rrenameat | runlinkat | rclunk | rremove => .ok []
  | twalk fid newfid names =>
    if names.length > maxWalkNames then .error .tooManyWalkNames
    else do
      let written ← strings .walkName names
      return u32 fid ++ u32 newfid ++ u16 (UInt16.ofNat names.length) ++ written
  | rwalk qids =>
    if qids.length > maxWalkNames then .error .tooManyWalkNames
    else .ok (u16 (UInt16.ofNat qids.length) ++ qids.flatMap qid)
  | tlopen fid flags => .ok (u32 fid ++ u32 flags)
  | rlopen value iounit | rlcreate value iounit => .ok (qid value ++ u32 iounit)
  | tlcreate fid name flags mode gid => do
    let name ← string .name name
    return u32 fid ++ name ++ u32 flags ++ u32 mode ++ u32 gid
  | tsymlink fid name target gid => do
    let name ← string .name name
    let target ← string .symlinkTarget target
    return u32 fid ++ name ++ target ++ u32 gid
  | treadlink fid | tclunk fid | tremove fid => .ok (u32 fid)
  | rreadlink target => string .linkTarget target
  | tgetattr fid requestMask => .ok (u32 fid ++ u64 requestMask)
  | rgetattr value => .ok (attributes value)
  | tsetattr fid valid mode uid gid size atimeSec atimeNsec mtimeSec mtimeNsec =>
    .ok (u32 fid ++ u32 valid ++ u32 mode ++ u32 uid ++ u32 gid ++ u64 size ++ u64 atimeSec
      ++ u64 atimeNsec ++ u64 mtimeSec ++ u64 mtimeNsec)
  | treaddir fid offset count | tread fid offset count =>
    .ok (u32 fid ++ u64 offset ++ u32 count)
  | rreaddir data | rread data => .ok (counted data)
  | tlink dfid fid name => do
    let name ← string .name name
    return u32 dfid ++ u32 fid ++ name
  | tmkdir dfid name mode gid => do
    let name ← string .name name
    return u32 dfid ++ name ++ u32 mode ++ u32 gid
  | trename fid dfid name => do
    let name ← string .name name
    return u32 fid ++ u32 dfid ++ name
  | trenameat olddirfid oldname newdirfid newname => do
    let oldname ← string .oldName oldname
    let newname ← string .newName newname
    return u32 olddirfid ++ oldname ++ u32 newdirfid ++ newname
  | tunlinkat dirfid name flags => do
    let name ← string .name name
    return u32 dirfid ++ name ++ u32 flags
  | twrite fid offset data => .ok (u32 fid ++ u64 offset ++ counted data)
  | rwrite count => .ok (u32 count)

end Message

namespace Reader

def decodeAttributes : FieldReader Attributes := do
  let valid ← u64
  let qid ← qid
  let mode ← u32
  let uid ← u32
  let gid ← u32
  let nlink ← u64
  let rdev ← u64
  let size ← u64
  let blksize ← u64
  let blocks ← u64
  let atimeSec ← u64
  let atimeNsec ← u64
  let mtimeSec ← u64
  let mtimeNsec ← u64
  let ctimeSec ← u64
  let ctimeNsec ← u64
  let btimeSec ← u64
  let btimeNsec ← u64
  let generation ← u64
  let dataVersion ← u64
  return { valid, qid, mode, uid, gid, nlink, rdev, size, blksize, blocks, atimeSec, atimeNsec,
           mtimeSec, mtimeNsec, ctimeSec, ctimeNsec, btimeSec, btimeNsec, generation, dataVersion }

/-- A 16-bit count of at most `maxWalkNames`, and that many values. -/
def walkList {α : Type} (r : FieldReader α) : FieldReader (List α) := do
  let count ← u16
  if count.toNat > maxWalkNames then throw .tooManyWalkNames
  else times r count.toNat

def fields : MessageType → FieldReader Message
  | .rlerror => do
    let errno ← u32
    let code ← FsErrorCode.fromErrno errno
    return .rlerror code
  | .tversion => return .tversion (← u32) (← string .version)
  | .rversion => return .rversion (← u32) (← string .version)
  | .tattach => return .tattach (← u32) (← u32) (← string .uname) (← string .aname) (← u32)
  | .rattach => return .rattach (← qid)
  | .tflush => return .tflush (← u16)
  | .rflush => return .rflush
  | .twalk => return .twalk (← u32) (← u32) (← walkList (string .walkName))
  | .rwalk => return .rwalk (← walkList qid)
  | .tlopen => return .tlopen (← u32) (← u32)
  | .rlopen => return .rlopen (← qid) (← u32)
  | .tlcreate => return .tlcreate (← u32) (← string .name) (← u32) (← u32) (← u32)
  | .rlcreate => return .rlcreate (← qid) (← u32)
  | .tsymlink => return .tsymlink (← u32) (← string .name) (← string .symlinkTarget) (← u32)
  | .rsymlink => return .rsymlink (← qid)
  | .treadlink => return .treadlink (← u32)
  | .rreadlink => return .rreadlink (← string .linkTarget)
  | .tgetattr => return .tgetattr (← u32) (← u64)
  | .rgetattr => return .rgetattr (← decodeAttributes)
  | .tsetattr =>
    return .tsetattr (← u32) (← u32) (← u32) (← u32) (← u32) (← u64) (← u64) (← u64) (← u64)
      (← u64)
  | .rsetattr => return .rsetattr
  | .treaddir => return .treaddir (← u32) (← u64) (← u32)
  | .rreaddir => return .rreaddir (← readCounted)
  | .tlink => return .tlink (← u32) (← u32) (← string .name)
  | .rlink => return .rlink
  | .tmkdir => return .tmkdir (← u32) (← string .name) (← u32) (← u32)
  | .rmkdir => return .rmkdir (← qid)
  | .trename => return .trename (← u32) (← u32) (← string .name)
  | .rrename => return .rrename
  | .trenameat => return .trenameat (← u32) (← string .oldName) (← u32) (← string .newName)
  | .rrenameat => return .rrenameat
  | .tunlinkat => return .tunlinkat (← u32) (← string .name) (← u32)
  | .runlinkat => return .runlinkat
  | .tread => return .tread (← u32) (← u64) (← u32)
  | .rread => return .rread (← readCounted)
  | .twrite => return .twrite (← u32) (← u64) (← readCounted)
  | .rwrite => return .rwrite (← u32)
  | .tclunk => return .tclunk (← u32)
  | .rclunk => return .rclunk
  | .tremove => return .tremove (← u32)
  | .rremove => return .rremove

/-! ## Readers and writers of bodies agree -/

theorem inverts_walkList {α : Type} {r : FieldReader α} {w : α → List UInt8} {valid : α → Prop}
    (h : Inverts r w valid) :
    Inverts (walkList r)
      (fun values => Writer.u16 (UInt16.ofNat values.length) ++ values.flatMap w)
      fun values => values.length ≤ maxWalkNames ∧ ∀ value ∈ values, valid value := by
  apply inverts_of_run
  intro input values rest
  unfold walkList
  simp only [run_bind_eq_ok, u16_eq_ok]
  constructor
  · rintro ⟨count, _, rfl, hvalues⟩
    split_ifs at hvalues with hcount
    · cases hvalues
    · obtain ⟨⟨hlen, hvalid⟩, rfl⟩ := (h.times _).run_eq_ok.1 hvalues
      refine ⟨⟨by omega, hvalid⟩, ?_⟩
      rw [hlen, UInt16.ofNat_toNat, append_assoc]
  · rintro ⟨⟨hlen, hvalid⟩, rfl⟩
    have hcount : (UInt16.ofNat values.length).toNat = values.length :=
      UInt16.toNat_ofNat_of_lt' (lt_of_le_of_lt hlen (by decide))
    refine ⟨_, _, append_assoc _ _ _, ?_⟩
    rw [hcount, if_neg (by omega)]
    exact (h.times _).run_eq_ok.2 ⟨⟨rfl, hvalid⟩, rfl⟩

theorem inverts_decodeAttributes :
    Inverts decodeAttributes Writer.attributes fun _ => True where
  read_write value rest _ := by
    unfold decodeAttributes
    simp only [Writer.attributes, flatMap_cons, flatMap_nil, append_assoc,
      inverts_u64.run_bind trivial, inverts_u32.run_bind trivial, inverts_qid.run_bind trivial]
    rfl
  write_read input value rest h := by
    unfold decodeAttributes at h
    simp only [run_bind_eq_ok, u64_eq_ok, u32_eq_ok, qid_eq_ok, run_pure_eq_ok] at h
    refine ⟨trivial, ?_⟩
    casesm* _ ∧ _, ∃ _, _
    subst_vars
    simp [Writer.attributes]

end Reader

/-- The whole body has to be read. -/
def Message.decodeBody (type : MessageType) (body : List UInt8) : Except CodecError Message :=
  complete .trailingBytes (Reader.fields type) body

namespace Message

open Reader

/-- The data of a message is not too long for its 32-bit count. -/
def Counted : Message → Prop
  | rreaddir data | rread data | twrite _ _ data => data.length < 2 ^ 32
  | _ => True

theorem encodeBody_of_decodeBody {type : MessageType} {body : List UInt8} {message : Message}
    (h : decodeBody type body = .ok message) :
    message.messageType = type ∧ message.encodeBody = .ok body := by
  unfold decodeBody at h
  rw [complete_eq_ok] at h
  cases type
  case twalk =>
    simp only [fields, run_bind_eq_ok, run_pure_eq_ok, u32_eq_ok,
      (inverts_walkList (inverts_string .walkName)).run_eq_ok] at h
    obtain ⟨fid, _, rfl, newfid, _, rfl, names, _, ⟨⟨hlen, hfits⟩, rfl⟩, rfl, rfl⟩ := h
    refine ⟨rfl, ?_⟩
    rw [encodeBody, if_neg (not_lt.2 hlen), Writer.strings_eq_ok.2 ⟨hfits, rfl⟩, except_ok_bind]
    simp [pure, Except.pure]
  case rwalk =>
    simp only [fields, run_bind_eq_ok, run_pure_eq_ok,
      (inverts_walkList inverts_qid).run_eq_ok] at h
    obtain ⟨qids, _, ⟨⟨hlen, -⟩, rfl⟩, rfl, rfl⟩ := h
    refine ⟨rfl, ?_⟩
    rw [encodeBody, if_neg (not_lt.2 hlen), append_nil]
  -- every other body is the fields of its type one after another
  all_goals
    simp only [fields, run_bind_eq_ok, run_pure_eq_ok, run_lift_eq_ok, u16_eq_ok, u32_eq_ok,
      u64_eq_ok, qid_eq_ok, string_eq_ok, readCounted_eq_ok, inverts_decodeAttributes.run_eq_ok,
      FsErrorCode.fromErrno_eq_ok] at h
    casesm* _ ∧ _, ∃ _, _
    subst_vars
    simp only [encodeBody, messageType, Writer.string_of_fits, except_ok_bind,
      append_assoc, append_nil, pure, Except.pure, true_and, *]

theorem decodeBody_of_encodeBody {body : List UInt8} {message : Message}
    (h : message.encodeBody = .ok body) (hdata : message.Counted) :
    decodeBody message.messageType body = .ok message := by
  unfold decodeBody
  rw [complete_eq_ok, ← append_nil body]
  cases message <;>
    simp only [encodeBody, ite_error_eq_ok, except_bind_eq_ok, Writer.string_eq_ok,
      Writer.strings_eq_ok, pure, Except.pure, Except.ok.injEq] at h
  case rlerror code =>
    subst h
    simp only [messageType, fields, inverts_u32.run_bind trivial, FsErrorCode.fromErrno_eq_ok.2 rfl]
    rfl
  case twalk fid newfid names =>
    obtain ⟨hlen, _, ⟨hfits, rfl⟩, rfl⟩ := h
    simp only [messageType, fields, append_assoc, inverts_u32.run_bind trivial]
    rw [← append_assoc, (inverts_walkList (inverts_string .walkName)).run_bind
      ⟨Nat.le_of_not_lt hlen, hfits⟩]
    rfl
  case rwalk qids =>
    obtain ⟨hlen, rfl⟩ := h
    simp only [messageType, fields]
    rw [(inverts_walkList inverts_qid).run_bind ⟨Nat.le_of_not_lt hlen, fun _ _ => trivial⟩]
    rfl
  case rreaddir data | rread data =>
    subst h
    simp only [messageType, fields, inverts_readCounted.run_bind hdata]
    rfl
  case twrite fid offset data =>
    subst h
    simp only [messageType, fields, append_assoc, inverts_u32.run_bind trivial,
      inverts_u64.run_bind trivial, inverts_readCounted.run_bind hdata]
    rfl
  -- every other body is a sequence of fields that cannot fail to be read, or of texts
  all_goals try casesm* _ ∧ _, ∃ _, _
  all_goals
    subst_vars
    simp only [messageType, fields, append_assoc, inverts_u32.run_bind trivial,
      inverts_u16.run_bind trivial, inverts_u64.run_bind trivial, inverts_qid.run_bind trivial,
      inverts_decodeAttributes.run_bind trivial, (inverts_string _).run_bind, *]
    rfl

end Message

end AgentUplink.NineP
