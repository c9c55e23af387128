import AgentUplink.Client.Codec
import AgentUplink.NineP.Framing
import AgentUplink.NineP.Readdir

/-!
# What the two 9P codecs decode

What the client's codec reads from a list of bytes, next to what the device's reads. The two
agree but for two things: the client drops a byte order mark in front of every text, and it reads
the entries of an `Rreaddir` where the device leaves them as they are.
-/

open Bytes Fallible Reader

namespace AgentUplink.Client

open List

/-! ## Messages of the device -/

namespace Qid

def ofDevice (qid : NineP.Qid) : Qid where
  type := .ofNat qid.kind.bits.toNat
  version := .ofNat qid.version.toNat
  path := qid.path.toNat

end Qid

def DirEntry.ofDevice (entry : NineP.DirEntry) : DirEntry where
  qid := .ofDevice entry.qid
  offset := entry.offset.toNat
  type := .ofNat entry.direntType.toNat
  name := entry.name

def Attributes.ofDevice (attributes : NineP.Attributes) : Attributes where
  valid := attributes.valid.toNat
  qid := .ofDevice attributes.qid
  mode := .ofNat attributes.mode.toNat
  uid := .ofNat attributes.uid.toNat
  gid := .ofNat attributes.gid.toNat
  nlink := attributes.nlink.toNat
  rdev := attributes.rdev.toNat
  size := attributes.size.toNat
  blksize := attributes.blksize.toNat
  blocks := attributes.blocks.toNat
  atimeSec := attributes.atimeSec.toNat
  atimeNsec := attributes.atimeNsec.toNat
  mtimeSec := attributes.mtimeSec.toNat
  mtimeNsec := attributes.mtimeNsec.toNat
  ctimeSec := attributes.ctimeSec.toNat
  ctimeNsec := attributes.ctimeNsec.toNat
  btimeSec := attributes.btimeSec.toNat
  btimeNsec := attributes.btimeNsec.toNat
  gen := attributes.generation.toNat
  dataVersion := attributes.dataVersion.toNat

namespace Body

/-- The same message as the client has it. There is none for an `Rreaddir` whose data are not
entries. -/
def ofDevice : NineP.Message → Option Body
  | .rlerror code => some (.rlerror (.ofNat code.errno.toNat))
  | .tversion msize version => some (.tversion (.ofNat msize.toNat) version)
  | .rversion msize version => some (.rversion (.ofNat msize.toNat) version)
  | .tattach fid afid uname aname nUname =>
    some (.tattach (.ofNat fid.toNat) (.ofNat afid.toNat) uname aname (.ofNat nUname.toNat))
  | .rattach qid => some (.rattach (.ofDevice qid))
  | .tflush oldtag => some (.tflush (.ofNat oldtag.toNat))
  | .rflush => some .rflush
  | .twalk fid newfid names =>
    some (.twalk (.ofNat fid.toNat) (.ofNat newfid.toNat) names)
  | .rwalk qids => some (.rwalk (qids.map .ofDevice))
  | .tlopen fid flags => some (.tlopen (.ofNat fid.toNat) (.ofNat flags.toNat))
  | .rlopen qid iounit => some (.rlopen (.ofDevice qid) (.ofNat iounit.toNat))
  | .tlcreate fid name flags mode gid =>
    some (.tlcreate (.ofNat fid.toNat) name (.ofNat flags.toNat) (.ofNat mode.toNat)
      (.ofNat gid.toNat))
  | .rlcreate qid iounit => some (.rlcreate (.ofDevice qid) (.ofNat iounit.toNat))
  | .tsymlink fid name target gid =>
    some (.tsymlink (.ofNat fid.toNat) name target (.ofNat gid.toNat))
  | .rsymlink qid => some (.rsymlink (.ofDevice qid))
  | .treadlink fid => some (.treadlink (.ofNat fid.toNat))
  | .rreadlink target => some (.rreadlink target)
  | .tgetattr fid requestMask => some (.tgetattr (.ofNat fid.toNat) requestMask.toNat)
  | .rgetattr attributes => some (.rgetattr (.ofDevice attributes))
  | .tsetattr fid valid mode uid gid size atimeSec atimeNsec mtimeSec mtimeNsec =>
    some (.tsetattr (.ofNat fid.toNat) (.ofNat valid.toNat) (.ofNat mode.toNat)
      (.ofNat uid.toNat) (.ofNat gid.toNat) size.toNat atimeSec.toNat atimeNsec.toNat
      mtimeSec.toNat mtimeNsec.toNat)
  | .rsetattr => some .rsetattr
  | .treaddir fid offset count =>
    some (.treaddir (.ofNat fid.toNat) offset.toNat (.ofNat count.toNat))
  | .rreaddir data =>
    match NineP.parseEntries data with
    | .ok entries => some (.rreaddir (entries.map .ofDevice))
    | .error _ => none
  | .tlink dfid fid name => some (.tlink (.ofNat dfid.toNat) (.ofNat fid.toNat) name)
  | .rlink => some .rlink
  | .tmkdir dfid name mode gid =>
    some (.tmkdir (.ofNat dfid.toNat) name (.ofNat mode.toNat) (.ofNat gid.toNat))
  | .rmkdir qid => some (.rmkdir (.ofDevice qid))
  | .trename fid dfid name => some (.trename (.ofNat fid.toNat) (.ofNat dfid.toNat) name)
  | .rrename => some .rrename
  | .trenameat olddirfid oldname newdirfid newname =>
    some (.trenameat (.ofNat olddirfid.toNat) oldname (.ofNat newdirfid.toNat) newname)
  | .rrenameat => some .rrenameat
  | .tunlinkat dirfid name flags =>
    some (.tunlinkat (.ofNat dirfid.toNat) name (.ofNat flags.toNat))
  | .runlinkat => some .runlinkat
  | .tread fid offset count => some (.tread (.ofNat fid.toNat) offset.toNat (.ofNat count.toNat))
  | .rread data => some (.rread data)
  | .twrite fid offset data => some (.twrite (.ofNat fid.toNat) offset.toNat data)
  | .rwrite count => some (.rwrite (.ofNat count.toNat))
  | .tclunk fid => some (.tclunk (.ofNat fid.toNat))
  | .rclunk => some .rclunk
  | .tremove fid => some (.tremove (.ofNat fid.toNat))
  | .rremove => some .rremove

def strings : Body → List String
  | tversion _ version | rversion _ version => [version]
  | tattach _ _ uname aname _ => [uname, aname]
  | twalk _ _ wnames => wnames
  | tlcreate _ name _ _ _ => [name]
  | tsymlink _ name symtgt _ => [name, symtgt]
  | rreadlink target => [target]
  | rreaddir entries => entries.map DirEntry.name
  | tlink _ _ name => [name]
  | tmkdir _ name _ _ => [name]
  | trename _ _ name => [name]
  | trenameat _ oldname _ newname => [oldname, newname]
  | tunlinkat _ name _ => [name]
  | _ => []

def mapStrings (f : String → String) : Body → Body
  | tversion msize version => .tversion msize (f version)
  | rversion msize version => .rversion msize (f version)
  | tattach fid afid uname aname nUname => .tattach fid afid (f uname) (f aname) nUname
  | twalk fid newfid wnames => .twalk fid newfid (wnames.map f)
  | tlcreate fid name flags mode gid => .tlcreate fid (f name) flags mode gid
  | tsymlink fid name symtgt gid => .tsymlink fid (f name) (f symtgt) gid
  | rreadlink target => .rreadlink (f target)
  | rreaddir entries => .rreaddir (entries.map fun entry => { entry with name := f entry.name })
  | tlink dfid fid name => .tlink dfid fid (f name)
  | tmkdir dfid name mode gid => .tmkdir dfid (f name) mode gid
  | trename fid dfid name => .trename fid dfid (f name)
  | trenameat olddirfid oldname newdirfid newname =>
    .trenameat olddirfid (f oldname) newdirfid (f newname)
  | tunlinkat dirfid name flags => .tunlinkat dirfid (f name) flags
  | body => body

end Body

def Message.ofDevice (frame : NineP.Frame) : Option Message :=
  (Body.ofDevice frame.message).map fun body => { tag := .ofNat frame.tag.toNat, body }

/-- No text of the message begins with a byte order mark. -/
def Message.Markless (message : Message) : Prop :=
  ∀ text ∈ message.body.strings, text.toList.head? ≠ some (Char.ofNat 0xFEFF)

instance (message : Message) : Decidable message.Markless :=
  inferInstanceAs (Decidable (∀ text ∈ message.body.strings, _))

/-! ## Numbers -/

namespace Number

@[simp] theorem toNat_ofNat (n : Nat) : (ofNat n).toNat = n := rfl

theorem ofNat_inj {n m : Nat} : ofNat n = ofNat m ↔ n = m :=
  ⟨fun h => congrArg toNat h, fun h => congrArg ofNat h⟩

theorem above_ofNat {n bound : Nat} : (ofNat n).above bound = true ↔ bound < n := by
  simp only [ofNat, above, decide_eq_true_eq, Nat.cast_lt]

theorem below_ofNat {n bound : Nat} : (ofNat n).below bound = true ↔ n < bound := by
  simp only [ofNat, below, decide_eq_true_eq, Nat.cast_lt]

theorem unsigned_iff {value : Number} {bound : Nat} :
    (¬ (¬ value.isInteger = true ∨ value.below 0 = true ∨ value.above bound = true)) ↔
      ∃ n, n ≤ bound ∧ value = ofNat n := by
  constructor
  · intro h
    obtain ⟨hint, hrange⟩ := not_or.1 h
    obtain ⟨hneg, habove⟩ := not_or.1 hrange
    rw [not_not] at hint
    cases value with
    | finite q =>
      simp only [isInteger, decide_eq_true_eq] at hint
      simp only [below, Nat.cast_zero, decide_eq_true_eq, not_lt] at hneg
      simp only [above, decide_eq_true_eq, not_lt] at habove
      have hq : q = (q.num.toNat : ℚ) := by
        have hnum : (q.num.toNat : Int) = q.num := Int.toNat_of_nonneg (Rat.num_nonneg.2 hneg)
        rw [← Int.cast_natCast, hnum]
        exact ((Rat.den_eq_one_iff q).1 hint).symm
      refine ⟨q.num.toNat, ?_, ?_⟩
      · rw [hq] at habove
        exact Nat.cast_le.1 habove
      · rw [ofNat, ← hq]
    | infinite | negativeInfinite | nan => cases hint
  · rintro ⟨n, hn, rfl⟩ (hint | hneg | habove)
    · exact hint (by simp [isInteger, ofNat])
    · exact Nat.not_lt_zero n (below_ofNat.1 hneg)
    · exact absurd (above_ofNat.1 habove) (not_lt.2 hn)

end Number

/-! ## Reading -/

section Fields

variable {α β : Type} {S : α → β → Prop} {field : String}

/-- An unsigned field that both sides read off the same bytes. -/
theorem mirrors_fixed {ν ν' : Type} {width : Nat} {read : Nat → ν} {read' : Nat → ν'} {f : ν → ν'}
    (hread : ∀ m, m < 256 ^ width → read' m = f (read m)) (missing : NineP.CodecError)
    (missing' : NinepError) :
    Mirrors (fun n v => v = f n) ((fun bytes => read (ofLeBytes bytes)) <$> take missing width)
      ((fun bytes => read' (ofLeBytes bytes)) <$> take missing' width) :=
  mirrors_take fun l hl => hread _ (hl ▸ ofLeBytes_lt l)

theorem mirrors_u8 : Mirrors (fun n v => v = .ofNat n.toNat) NineP.Reader.u8 (Reader.u8 field) :=
  mirrors_fixed (fun _ hm => by rw [UInt8.toNat_ofNat_of_lt' hm]) _ _

theorem mirrors_u16 : Mirrors (fun n v => v = .ofNat n.toNat) NineP.Reader.u16 (Reader.u16 field) :=
  mirrors_fixed (fun _ hm => by rw [UInt16.toNat_ofNat_of_lt' hm]) _ _

theorem mirrors_u32 : Mirrors (fun n v => v = .ofNat n.toNat) NineP.Reader.u32 (Reader.u32 field) :=
  mirrors_fixed (fun _ hm => by rw [UInt32.toNat_ofNat_of_lt' hm]) _ _

theorem mirrors_u64 :
    Mirrors (fun n v => v = (n.toNat : Int)) NineP.Reader.u64 (Reader.u64 field) :=
  mirrors_fixed (fun _ hm => by rw [UInt64.toNat_ofNat_of_lt' hm]) _ _

/-- A text that begins with a byte order mark loses it. -/
theorem mirrors_string {stringField : NineP.StringField} :
    Mirrors (fun text text' => text' = withoutBom text) (NineP.Reader.string stringField)
      (Reader.string field) := by
  refine mirrors_u16.bind_eq fun len => ?_
  refine (mirrors_take_self NineP.CodecError.truncatedBody
    (⟨.truncatedBody, field⟩ : NinepError) len.toNat).bind ?_
  rintro _ bytes rfl
  unfold textDecode
  cases Utf8.ofBytes? bytes with
  | none => exact ⟨nofun, nofun⟩
  | some text => exact mirrors_pure rfl

theorem checkQid_eq_ok {type : UInt8} :
    checkQid (.ofNat type.toNat) field = .ok () ↔ ∃ kind : NineP.QidKind, type = kind.bits := by
  have hmem : Number.ofNat type.toNat ∈ qidTypes ↔ type = 0x00 ∨ type = 0x02 ∨ type = 0x80 := by
    simp only [qidTypes, qtfile, qtsymlink, qtdir, mem_cons, not_mem_nil, or_false,
      Number.ofNat_inj, ← UInt8.toNat_inj]
    rfl
  unfold checkQid fail
  rw [ite_error_ok, not_not, hmem, eq_self, and_true]
  constructor
  · rintro (rfl | rfl | rfl)
    · exact ⟨.file, rfl⟩
    · exact ⟨.symlink, rfl⟩
    · exact ⟨.directory, rfl⟩
  · rintro ⟨kind, rfl⟩
    cases kind <;> decide

theorem mirrors_qid :
    Mirrors (fun qid qid' => qid' = Qid.ofDevice qid) NineP.Reader.qid (readQid field) := by
  refine mirrors_u8.bind_eq fun type => ?_
  refine Mirrors.bind (R := fun kind _ => type = kind.bits) (mirrors_lift ?_ ?_) ?_
  · intro kind hkind
    have hbits := NineP.QidKind.fromBits_eq_ok.1 hkind
    exact ⟨(), hbits, checkQid_eq_ok.2 ⟨kind, hbits⟩⟩
  · intro _ hcheck
    obtain ⟨kind, hbits⟩ := checkQid_eq_ok.1 hcheck
    exact ⟨kind, hbits, NineP.QidKind.fromBits_eq_ok.2 hbits⟩
  · rintro kind _ rfl
    exact mirrors_u32.bind_eq fun version => mirrors_u64.bind_eq fun path => mirrors_pure rfl

theorem mirrors_each {γ γ' : Type} {f : γ → γ'} {r : NineP.Reader.FieldReader γ}
    {r' : Nat → Reader.FieldReader γ'} (h : ∀ index, Mirrors (fun a b => b = f a) r (r' index))
    (n index : Nat) :
    Mirrors (fun as bs => bs = as.map f) (times r n) (Reader.each r' index n) := by
  induction n generalizing index with
  | zero => exact mirrors_pure rfl
  | succ n ih =>
    exact (h index).bind_eq fun a => (ih (index + 1)).bind_eq fun as => mirrors_pure rfl

theorem mirrors_elements {γ γ' : Type} {f : γ → γ'} {r : NineP.Reader.FieldReader γ}
    {r' : String → Reader.FieldReader γ'} {counter item : String}
    (hr : ∀ field, Mirrors (fun a b => b = f a) r (r' field)) :
    Mirrors (fun as bs => bs = as.map f) (NineP.Reader.walkList r)
      (readElements counter item r') := by
  refine mirrors_u16.bind_eq fun count => ?_
  by_cases hcount : count.toNat > NineP.maxWalkNames
  · have habove : (Number.ofNat count.toNat).above maxwelem = true := Number.above_ofNat.2 hcount
    rw [if_pos hcount, if_pos habove]
    exact ⟨nofun, nofun⟩
  · have habove : ¬ (Number.ofNat count.toNat).above maxwelem = true :=
      fun hlt => hcount (Number.above_ofNat.1 hlt)
    rw [if_neg hcount, if_neg habove]
    exact mirrors_each (fun index => hr _) count.toNat 0

/-- The device looks at what is left before it takes the data. -/
theorem mirrors_counted {field' : String} :
    Mirrors (fun data data' => data' = data) NineP.Reader.readCounted
      (do let count ← Reader.u32 field; Reader.raw count field') := by
  refine mirrors_u32.bind_eq fun count =>
    ⟨fun input data rest hrun => ?_, fun input data rest hrun => ?_⟩
  · simp only [run_bind_eq_ok, run_get_eq_ok] at hrun
    obtain ⟨_, _, ⟨rfl, rfl⟩, hrun⟩ := hrun
    split_ifs at hrun
    · cases hrun
    · exact ⟨data, rfl, take_eq_ok.2 (take_eq_ok.1 hrun)⟩
  · obtain ⟨hlen, rfl⟩ := take_eq_ok.1 hrun
    have hle : ¬ count.toNat > (data ++ rest).length := by
      rw [Number.toNat_ofNat] at hlen
      rw [length_append]
      omega
    refine ⟨data, rfl, ?_⟩
    simp only [run_bind_eq_ok, run_get_eq_ok]
    refine ⟨_, _, ⟨rfl, rfl⟩, ?_⟩
    rw [if_neg hle]
    exact take_eq_ok.2 ⟨hlen, rfl⟩

theorem bind_counted {k : List UInt8 → NineP.Reader.FieldReader α}
    {k' : List UInt8 → Reader.FieldReader β} {field' : String}
    (h : ∀ data, Mirrors S (k data) (k' data)) :
    Mirrors S (NineP.Reader.readCounted >>= k)
      (do let count ← Reader.u32 field; let data ← Reader.raw count field'; k' data) := by
  have hbind : Mirrors S (NineP.Reader.readCounted >>= k)
      ((do let count ← Reader.u32 field; Reader.raw count field') >>= k') :=
    mirrors_counted.bind_eq h
  rwa [bind_assoc] at hbind

end Fields

/-! ## Directory entries -/

/-- What the client reads where the device reads `entry`. -/
def DirEntry.received (entry : NineP.DirEntry) : DirEntry :=
  { DirEntry.ofDevice entry with name := withoutBom entry.name }

theorem checkDirent_eq_ok {qid : NineP.Qid} {byte : UInt8} :
    checkDirent (.ofDevice qid) (.ofNat byte.toNat) = .ok () ↔ byte = qid.kind.direntType := by
  have hlookup : direntByQidType (Qid.ofDevice qid).type
      = some (.ofNat qid.kind.direntType.toNat) := by
    show direntByQidType (.ofNat qid.kind.bits.toNat) = _
    cases qid.kind <;> rfl
  unfold checkDirent fail
  rw [ite_error_ok, not_not, eq_self, and_true, hlookup, Option.some.injEq, Number.ofNat_inj,
    UInt8.toNat_inj]
  exact eq_comm

theorem mirrors_readEntry :
    Mirrors (fun entry entry' => entry' = DirEntry.received entry) NineP.readEntry
      (mapError cutShort readDirEntry) := by
  refine Mirrors.mapError_right ?_ cutShort
  refine (mirrors_qid.mapError_left _).bind_eq fun qid => ?_
  refine (mirrors_u64.mapError_left _).bind_eq fun offset => ?_
  refine (mirrors_u8.mapError_left _).bind_eq fun byte => ?_
  refine Mirrors.bind (R := fun _ _ => byte = qid.kind.direntType) (mirrors_lift ?_ ?_) ?_
  · intro _ hbyte
    have hbyte := NineP.kindFromDirent_eq_ok.1 hbyte
    exact ⟨(), hbyte, checkDirent_eq_ok.2 hbyte⟩
  · intro _ hbyte
    have hbyte := checkDirent_eq_ok.1 hbyte
    exact ⟨(), hbyte, NineP.kindFromDirent_eq_ok.2 hbyte⟩
  · rintro _ _ rfl
    exact (mirrors_string.mapError_left _).bind_eq fun name => mirrors_pure rfl

theorem decodeFor_eq_ok {fuel : Nat} {block : List UInt8} {entries' : List DirEntry} :
    decodeFor fuel block = .ok entries' ↔
      ∃ entries, NineP.parseFor fuel block = .ok entries ∧
        entries' = entries.map DirEntry.received := by
  have hentry : ∀ {input entry' rest},
      (mapError cutShort readDirEntry).run input = .ok (entry', rest) ↔
        ∃ entry, NineP.readEntry.run input = .ok (entry, rest) ∧ entry' = DirEntry.received entry :=
    mirrors_readEntry.run_eq_ok fun _ _ _ h h' => h.trans h'.symm
  fun_induction decodeFor fuel block generalizing entries' with
  | case1 => simp [NineP.parseFor, eq_comm]
  | case2 block hne =>
    rw [NineP.parseFor]
    · simp [fail]
    · exact hne
  | case3 fuel block hne ih =>
    rw [NineP.parseFor]
    · simp only [except_bind_eq_ok, Prod.exists, hentry, ih, pure, Except.pure, Except.ok.injEq]
      constructor
      · rintro ⟨_, rest, ⟨entry, hread, rfl⟩, _, ⟨others, hothers, rfl⟩, rfl⟩
        exact ⟨entry :: others, ⟨entry, rest, hread, others, hothers, rfl⟩, rfl⟩
      · rintro ⟨_, ⟨entry, rest, hread, others, hothers, rfl⟩, rfl⟩
        exact ⟨_, rest, ⟨entry, hread, rfl⟩, _, ⟨others, hothers, rfl⟩, rfl⟩
    · exact hne

/-! ## Bodies -/

/-- What the client reads where the device reads `message`. -/
def Received (message : NineP.Message) (body : Body) : Prop :=
  ∃ sent, Body.ofDevice message = some sent ∧ body = sent.mapStrings withoutBom

variable {body : Body} {kind : MessageName} {input rest : List UInt8} {message : Message}
  {code : UInt8} {msize : UInt32}

theorem received {message : NineP.Message} {sent : Body} (h : Body.ofDevice message = some sent)
    (hbody : body = sent.mapStrings withoutBom) :
    Mirrors Received (pure message : NineP.Reader.FieldReader NineP.Message)
      (pure body : Reader.FieldReader Body) :=
  mirrors_pure ⟨sent, h, hbody⟩

theorem checkErrno_eq_ok {errno : UInt32} :
    checkErrno (.ofNat errno.toNat) = .ok () ↔ ∃ code : NineP.FsErrorCode, errno = code.errno := by
  unfold checkErrno fail
  rw [ite_error_ok, not_not, eq_self, and_true]
  constructor
  · intro hmem
    obtain ⟨n, hn, hcode⟩ := mem_map.1 hmem
    have hall : ∀ n ∈ [1, 2, 13, 17, 18, 20, 21, 22, 27, 30, 36, 39, 40, 95],
        ∃ code ∈ NineP.FsErrorCode.all, code.errno.toNat = n := by decide
    obtain ⟨code, -, rfl⟩ := hall n hn
    exact ⟨code, UInt32.toNat_inj.1 (Number.ofNat_inj.1 hcode).symm⟩
  · rintro ⟨code, rfl⟩
    refine mem_map.2 ⟨code.errno.toNat, ?_, rfl⟩
    cases code <;> decide

section

variable {α β : Type} {S : α → β → Prop} {field : String}

theorem bind_u32 {k : UInt32 → NineP.Reader.FieldReader α} {k' : Number → Reader.FieldReader β}
    (h : ∀ n, Mirrors S (k n) (k' (.ofNat n.toNat))) :
    Mirrors S (NineP.Reader.u32 >>= k) (Reader.u32 field >>= k') :=
  mirrors_u32.bind_eq h

theorem bind_u64 {k : UInt64 → NineP.Reader.FieldReader α} {k' : Int → Reader.FieldReader β}
    (h : ∀ n, Mirrors S (k n) (k' n.toNat)) :
    Mirrors S (NineP.Reader.u64 >>= k) (Reader.u64 field >>= k') :=
  mirrors_u64.bind_eq h

theorem bind_string {text : NineP.StringField} {k : String → NineP.Reader.FieldReader α}
    {k' : String → Reader.FieldReader β}
    (h : ∀ value, Mirrors S (k value) (k' (withoutBom value))) :
    Mirrors S (NineP.Reader.string text >>= k) (Reader.string field >>= k') :=
  mirrors_string.bind_eq h

end

theorem mirrors_attributes :
    Mirrors (fun a b => b = Attributes.ofDevice a) NineP.Reader.decodeAttributes
      readAttributes := by
  refine bind_u64 fun valid => mirrors_qid.bind_eq fun qid => bind_u32 fun mode => ?_
  refine bind_u32 fun uid => bind_u32 fun gid => bind_u64 fun nlink => bind_u64 fun rdev => ?_
  refine bind_u64 fun size => bind_u64 fun blksize => bind_u64 fun blocks => ?_
  refine bind_u64 fun atimeSec => bind_u64 fun atimeNsec => bind_u64 fun mtimeSec => ?_
  refine bind_u64 fun mtimeNsec => bind_u64 fun ctimeSec => bind_u64 fun ctimeNsec => ?_
  refine bind_u64 fun btimeSec => bind_u64 fun btimeNsec => bind_u64 fun generation => ?_
  exact bind_u64 fun dataVersion => mirrors_pure rfl

theorem mirrors_decodeBody (hkind : kind ≠ .rreaddir) :
    Mirrors Received (NineP.Reader.fields kind) (decodeBody kind) := by
  cases kind with
  | rreaddir => exact absurd rfl hkind
  | rlerror =>
    refine bind_u32 fun errno => ?_
    refine Mirrors.bind (R := fun code _ => errno = code.errno) (mirrors_lift ?_ ?_) ?_
    · intro code hcode
      have herrno := NineP.FsErrorCode.fromErrno_eq_ok.1 hcode
      exact ⟨(), herrno, checkErrno_eq_ok.2 ⟨code, herrno⟩⟩
    · intro _ hcheck
      obtain ⟨code, herrno⟩ := checkErrno_eq_ok.1 hcheck
      exact ⟨code, herrno, NineP.FsErrorCode.fromErrno_eq_ok.2 herrno⟩
    · rintro code _ rfl
      exact received rfl rfl
  | tversion | rversion => exact bind_u32 fun msize => bind_string fun version => received rfl rfl
  | tattach =>
    exact bind_u32 fun fid => bind_u32 fun afid => bind_string fun uname => bind_string fun aname =>
      bind_u32 fun nUname => received rfl rfl
  | rattach | rsymlink | rmkdir => exact mirrors_qid.bind_eq fun qid => received rfl rfl
  | tflush => exact mirrors_u16.bind_eq fun oldtag => received rfl rfl
  | rflush | rsetattr | rlink | rrename | rrenameat | runlinkat | rclunk | rremove =>
    exact received rfl rfl
  | twalk =>
    exact bind_u32 fun fid => bind_u32 fun newfid =>
      (mirrors_elements fun _ => mirrors_string).bind_eq fun names =>
        received rfl rfl
  | rwalk => exact (mirrors_elements fun _ => mirrors_qid).bind_eq fun qids => received rfl rfl
  | tlopen => exact bind_u32 fun fid => bind_u32 fun flags => received rfl rfl
  | rlopen | rlcreate =>
    exact mirrors_qid.bind_eq fun qid => bind_u32 fun iounit => received rfl rfl
  | tlcreate =>
    exact bind_u32 fun fid => bind_string fun name => bind_u32 fun flags => bind_u32 fun mode =>
      bind_u32 fun gid => received rfl rfl
  | tsymlink =>
    exact bind_u32 fun fid => bind_string fun name => bind_string fun target =>
      bind_u32 fun gid => received rfl rfl
  | treadlink | tclunk | tremove => exact bind_u32 fun fid => received rfl rfl
  | rreadlink => exact bind_string fun target => received rfl rfl
  | tgetattr => exact bind_u32 fun fid => bind_u64 fun requestMask => received rfl rfl
  | rgetattr =>
    exact mirrors_attributes.bind_eq fun attributes => received rfl rfl
  | tsetattr =>
    refine bind_u32 fun fid => bind_u32 fun valid => bind_u32 fun mode => bind_u32 fun uid => ?_
    refine bind_u32 fun gid => bind_u64 fun size => bind_u64 fun atimeSec => ?_
    exact bind_u64 fun atimeNsec => bind_u64 fun mtimeSec => bind_u64 fun mtimeNsec =>
      received rfl rfl
  | treaddir | tread =>
    exact bind_u32 fun fid => bind_u64 fun offset => bind_u32 fun count => received rfl rfl
  | tmkdir =>
    exact bind_u32 fun dfid => bind_string fun name => bind_u32 fun mode => bind_u32 fun gid =>
      received rfl rfl
  | tlink | trename =>
    exact bind_u32 fun fid => bind_u32 fun dfid => bind_string fun name => received rfl rfl
  | trenameat =>
    exact bind_u32 fun olddirfid => bind_string fun oldname => bind_u32 fun newdirfid =>
      bind_string fun newname => received rfl rfl
  | tunlinkat =>
    exact bind_u32 fun dirfid => bind_string fun name => bind_u32 fun flags => received rfl rfl
  | rread => exact bind_counted fun data => received rfl rfl
  | twrite =>
    exact bind_u32 fun fid => bind_u64 fun offset => bind_counted fun data => received rfl rfl
  | rwrite => exact bind_u32 fun count => received rfl rfl

theorem Received.functional {message : NineP.Message} {body' : Body} (h : Received message body)
    (h' : Received message body') : body = body' := by
  obtain ⟨sent, hsent, rfl⟩ := h
  obtain ⟨sent', hsent', rfl⟩ := h'
  rw [Option.some.inj (hsent.symm.trans hsent')]

theorem ofDevice_rreaddir (data : List UInt8) :
    Body.ofDevice (.rreaddir data) =
      match NineP.parseEntries data with
      | .ok entries => some (.rreaddir (entries.map .ofDevice))
      | .error _ => none := rfl

theorem received_rreaddir {data : List UInt8} :
    Received (.rreaddir data) body ↔
      ∃ entries, NineP.parseEntries data = .ok entries ∧
        body = .rreaddir (entries.map DirEntry.received) := by
  have hmap : ∀ entries : List NineP.DirEntry,
      (Body.rreaddir (entries.map .ofDevice)).mapStrings withoutBom
        = .rreaddir (entries.map DirEntry.received) := by
    intro entries
    show Body.rreaddir _ = _
    rw [map_map]
    rfl
  unfold Received
  rw [ofDevice_rreaddir]
  cases NineP.parseEntries data with
  | error error =>
    constructor
    · rintro ⟨_, hnone, -⟩
      cases hnone
    · rintro ⟨_, herror, -⟩
      cases herror
  | ok entries =>
    constructor
    · rintro ⟨sent, hsent, rfl⟩
      refine ⟨entries, rfl, ?_⟩
      rw [← Option.some.inj hsent, hmap]
    · rintro ⟨entries', hentries, rfl⟩
      refine ⟨_, rfl, ?_⟩
      rw [hmap, Except.ok.inj hentries]

theorem mirrors_rreaddir :
    Mirrors (fun p body => body = .rreaddir (p.2.map DirEntry.received))
      (do
        let data ← NineP.Reader.readCounted
        let entries ← NineP.parseEntries data
        return (data, entries))
      (decodeBody .rreaddir) := by
  refine bind_counted fun data => ?_
  refine Mirrors.bind_eq (f := List.map DirEntry.received) (mirrors_lift ?_ ?_)
    fun entries => mirrors_pure rfl
  · intro entries hentries
    -- the two loops have the same bound on their rounds
    exact ⟨_, rfl, decodeFor_eq_ok.2 ⟨entries, hentries, rfl⟩⟩
  · intro entries' hentries'
    obtain ⟨entries, hentries, rfl⟩ := decodeFor_eq_ok.1 hentries'
    exact ⟨entries, rfl, hentries⟩

theorem decodeBody_eq_ok :
    (decodeBody kind).run input = .ok (body, rest) ↔
      ∃ message, (NineP.Reader.fields kind).run input = .ok (message, rest) ∧
        Received message body := by
  by_cases hkind : kind = .rreaddir
  · subst hkind
    have hfields : ∀ {message}, (NineP.Reader.fields .rreaddir).run input = .ok (message, rest) ↔
        ∃ data, NineP.Reader.readCounted.run input = .ok (data, rest) ∧
          NineP.Message.rreaddir data = message := by
      intro message
      show (NineP.Reader.readCounted >>= fun data => pure (NineP.Message.rreaddir data)).run input
        = _ ↔ _
      simp only [run_bind_eq_ok, run_pure_eq_ok]
      constructor
      · rintro ⟨data, _, hdata, rfl, rfl⟩
        exact ⟨data, hdata, rfl⟩
      · rintro ⟨data, hdata, rfl⟩
        exact ⟨data, rest, hdata, rfl, rfl⟩
    rw [mirrors_rreaddir.run_eq_ok fun _ _ _ h h' => h.trans h'.symm]
    simp only [run_bind_eq_ok, run_lift_eq_ok, run_pure_eq_ok, hfields]
    constructor
    · rintro ⟨_, ⟨data, _, hdata, entries, _, ⟨hentries, rfl⟩, rfl, rfl⟩, rfl⟩
      exact ⟨_, ⟨data, hdata, rfl⟩, received_rreaddir.2 ⟨entries, hentries, rfl⟩⟩
    · rintro ⟨_, ⟨data, hdata, rfl⟩, hbody⟩
      obtain ⟨entries, hentries, rfl⟩ := received_rreaddir.1 hbody
      exact ⟨(data, entries), ⟨data, rest, hdata, entries, rest, ⟨hentries, rfl⟩, rfl, rfl⟩, rfl⟩
  · exact (mirrors_decodeBody hkind).run_eq_ok fun _ _ _ => Received.functional

/-! ## Frames -/

def Message.received (message : Message) : Message :=
  { message with body := message.body.mapStrings withoutBom }

variable {frame : NineP.Frame} {low high : UInt8} {bytes : List UInt8}

theorem Message.ofDevice_eq_some {sent : Message} :
    Message.ofDevice frame = some sent ↔
      sent.tag = .ofNat frame.tag.toNat ∧ Body.ofDevice frame.message = some sent.body := by
  obtain ⟨tag, body⟩ := sent
  unfold Message.ofDevice
  cases Body.ofDevice frame.message with
  | none => simp
  | some body' =>
    simp only [Option.map_some, Option.some.injEq, Message.mk.injEq]
    exact and_congr_left fun _ => eq_comm

theorem received_iff :
    (message.tag = .ofNat frame.tag.toNat ∧ Received frame.message message.body) ↔
      ∃ sent, Message.ofDevice frame = some sent ∧ message = sent.received := by
  simp only [Message.ofDevice_eq_some]
  constructor
  · rintro ⟨htag, body, hbody, heq⟩
    refine ⟨{ message with body }, ⟨htag, hbody⟩, ?_⟩
    obtain ⟨tag, body'⟩ := message
    dsimp only at heq
    rw [heq]
    rfl
  · rintro ⟨sent, ⟨htag, hbody⟩, rfl⟩
    exact ⟨htag, sent.body, hbody, rfl⟩

theorem messageTypes_eq :
    messageTypes = NineP.MessageType.all.map fun type => (type, type.code.toNat) := rfl

theorem nameByOpcode_eq_some :
    nameByOpcode (.ofNat code.toNat) = some kind ↔ NineP.MessageType.fromCode code = .ok kind := by
  have hfind : nameByOpcode (.ofNat code.toNat)
      = NineP.MessageType.all.find? fun type => type.code = code := by
    unfold nameByOpcode
    rw [messageTypes_eq, List.find?_map, Option.map_map]
    have hsame :
        ((fun entry : MessageName × Nat => decide (Number.ofNat entry.2 = .ofNat code.toNat)) ∘
          fun type : MessageName => (type, type.code.toNat))
          = fun type => decide (type.code = code) := by
      funext type
      simp [Number.ofNat_inj, UInt8.toNat_inj]
    rw [hsame]
    exact Option.map_id_apply
  unfold NineP.MessageType.fromCode
  rw [hfind]
  cases NineP.MessageType.all.find? fun type => type.code = code with
  | none =>
    simp only [reduceCtorEq, false_iff]
    split_ifs <;> nofun
  | some type => simp

theorem checkTag_eq_ok {tag : UInt16} :
    checkTag kind (.ofNat tag.toNat) = .ok () ↔ NineP.checkTag kind tag = .ok () := by
  have hrange : ¬ (¬ (Number.ofNat tag.toNat).isInteger = true ∨
      (Number.ofNat tag.toNat).below 0 = true ∨ (Number.ofNat tag.toNat).above 0xffff = true) :=
    Number.unsigned_iff.2 ⟨tag.toNat, Nat.le_of_lt_succ tag.toNat_lt, rfl⟩
  have hnotag : Number.ofNat tag.toNat = .ofNat notag ↔ tag = NineP.notag := by
    rw [Number.ofNat_inj, ← UInt16.toNat_inj]
    rfl
  rw [NineP.checkTag_eq_ok]
  unfold checkTag fail
  simp only [hnotag, ne_eq, ite_error_eq_ok, and_true]
  tauto

theorem checkDeclaredSize_eq_ok {size : UInt32} :
    checkDeclaredSize (.ofNat size.toNat) msize.toNat = .ok () ↔
      NineP.checkSize size msize = .ok () := by
  rw [NineP.checkSize_eq_ok]
  unfold checkDeclaredSize fail
  simp only [Number.below_ofNat, Number.above_ofNat, ite_error_eq_ok, and_true, not_lt]
  rfl

theorem checkCounts_eq_ok {message : NineP.Message} (h : Received message body) {tag : Number} :
    checkCounts { tag, body } msize.toNat = .ok () ↔ NineP.checkCounts message msize = .ok () := by
  -- the counts of both sides are compared with the same bound
  have hcount : ∀ (count : UInt32) (bound : Nat),
      (if (Number.ofNat count.toNat).above bound = true then fail .countAboveMsize "count"
        else .ok () : Result Unit) = .ok () ↔
      (if decide (bound < count.toNat) = true then .error .countAboveMsize
        else .ok () : Except NineP.CodecError Unit) = .ok () := by
    intro count bound
    unfold fail
    rw [ite_error_ok, ite_error_ok, Number.above_ofNat, decide_eq_true_eq]
  cases message
  case rreaddir data =>
    obtain ⟨entries, -, rfl⟩ := received_rreaddir.1 h
    exact iff_of_true rfl rfl
  case tread count | treaddir count | rwrite count =>
    obtain ⟨_, hsent, rfl⟩ := h
    cases hsent
    exact hcount count _
  all_goals
    obtain ⟨_, hsent, rfl⟩ := h
    cases hsent
    exact iff_of_true rfl rfl

theorem readMessage_run {msize : Nat} :
    (readMessage msize).run (code :: low :: high :: input) = .ok (message, rest) ↔
      ∃ kind body, nameByOpcode (.ofNat code.toNat) = some kind ∧
        checkTag kind (.ofNat (ofLeBytes [low, high])) = .ok () ∧
        (decodeBody kind).run input = .ok (body, []) ∧
        checkCounts { tag := .ofNat (ofLeBytes [low, high]), body } msize = .ok () ∧
        message = { tag := .ofNat (ofLeBytes [low, high]), body } ∧ rest = [] := by
  have hopcode : ∀ l, (Reader.u8 "type").run (code :: l) = .ok (.ofNat code.toNat, l) := by
    intro l
    have hvalue : ofLeBytes [code] = code.toNat := by simp [ofLeBytes, ofBytes]
    show (.ok (Number.ofNat (ofLeBytes [code]), l) : Except NinepError _) = _
    rw [hvalue]
  have htag : ∀ l, (Reader.u16 "tag").run (low :: high :: l)
      = .ok (.ofNat (ofLeBytes [low, high]), l) := fun _ => rfl
  unfold readMessage
  rw [run_bind_eq_ok]
  simp only [hopcode, Except.ok.injEq, Prod.mk.injEq]
  constructor
  · rintro ⟨_, _, ⟨rfl, rfl⟩, h⟩
    split at h
    · split_ifs at h <;> cases h
    · next kind hkind =>
      simp only [run_bind_eq_ok, htag, Except.ok.injEq, Prod.mk.injEq, run_lift_eq_ok,
        run_get_eq_ok] at h
      obtain ⟨_, _, ⟨rfl, rfl⟩, _, _, ⟨hcheck, rfl⟩, body, middle, hbody, _, _, ⟨rfl, rfl⟩, h⟩ := h
      split_ifs at h with hrest
      · cases h
      · rw [not_not] at hrest
        subst hrest
        simp only [run_bind_eq_ok, run_lift_eq_ok, run_pure_eq_ok] at h
        obtain ⟨_, _, ⟨hcounts, rfl⟩, rfl, rfl⟩ := h
        exact ⟨kind, body, hkind, hcheck, hbody, hcounts, rfl, rfl⟩
  · rintro ⟨kind, body, hkind, hcheck, hbody, hcounts, rfl, rfl⟩
    refine ⟨_, _, ⟨rfl, rfl⟩, ?_⟩
    rw [hkind]
    simp only [run_bind_eq_ok, htag, Except.ok.injEq, Prod.mk.injEq, run_lift_eq_ok, run_get_eq_ok]
    refine ⟨_, _, ⟨rfl, rfl⟩, (), _, ⟨hcheck, rfl⟩, body, [], hbody, _, _, ⟨rfl, rfl⟩, ?_⟩
    rw [if_neg (not_not.2 rfl)]
    simp only [run_bind_eq_ok, run_lift_eq_ok, run_pure_eq_ok]
    exact ⟨(), [], ⟨hcounts, rfl⟩, trivial, rfl⟩

/-- What the client reads after the size is what the device reads there. -/
theorem readMessage_eq_ok :
    (readMessage msize.toNat).run (code :: low :: high :: input) = .ok (message, rest) ↔
      rest = [] ∧ ∃ frame,
        NineP.decodeAfterSize (code :: low :: high :: input) msize = .ok frame ∧
          message.tag = .ofNat frame.tag.toNat ∧ Received frame.message message.body := by
  have htag : Number.ofNat (ofLeBytes [low, high])
      = .ofNat (UInt16.ofNat (ofLeBytes [low, high])).toNat := by
    have hlt : ofLeBytes [low, high] < 2 ^ 16 := by simpa using ofLeBytes_lt [low, high]
    rw [UInt16.toNat_ofNat_of_lt' hlt]
  rw [readMessage_run, htag]
  simp only [NineP.decodeAfterSize, except_bind_eq_ok, nameByOpcode_eq_some, checkTag_eq_ok,
    decodeBody_eq_ok, NineP.Message.decodeBody, complete_eq_ok, pure, Except.pure,
    Except.ok.injEq]
  constructor
  · rintro ⟨kind, body, hkind, hcheck, ⟨sent, hsent, hbody⟩, hcounts, rfl, rfl⟩
    exact ⟨rfl, _, ⟨kind, hkind, (), hcheck, sent, hsent, (), (checkCounts_eq_ok hbody).1 hcounts,
      rfl⟩, rfl, hbody⟩
  · rintro ⟨rfl, _, ⟨kind, hkind, _, hcheck, sent, hsent, _, hcounts, rfl⟩, hmessage, hbody⟩
    obtain ⟨tag, body⟩ := message
    cases hmessage
    exact ⟨kind, body, hkind, hcheck, ⟨sent, hsent, hbody⟩, (checkCounts_eq_ok hbody).2 hcounts,
      rfl, rfl⟩

theorem size_run (h : 4 ≤ bytes.length) :
    (Reader.u32 "size").run bytes
      = .ok (.ofNat (NineP.declaredSize bytes).toNat, bytes.drop 4) := by
  have hlen : (bytes.take 4).length = 4 := length_take_of_le h
  have hlt : ofLeBytes (bytes.take 4) < 2 ^ 32 := by
    have hbound := ofLeBytes_lt (bytes.take 4)
    rwa [hlen] at hbound
  refine run_map_eq_ok.2 ⟨bytes.take 4, take_eq_ok.2 ⟨hlen, (take_append_drop ..).symm⟩, ?_⟩
  rw [NineP.declaredSize, UInt32.toNat_ofNat_of_lt' hlt]

/-- The client accepts the bytes that the device accepts and that it has a message for, and reads
that message but for the byte order marks. -/
theorem decodeExact_eq_ok : decodeExact bytes { msize := some msize.toNat } = .ok message ↔
      ∃ frame sent, NineP.decodeExact bytes msize = .ok frame ∧
        Message.ofDevice frame = some sent ∧ message = sent.received := by
  -- a checked size leaves three bytes at least
  have hthree : NineP.checkSize (NineP.declaredSize bytes) msize = .ok () →
      (NineP.declaredSize bytes).toNat = bytes.length →
      ∃ code low high input, bytes.drop 4 = code :: low :: high :: input := by
    intro hcheck hlen
    have hfloor := (NineP.checkSize_eq_ok.1 hcheck).1
    have hdrop : 3 ≤ (bytes.drop 4).length := by
      rw [length_drop]
      unfold NineP.headerLen at hfloor
      omega
    match hinput : bytes.drop 4 with
    | code :: low :: high :: input => exact ⟨code, low, high, input, rfl⟩
    | [] | [_] | [_, _] => simp [hinput] at hdrop
  have hclient : decodeExact bytes { msize := some msize.toNat } = .ok message ↔
      4 ≤ bytes.length ∧ NineP.checkSize (NineP.declaredSize bytes) msize = .ok () ∧
        (NineP.declaredSize bytes).toNat = bytes.length ∧
        ∃ rest, (readMessage msize.toNat).run (bytes.drop 4) = .ok (message, rest) := by
    unfold decodeExact decodeFrame
    simp only [fail, ite_error_eq_ok, not_lt]
    refine and_congr_right fun hfour => ?_
    simp only [size_run hfour, except_ok_bind, except_bind_eq_ok, DecodeOptions.limit,
      Option.getD_some, ite_error_eq_ok, Number.above_ofNat, Number.below_ofNat, ne_eq,
      not_not, Number.ofNat_inj, Prod.exists, pure, Except.pure, Except.ok.injEq]
    constructor
    · rintro ⟨_, hcheck, -, -, _, -, hlen, _, rest, hread, rfl⟩
      exact ⟨checkDeclaredSize_eq_ok.1 hcheck, hlen, rest, hread⟩
    · rintro ⟨hcheck, hlen, rest, hread⟩
      have hcheck' := checkDeclaredSize_eq_ok.2 hcheck
      exact ⟨(), hcheck', by omega, by omega, (), hcheck', hlen, message, rest, hread, rfl⟩
  rw [hclient]
  simp only [NineP.decodeExact_checks]
  constructor
  · rintro ⟨hfour, hcheck, hlen, rest, hread⟩
    obtain ⟨code, low, high, input, hinput⟩ := hthree hcheck hlen
    rw [hinput] at hread ⊢
    obtain ⟨-, frame, hframe, hmessage⟩ := readMessage_eq_ok.1 hread
    obtain ⟨sent, hsent, rfl⟩ := received_iff.1 hmessage
    exact ⟨frame, sent, ⟨hfour, hcheck, hlen, hframe⟩, hsent, rfl⟩
  · rintro ⟨frame, sent, ⟨hfour, hcheck, hlen, hframe⟩, hsent, hmessage⟩
    obtain ⟨code, low, high, input, hinput⟩ := hthree hcheck hlen
    rw [hinput] at hframe ⊢
    have hreceived := received_iff.2 ⟨sent, hsent, hmessage⟩
    exact ⟨hfour, hcheck, hlen, [], readMessage_eq_ok.2 ⟨rfl, frame, hframe, hreceived⟩⟩

end AgentUplink.Client
