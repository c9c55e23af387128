import AgentUplink.Client.Message
import AgentUplink.Lib.Bytes
import AgentUplink.Lib.Reader

/-!
# The 9P codec of the client

`decodeExact` reads one binary message of the WebSocket as one 9P message, and `encode` writes
one. The bodies are laid out as in the codec of the device, with the client's own tables.
-/

open Bytes Reader

namespace AgentUplink.Client

/-! ## Constants -/

def notag : Nat := 0xffff

/-- `size[4] type[1] tag[2]` -/
def headerBytes : Nat := 7

def msizeCeiling : Nat := 65536

def maxwelem : Nat := 16

/-- `size[4] type[1] tag[2] count[4]` -/
def countedReplyOverhead : Nat := headerBytes + 4

/-- The header and `fid[4] offset[8] count[4]`. -/
def writeRequestOverhead : Nat := headerBytes + 16

def messageTypes : List (MessageName × Nat) :=
  [(.rlerror, 7), (.tlopen, 12), (.rlopen, 13), (.tlcreate, 14), (.rlcreate, 15), (.tsymlink, 16),
    (.rsymlink, 17), (.trename, 20), (.rrename, 21), (.treadlink, 22), (.rreadlink, 23),
    (.tgetattr, 24), (.rgetattr, 25), (.tsetattr, 26), (.rsetattr, 27), (.treaddir, 40),
    (.rreaddir, 41), (.tlink, 70), (.rlink, 71), (.tmkdir, 72), (.rmkdir, 73), (.trenameat, 74),
    (.rrenameat, 75), (.tunlinkat, 76), (.runlinkat, 77), (.tversion, 100), (.rversion, 101),
    (.tattach, 104), (.rattach, 105), (.tflush, 108), (.rflush, 109), (.twalk, 110),
    (.rwalk, 111), (.tread, 116), (.rread, 117), (.twrite, 118), (.rwrite, 119), (.tclunk, 120),
    (.rclunk, 121), (.tremove, 122), (.rremove, 123)]

def opcodeOf (kind : MessageName) : Nat := (messageTypes.lookup kind).getD 0

def nameByOpcode (opcode : Number) : Option MessageName :=
  (messageTypes.find? fun entry => Number.ofNat entry.2 = opcode).map Prod.fst

def knownOpcodesNotInProfile : List Nat :=
  [8, 9, 18, 19, 30, 31, 32, 33, 50, 51, 52, 53, 54, 55, 102, 103, 107, 112, 113, 114, 115, 124,
    125, 126, 127]

def qtfile : Number := .ofNat 0x00
def qtsymlink : Number := .ofNat 0x02
def qtdir : Number := .ofNat 0x80

def qidTypes : List Number := [qtfile, qtsymlink, qtdir]

/-- `DT_REG`, `DT_DIR` or `DT_LNK`. -/
def direntByQidType (type : Number) : Option Number :=
  [(qtfile, Number.ofNat 8), (qtdir, .ofNat 4), (qtsymlink, .ofNat 10)].lookup type

def errnos : List Number :=
  [1, 2, 13, 17, 18, 20, 21, 22, 27, 30, 36, 39, 40, 95].map Number.ofNat

/-! ## Field rules -/

abbrev Result := Except NinepError

def fail {α : Type} (reason : NinepErrorReason) (field : String) : Result α :=
  .error { reason, field }

/-- A bit outside the three types is refused, never masked off. -/
def checkQid (type : Number) (field : String) : Result Unit :=
  if type ∉ qidTypes then fail .qidType field else .ok ()

def checkTag (kind : MessageName) (tag : Number) : Result Unit :=
  if ¬ tag.isInteger ∨ tag.below 0 ∨ tag.above 0xffff then fail .tagOutOfRange "tag"
  else
    let isVersion := kind = .tversion ∨ kind = .rversion
    if isVersion ∧ tag ≠ .ofNat notag then fail .notagRequired "tag"
    else if ¬ isVersion ∧ tag = .ofNat notag then fail .notagForbidden "tag"
    else .ok ()

/-- A count must leave room for its own framing. -/
def checkCounts (message : Message) (msize : Nat) : Result Unit :=
  let replyLimit := msize - countedReplyOverhead
  let writeLimit := msize - writeRequestOverhead
  match message.body with
  | .tread _ _ count | .treaddir _ _ count =>
    if count.above replyLimit then fail .countAboveMsize "count" else .ok ()
  | .rwrite count => if count.above writeLimit then fail .countAboveMsize "count" else .ok ()
  | _ => .ok ()

def checkErrno (ecode : Number) : Result Unit :=
  if ecode ∉ errnos then fail .errnoNotInVocabulary "ecode" else .ok ()

/-! ## Reading -/

/-- The decoder drops a byte order mark before the first character. -/
def withoutBom (text : String) : String :=
  match text.toList with
  | c :: rest => if c = Char.ofNat 0xFEFF then String.ofList rest else text
  | [] => text

/-- `new TextDecoder('utf-8', { fatal: true }).decode(raw)`, where `none` is the exception. -/
def textDecode (raw : List UInt8) : Option String := (Utf8.ofBytes? raw).map withoutBom

namespace Reader

abbrev FieldReader := StateT (List UInt8) Result

def raw (count : Number) (field : String) : FieldReader (List UInt8) :=
  take { reason := .truncatedBody, field } count.toNat

def unsigned (width : Nat) (field : String) : FieldReader Number :=
  (fun bytes => .ofNat (ofLeBytes bytes)) <$> take { reason := .truncatedBody, field } width

variable (field : String)

def u8 : FieldReader Number := unsigned 1 field

def u16 : FieldReader Number := unsigned 2 field

def u32 : FieldReader Number := unsigned 4 field

def u64 : FieldReader Int :=
  (fun bytes => (ofLeBytes bytes : Int)) <$> take { reason := .truncatedBody, field } 8

/-- A byte count and that many bytes of UTF-8. -/
def string : FieldReader String := do
  let length ← u16 (field ++ ".length")
  let raw ← raw length field
  match textDecode raw with
  | some text => pure text
  | none => fail .invalidUtf8 field

def each {α : Type} (r : Nat → FieldReader α) : Nat → Nat → FieldReader (List α)
  | _, 0 => pure []
  | index, n + 1 => do
    let a ← r index
    let rest ← each r (index + 1) n
    return a :: rest

end Reader

open Reader in
def readQid (field : String) : FieldReader Qid := do
  let type ← u8 (field ++ ".type")
  checkQid type field
  return { type, version := ← u32 (field ++ ".version"), path := ← u64 (field ++ ".path") }

/-- The type byte has to agree with the qid. -/
def checkDirent (qid : Qid) (type : Number) : Result Unit :=
  if direntByQidType qid.type ≠ some type then fail .direntTypeDisagreesWithQid "entry.type"
  else .ok ()

open Reader in
def readDirEntry : FieldReader DirEntry := do
  let qid ← readQid "entry.qid"
  let offset ← u64 "entry.offset"
  let type ← u8 "entry.type"
  checkDirent qid type
  let name ← string "entry.name"
  return { qid, offset, type, name }

/-- A record that the block cuts short. -/
def cutShort (error : NinepError) : NinepError :=
  if error.reason = .truncatedBody then { reason := .malformedDirentBlock, field := "entries" }
  else error

/-- The loop of `decodeDirEntries`. A record takes up some of the block. -/
def decodeFor : Nat → List UInt8 → Result (List DirEntry)
  | _, [] => .ok []
  | 0, _ => fail .malformedDirentBlock "entries"
  | fuel + 1, block => do
    let (entry, rest) ← (mapError cutShort readDirEntry).run block
    let entries ← decodeFor fuel rest
    return entry :: entries

def decodeDirEntries (block : List UInt8) : Result (List DirEntry) := decodeFor block.length block

open Reader in
def readAttributes : FieldReader Attributes := do
  let valid ← u64 "valid"
  let qid ← readQid "qid"
  let mode ← u32 "mode"
  let uid ← u32 "uid"
  let gid ← u32 "gid"
  let nlink ← u64 "nlink"
  let rdev ← u64 "rdev"
  let size ← u64 "size"
  let blksize ← u64 "blksize"
  let blocks ← u64 "blocks"
  let atimeSec ← u64 "atime_sec"
  let atimeNsec ← u64 "atime_nsec"
  let mtimeSec ← u64 "mtime_sec"
  let mtimeNsec ← u64 "mtime_nsec"
  let ctimeSec ← u64 "ctime_sec"
  let ctimeNsec ← u64 "ctime_nsec"
  let btimeSec ← u64 "btime_sec"
  let btimeNsec ← u64 "btime_nsec"
  let gen ← u64 "gen"
  let dataVersion ← u64 "data_version"
  return { valid, qid, mode, uid, gid, nlink, rdev, size, blksize, blocks, atimeSec, atimeNsec,
           mtimeSec, mtimeNsec, ctimeSec, ctimeNsec, btimeSec, btimeNsec, gen, dataVersion }

open Reader in
/-- A 16-bit count of at most `maxwelem`, and that many values. -/
def readElements {α : Type} (counter item : String) (r : String → FieldReader α) :
    FieldReader (List α) := do
  let count ← u16 counter
  if count.above maxwelem then fail .tooManyWalkElements counter
  else each (fun index => r (item ++ "[" ++ toString index ++ "]")) 0 count.toNat

open Reader in
def decodeBody : MessageName → FieldReader Body
  | .tversion => return .tversion (← u32 "msize") (← string "version")
  | .rversion => return .rversion (← u32 "msize") (← string "version")
  | .tattach =>
    return .tattach (← u32 "fid") (← u32 "afid") (← string "uname") (← string "aname")
      (← u32 "n_uname")
  | .rattach => return .rattach (← readQid "qid")
  | .rsymlink => return .rsymlink (← readQid "qid")
  | .rmkdir => return .rmkdir (← readQid "qid")
  | .rlerror => do
    let ecode ← u32 "ecode"
    checkErrno ecode
    return .rlerror ecode
  | .tflush => return .tflush (← u16 "oldtag")
  | .twalk =>
    return .twalk (← u32 "fid") (← u32 "newfid") (← readElements "nwname" "wname" string)
  | .rwalk => return .rwalk (← readElements "nwqid" "wqid" readQid)
  | .tlopen => return .tlopen (← u32 "fid") (← u32 "flags")
  | .rlopen => return .rlopen (← readQid "qid") (← u32 "iounit")
  | .rlcreate => return .rlcreate (← readQid "qid") (← u32 "iounit")
  | .tlcreate =>
    return .tlcreate (← u32 "fid") (← string "name") (← u32 "flags") (← u32 "mode") (← u32 "gid")
  | .tsymlink =>
    return .tsymlink (← u32 "fid") (← string "name") (← string "symtgt") (← u32 "gid")
  | .treadlink => return .treadlink (← u32 "fid")
  | .tclunk => return .tclunk (← u32 "fid")
  | .tremove => return .tremove (← u32 "fid")
  | .rreadlink => return .rreadlink (← string "target")
  | .tgetattr => return .tgetattr (← u32 "fid") (← u64 "request_mask")
  | .rgetattr => return .rgetattr (← readAttributes)
  | .tsetattr =>
    return .tsetattr (← u32 "fid") (← u32 "valid") (← u32 "mode") (← u32 "uid") (← u32 "gid")
      (← u64 "size") (← u64 "atime_sec") (← u64 "atime_nsec") (← u64 "mtime_sec")
      (← u64 "mtime_nsec")
  | .treaddir => return .treaddir (← u32 "fid") (← u64 "offset") (← u32 "count")
  | .tread => return .tread (← u32 "fid") (← u64 "offset") (← u32 "count")
  | .rreaddir => do
    let count ← u32 "count"
    let block ← raw count "data"
    return .rreaddir (← decodeDirEntries block)
  | .tlink => return .tlink (← u32 "dfid") (← u32 "fid") (← string "name")
  | .tmkdir => return .tmkdir (← u32 "dfid") (← string "name") (← u32 "mode") (← u32 "gid")
  | .trename => return .trename (← u32 "fid") (← u32 "dfid") (← string "name")
  | .trenameat =>
    return .trenameat (← u32 "olddirfid") (← string "oldname") (← u32 "newdirfid")
      (← string "newname")
  | .tunlinkat => return .tunlinkat (← u32 "dirfid") (← string "name") (← u32 "flags")
  | .rread => do
    let count ← u32 "count"
    return .rread (← raw count "data")
  | .twrite => do
    let fid ← u32 "fid"
    let offset ← u64 "offset"
    let count ← u32 "count"
    return .twrite fid offset (← raw count "data")
  | .rwrite => return .rwrite (← u32 "count")
  | .rflush => return .rflush
  | .rsetattr => return .rsetattr
  | .rlink => return .rlink
  | .rrename => return .rrename
  | .rrenameat => return .rrenameat
  | .runlinkat => return .runlinkat
  | .rclunk => return .rclunk
  | .rremove => return .rremove

/-! ## Writing -/

namespace Writer

variable (value : Number)

/-- Every integer is checked before it is written. -/
def checkUnsigned (bits : Nat) (field : String) : Result Unit :=
  if ¬ value.isInteger ∨ value.below 0 ∨ value.above (2 ^ bits - 1) then
    fail .fieldOutOfRange field
  else .ok ()

def unsigned (width : Nat) (value : Number) (field : String) : Result (List UInt8) := do
  checkUnsigned value (8 * width) field
  return toLeBytes width value.toNat

def u8 (field : String) : Result (List UInt8) := unsigned 1 value field

def u16 (field : String) : Result (List UInt8) := unsigned 2 value field

def u32 (field : String) : Result (List UInt8) := unsigned 4 value field

def u64 (value : Int) (field : String) : Result (List UInt8) :=
  if value < 0 ∨ value > 0xffffffffffffffff then fail .fieldOutOfRange field
  else .ok (toLeBytes 8 value.toNat)

def string (value : String) (field : String) : Result (List UInt8) := do
  let encoded := Utf8.bytes value
  if encoded.length > 0xffff then fail .fieldTooLarge field
  else do
    let length ← u16 (.ofNat encoded.length) "u16"
    return length ++ encoded

def each {α : Type} (w : α → String → Result (List UInt8)) (item : String) :
    Nat → List α → Result (List UInt8)
  | _, [] => .ok []
  | index, a :: rest => do
    let first ← w a (item ++ "[" ++ toString index ++ "]")
    let others ← each w item (index + 1) rest
    return first ++ others

end Writer

open Writer

def writeQid (qid : Qid) (field : String) : Result (List UInt8) := do
  checkQid qid.type field
  let type ← u8 qid.type (field ++ ".type")
  let version ← u32 qid.version (field ++ ".version")
  let path ← u64 qid.path (field ++ ".path")
  return type ++ version ++ path

def encodeDirEntry (entry : DirEntry) : Result (List UInt8) := do
  checkDirent entry.qid entry.type
  let qid ← writeQid entry.qid "entry.qid"
  let offset ← u64 entry.offset "entry.offset"
  let type ← u8 entry.type "entry.type"
  let name ← string entry.name "entry.name"
  return qid ++ offset ++ type ++ name

def encodeDirEntries : List DirEntry → Result (List UInt8)
  | [] => .ok []
  | entry :: entries => do
    let first ← encodeDirEntry entry
    let rest ← encodeDirEntries entries
    return first ++ rest

def writeElements {α : Type} (counter item : String) (w : α → String → Result (List UInt8))
    (values : List α) : Result (List UInt8) := do
  let count ← u16 (.ofNat values.length) counter
  let written ← each w item 0 values
  return count ++ written

def writeCounted (data : List UInt8) : Result (List UInt8) := do
  let count ← u32 (.ofNat data.length) "count"
  return count ++ data

def writeAttributes (a : Attributes) : Result (List UInt8) := do
  let valid ← u64 a.valid "valid"
  let qid ← writeQid a.qid "qid"
  let mode ← u32 a.mode "mode"
  let uid ← u32 a.uid "uid"
  let gid ← u32 a.gid "gid"
  let nlink ← u64 a.nlink "nlink"
  let rdev ← u64 a.rdev "rdev"
  let size ← u64 a.size "size"
  let blksize ← u64 a.blksize "blksize"
  let blocks ← u64 a.blocks "blocks"
  let atimeSec ← u64 a.atimeSec "atimeSec"
  let atimeNsec ← u64 a.atimeNsec "atimeNsec"
  let mtimeSec ← u64 a.mtimeSec "mtimeSec"
  let mtimeNsec ← u64 a.mtimeNsec "mtimeNsec"
  let ctimeSec ← u64 a.ctimeSec "ctimeSec"
  let ctimeNsec ← u64 a.ctimeNsec "ctimeNsec"
  let btimeSec ← u64 a.btimeSec "btimeSec"
  let btimeNsec ← u64 a.btimeNsec "btimeNsec"
  let gen ← u64 a.gen "gen"
  let dataVersion ← u64 a.dataVersion "dataVersion"
  return valid ++ qid ++ mode ++ uid ++ gid ++ nlink ++ rdev ++ size ++ blksize ++ blocks
    ++ atimeSec ++ atimeNsec ++ mtimeSec ++ mtimeNsec ++ ctimeSec ++ ctimeNsec ++ btimeSec
    ++ btimeNsec ++ gen ++ dataVersion

def encodeBody : Body → Result (List UInt8)
  | .tversion msize version | .rversion msize version => do
    let msize ← u32 msize "msize"
    let version ← string version "version"
    return msize ++ version
  | .tattach fid afid uname aname nUname => do
    let fid ← u32 fid "fid"
    let afid ← u32 afid "afid"
    let uname ← string uname "uname"
    let aname ← string aname "aname"
    let nUname ← u32 nUname "nUname"
    return fid ++ afid ++ uname ++ aname ++ nUname
  | .rattach qid | .rsymlink qid | .rmkdir qid => writeQid qid "qid"
  | .rlerror ecode => do
    checkErrno ecode
    u32 ecode "ecode"
  | .tflush oldtag => u16 oldtag "oldtag"
  | .twalk fid newfid wnames =>
    if wnames.length > maxwelem then fail .tooManyWalkElements "nwname"
    else do
      let fid ← u32 fid "fid"
      let newfid ← u32 newfid "newfid"
      let wnames ← writeElements "nwname" "wname" string wnames
      return fid ++ newfid ++ wnames
  | .rwalk wqids =>
    if wqids.length > maxwelem then fail .tooManyWalkElements "nwqid"
    else writeElements "nwqid" "wqid" writeQid wqids
  | .tlopen fid flags => do
    let fid ← u32 fid "fid"
    let flags ← u32 flags "flags"
    return fid ++ flags
  | .rlopen qid iounit | .rlcreate qid iounit => do
    let qid ← writeQid qid "qid"
    let iounit ← u32 iounit "iounit"
    return qid ++ iounit
  | .tlcreate fid name flags mode gid => do
    let fid ← u32 fid "fid"
    let name ← string name "name"
    let flags ← u32 flags "flags"
    let mode ← u32 mode "mode"
    let gid ← u32 gid "gid"
    return fid ++ name ++ flags ++ mode ++ gid
  | .tsymlink fid name symtgt gid => do
    let fid ← u32 fid "fid"
    let name ← string name "name"
    let symtgt ← string symtgt "symtgt"
    let gid ← u32 gid "gid"
    return fid ++ name ++ symtgt ++ gid
  | .treadlink fid | .tclunk fid | .tremove fid => u32 fid "fid"
  | .rreadlink target => string target "target"
  | .tgetattr fid requestMask => do
    let fid ← u32 fid "fid"
    let requestMask ← u64 requestMask "requestMask"
    return fid ++ requestMask
  | .rgetattr attributes => writeAttributes attributes
  | .tsetattr fid valid mode uid gid size atimeSec atimeNsec mtimeSec mtimeNsec => do
    let fid ← u32 fid "fid"
    let valid ← u32 valid "valid"
    let mode ← u32 mode "mode"
    let uid ← u32 uid "uid"
    let gid ← u32 gid "gid"
    let size ← u64 size "size"
    let atimeSec ← u64 atimeSec "atimeSec"
    let atimeNsec ← u64 atimeNsec "atimeNsec"
    let mtimeSec ← u64 mtimeSec "mtimeSec"
    let mtimeNsec ← u64 mtimeNsec "mtimeNsec"
    return fid ++ valid ++ mode ++ uid ++ gid ++ size ++ atimeSec ++ atimeNsec ++ mtimeSec
      ++ mtimeNsec
  | .treaddir fid offset count | .tread fid offset count => do
    let fid ← u32 fid "fid"
    let offset ← u64 offset "offset"
    let count ← u32 count "count"
    return fid ++ offset ++ count
  | .rreaddir entries => do
    let block ← encodeDirEntries entries
    writeCounted block
  | .tlink dfid fid name => do
    let dfid ← u32 dfid "dfid"
    let fid ← u32 fid "fid"
    let name ← string name "name"
    return dfid ++ fid ++ name
  | .tmkdir dfid name mode gid => do
    let dfid ← u32 dfid "dfid"
    let name ← string name "name"
    let mode ← u32 mode "mode"
    let gid ← u32 gid "gid"
    return dfid ++ name ++ mode ++ gid
  | .trename fid dfid name => do
    let fid ← u32 fid "fid"
    let dfid ← u32 dfid "dfid"
    let name ← string name "name"
    return fid ++ dfid ++ name
  | .trenameat olddirfid oldname newdirfid newname => do
    let olddirfid ← u32 olddirfid "olddirfid"
    let oldname ← string oldname "oldname"
    let newdirfid ← u32 newdirfid "newdirfid"
    let newname ← string newname "newname"
    return olddirfid ++ oldname ++ newdirfid ++ newname
  | .tunlinkat dirfid name flags => do
    let dirfid ← u32 dirfid "dirfid"
    let name ← string name "name"
    let flags ← u32 flags "flags"
    return dirfid ++ name ++ flags
  | .rread data => writeCounted data
  | .twrite fid offset data => do
    let fid ← u32 fid "fid"
    let offset ← u64 offset "offset"
    let data ← writeCounted data
    return fid ++ offset ++ data
  | .rwrite count => u32 count "count"
  | .rflush | .rsetattr | .rlink | .rrename | .rrenameat | .runlinkat | .rclunk | .rremove =>
    .ok []

/-! ## Framing -/

structure DecodeOptions where
  msize : Option Nat

def DecodeOptions.limit (options : DecodeOptions) : Nat := options.msize.getD msizeCeiling

def checkDeclaredSize (size : Number) (msize : Nat) : Result Unit :=
  if size.below headerBytes then fail .headerFloor "size"
  else if size.above msizeCeiling then fail .overCeiling "size"
  else if size.above msize then fail .overMsize "size"
  else .ok ()

open Reader in
/-- One message, after its size. -/
def readMessage (msize : Nat) : FieldReader Message := do
  let opcode ← u8 "type"
  match nameByOpcode opcode with
  | none =>
    if opcode ∈ knownOpcodesNotInProfile.map Number.ofNat then
      fail .messageTypeNotInProfile "type"
    else fail .unknownMessageType "type"
  | some kind => do
    let tag ← u16 "tag"
    checkTag kind tag
    let body ← decodeBody kind
    let rest ← get
    -- nothing may follow the body
    if rest ≠ [] then fail .trailingBytes "body"
    else do
      checkCounts { tag, body } msize
      return { tag, body }

open Reader in
def decodeFrame (bytes : List UInt8) (msize : Nat) : Result Message := do
  let (size, rest) ← (u32 "size").run bytes
  checkDeclaredSize size msize
  if size ≠ .ofNat bytes.length then fail .sizeDisagreesWithBuffer "size"
  else do
    let (message, _) ← (readMessage msize).run rest
    return message

open Reader in
def decodeExact (bytes : List UInt8) (options : DecodeOptions) : Result Message :=
  let msize := options.limit
  if bytes.length < 4 then fail .truncatedBody "size"
  else do
    let (size, _) ← (u32 "size").run bytes
    checkDeclaredSize size msize
    if size.above bytes.length then fail .truncatedBody "body"
    else if size.below bytes.length then fail .trailingBytes "frame"
    else decodeFrame bytes msize

def encode (message : Message) (options : DecodeOptions) : Result (List UInt8) := do
  let msize := options.limit
  checkTag message.kind message.tag
  checkCounts message msize
  let body ← encodeBody message.body
  let size := headerBytes + body.length
  checkDeclaredSize (.ofNat size) msize
  let size ← u32 (.ofNat size) "u32"
  let type ← u8 (.ofNat (opcodeOf message.kind)) "u8"
  let tag ← u16 message.tag "tag"
  return size ++ type ++ tag ++ body

end AgentUplink.Client
