import AgentUplink.Fs.Profile

/-!
# The messages of the 9P2000.L profile

A message type's code is the byte on the wire, and its low bit the direction: requests
are even, replies odd.
-/

namespace AgentUplink.NineP

def dialect : String := "9P2000.L"

/-- The largest `msize` that is ever negotiated. -/
def maxMessageBytes : UInt32 := 65536

/-- The reserved tag of the version handshake. -/
def notag : UInt16 := 0xFFFF

def nofid : UInt32 := 0xFFFFFFFF

def nonuname : UInt32 := 0xFFFFFFFF

inductive QidKind
  | file
  | directory
  | symlink
  deriving DecidableEq

structure Qid where
  kind : QidKind
  version : UInt32
  path : UInt64
  deriving DecidableEq

inductive FsErrorCode
  | enoent
  | eacces
  | eperm
  | erofs
  | eexist
  | enotdir
  | eisdir
  | enotempty
  | eloop
  | exdev
  | enotsup
  | efbig
  | enametoolong
  | einval
  deriving DecidableEq

inductive MessageType
  | rlerror
  | tlopen
  | rlopen
  | tlcreate
  | rlcreate
  | tsymlink
  | rsymlink
  | trename
  | rrename
  | treadlink
  | rreadlink
  | tgetattr
  | rgetattr
  | tsetattr
  | rsetattr
  | treaddir
  | rreaddir
  | tlink
  | rlink
  | tmkdir
  | rmkdir
  | trenameat
  | rrenameat
  | tunlinkat
  | runlinkat
  | tversion
  | rversion
  | tattach
  | rattach
  | tflush
  | rflush
  | twalk
  | rwalk
  | tread
  | rread
  | twrite
  | rwrite
  | tclunk
  | rclunk
  | tremove
  | rremove
  deriving DecidableEq

namespace MessageType

def code : MessageType → UInt8
  | rlerror => 7
  | tlopen => 12
  | rlopen => 13
  | tlcreate => 14
  | rlcreate => 15
  | tsymlink => 16
  | rsymlink => 17
  | trename => 20
  | rrename => 21
  | treadlink => 22
  | rreadlink => 23
  | tgetattr => 24
  | rgetattr => 25
  | tsetattr => 26
  | rsetattr => 27
  | treaddir => 40
  | rreaddir => 41
  | tlink => 70
  | rlink => 71
  | tmkdir => 72
  | rmkdir => 73
  | trenameat => 74
  | rrenameat => 75
  | tunlinkat => 76
  | runlinkat => 77
  | tversion => 100
  | rversion => 101
  | tattach => 104
  | rattach => 105
  | tflush => 108
  | rflush => 109
  | twalk => 110
  | rwalk => 111
  | tread => 116
  | rread => 117
  | twrite => 118
  | rwrite => 119
  | tclunk => 120
  | rclunk => 121
  | tremove => 122
  | rremove => 123

def isRequest (type : MessageType) : Bool := type.code % 2 == 0

end MessageType

structure Attributes where
  valid : UInt64
  qid : Qid
  mode : UInt32
  uid : UInt32
  gid : UInt32
  nlink : UInt64
  rdev : UInt64
  size : UInt64
  blksize : UInt64
  blocks : UInt64
  atimeSec : UInt64
  atimeNsec : UInt64
  mtimeSec : UInt64
  mtimeNsec : UInt64
  ctimeSec : UInt64
  ctimeNsec : UInt64
  btimeSec : UInt64
  btimeNsec : UInt64
  generation : UInt64
  dataVersion : UInt64
  deriving DecidableEq

inductive Message
  | rlerror (code : FsErrorCode)
  | tversion (msize : UInt32) (version : String)
  | rversion (msize : UInt32) (version : String)
  | tattach (fid afid : UInt32) (uname aname : String) (nUname : UInt32)
  | rattach (qid : Qid)
  | tflush (oldtag : UInt16)
  | rflush
  | twalk (fid newfid : UInt32) (names : List String)
  | rwalk (qids : List Qid)
  | tlopen (fid flags : UInt32)
  | rlopen (qid : Qid) (iounit : UInt32)
  | tlcreate (fid : UInt32) (name : String) (flags mode gid : UInt32)
  | rlcreate (qid : Qid) (iounit : UInt32)
  | tsymlink (fid : UInt32) (name target : String) (gid : UInt32)
  | rsymlink (qid : Qid)
  | treadlink (fid : UInt32)
  | rreadlink (target : String)
  | tgetattr (fid : UInt32) (requestMask : UInt64)
  | rgetattr (attributes : Attributes)
  | tsetattr (fid valid mode uid gid : UInt32)
      (size atimeSec atimeNsec mtimeSec mtimeNsec : UInt64)
  | rsetattr
  | treaddir (fid : UInt32) (offset : UInt64) (count : UInt32)
  | rreaddir (data : List UInt8)
  | tlink (dfid fid : UInt32) (name : String)
  | rlink
  | tmkdir (dfid : UInt32) (name : String) (mode gid : UInt32)
  | rmkdir (qid : Qid)
  | trename (fid dfid : UInt32) (name : String)
  | rrename
  | trenameat (olddirfid : UInt32) (oldname : String) (newdirfid : UInt32) (newname : String)
  | rrenameat
  | tunlinkat (dirfid : UInt32) (name : String) (flags : UInt32)
  | runlinkat
  | tread (fid : UInt32) (offset : UInt64) (count : UInt32)
  | rread (data : List UInt8)
  | twrite (fid : UInt32) (offset : UInt64) (data : List UInt8)
  | rwrite (count : UInt32)
  | tclunk (fid : UInt32)
  | rclunk
  | tremove (fid : UInt32)
  | rremove
  deriving DecidableEq

namespace Message

def messageType : Message → MessageType
  | rlerror .. => .rlerror
  | tversion .. => .tversion
  | rversion .. => .rversion
  | tattach .. => .tattach
  | rattach .. => .rattach
  | tflush .. => .tflush
  | rflush => .rflush
  | twalk .. => .twalk
  | rwalk .. => .rwalk
  | tlopen .. => .tlopen
  | rlopen .. => .rlopen
  | tlcreate .. => .tlcreate
  | rlcreate .. => .rlcreate
  | tsymlink .. => .tsymlink
  | rsymlink .. => .rsymlink
  | treadlink .. => .treadlink
  | rreadlink .. => .rreadlink
  | tgetattr .. => .tgetattr
  | rgetattr .. => .rgetattr
  | tsetattr .. => .tsetattr
  | rsetattr => .rsetattr
  | treaddir .. => .treaddir
  | rreaddir .. => .rreaddir
  | tlink .. => .tlink
  | rlink => .rlink
  | tmkdir .. => .tmkdir
  | rmkdir .. => .rmkdir
  | trename .. => .trename
  | rrename => .rrename
  | trenameat .. => .trenameat
  | rrenameat => .rrenameat
  | tunlinkat .. => .tunlinkat
  | runlinkat => .runlinkat
  | tread .. => .tread
  | rread .. => .rread
  | twrite .. => .twrite
  | rwrite .. => .rwrite
  | tclunk .. => .tclunk
  | rclunk => .rclunk
  | tremove .. => .tremove
  | rremove => .rremove

def isRequest (message : Message) : Bool := message.messageType.isRequest

end Message

structure Frame where
  tag : UInt16
  message : Message
  deriving DecidableEq

namespace Frame

def messageType (frame : Frame) : MessageType := frame.message.messageType

end Frame

/-! ## Framing errors -/

inductive StringField
  | version
  | uname
  | aname
  | walkName
  | name
  | oldName
  | newName
  | symlinkTarget
  | linkTarget
  | dirEntryName
  deriving DecidableEq

inductive CodecError
  | frameBelowHeader
  | frameAboveMsize
  | frameAboveCeiling
  | truncatedBody
  | trailingBytes
  | unknownMessageType (code : UInt8)
  | messageTypeNotInProfile (code : UInt8)
  | stringNotUtf8 (field : StringField)
  | stringTooLong (field : StringField)
  | countAboveMsize
  | tooManyWalkNames
  | notagNotPermitted
  | notagRequired
  | qidTypeNotInProfile
  | errnoNotInVocabulary
  | malformedDirEntry
  deriving DecidableEq

/-- The version handshake uses the reserved tag and nothing else may. Encoding and
decoding both apply this. -/
def checkTag (type : MessageType) (tag : UInt16) : Except CodecError Unit :=
  match type == .tversion || type == .rversion, tag == notag with
  | true, true => .ok ()
  | false, false => .ok ()
  | true, false => .error .notagRequired
  | false, true => .error .notagNotPermitted

theorem checkTag_eq_ok {type : MessageType} {tag : UInt16} :
    checkTag type tag = .ok () ↔ ((type = .tversion ∨ type = .rversion) ↔ tag = notag) := by
  unfold checkTag
  cases htype : type == .tversion || type == .rversion <;> cases htag : tag == notag <;>
    simp_all

end AgentUplink.NineP
