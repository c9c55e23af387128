import AgentUplink.NineP.Message

/-!
# The 9P messages of the client

The client has a 9P codec of its own, written in TypeScript. Its integers of up to 32 bits are
JavaScript numbers, its 64-bit integers `BigInt`s, and a field may hold any of them until it is
written. A string is a sequence of Unicode characters.
-/

namespace AgentUplink.Client

/-- A JavaScript number. The finite ones are rationals. -/
inductive Number
  | finite (value : ℚ)
  | infinite
  | negativeInfinite
  | nan
  deriving DecidableEq

namespace Number

def ofNat (n : Nat) : Number := .finite n

def isInteger : Number → Bool
  | finite value => value.den = 1
  | _ => false

def below (number : Number) (bound : Nat) : Bool :=
  match number with
  | finite value => value < (bound : ℚ)
  | negativeInfinite => true
  | _ => false

def above (number : Number) (bound : Nat) : Bool :=
  match number with
  | finite value => (bound : ℚ) < value
  | infinite => true
  | _ => false

/-- The value of a number that is checked to be an unsigned integer. -/
def toNat : Number → Nat
  | finite value => value.num.toNat
  | _ => 0

end Number

abbrev MessageName := NineP.MessageType

structure Qid where
  type : Number
  version : Number
  path : Int
  deriving DecidableEq

structure DirEntry where
  qid : Qid
  offset : Int
  type : Number
  name : String
  deriving DecidableEq

structure Attributes where
  valid : Int
  qid : Qid
  mode : Number
  uid : Number
  gid : Number
  nlink : Int
  rdev : Int
  size : Int
  blksize : Int
  blocks : Int
  atimeSec : Int
  atimeNsec : Int
  mtimeSec : Int
  mtimeNsec : Int
  ctimeSec : Int
  ctimeNsec : Int
  btimeSec : Int
  btimeNsec : Int
  gen : Int
  dataVersion : Int
  deriving DecidableEq

/-- What a message says beside its kind and its tag. -/
inductive Body
  | rlerror (ecode : Number)
  | tversion (msize : Number) (version : String)
  | rversion (msize : Number) (version : String)
  | tattach (fid afid : Number) (uname aname : String) (nUname : Number)
  | rattach (qid : Qid)
  | tflush (oldtag : Number)
  | rflush
  | twalk (fid newfid : Number) (wnames : List String)
  | rwalk (wqids : List Qid)
  | tlopen (fid flags : Number)
  | rlopen (qid : Qid) (iounit : Number)
  | tlcreate (fid : Number) (name : String) (flags mode gid : Number)
  | rlcreate (qid : Qid) (iounit : Number)
  | tsymlink (fid : Number) (name symtgt : String) (gid : Number)
  | rsymlink (qid : Qid)
  | treadlink (fid : Number)
  | rreadlink (target : String)
  | tgetattr (fid : Number) (requestMask : Int)
  | rgetattr (attributes : Attributes)
  | tsetattr (fid valid mode uid gid : Number)
      (size atimeSec atimeNsec mtimeSec mtimeNsec : Int)
  | rsetattr
  | treaddir (fid : Number) (offset : Int) (count : Number)
  | rreaddir (entries : List DirEntry)
  | tlink (dfid fid : Number) (name : String)
  | rlink
  | tmkdir (dfid : Number) (name : String) (mode gid : Number)
  | rmkdir (qid : Qid)
  | trename (fid dfid : Number) (name : String)
  | rrename
  | trenameat (olddirfid : Number) (oldname : String) (newdirfid : Number) (newname : String)
  | rrenameat
  | tunlinkat (dirfid : Number) (name : String) (flags : Number)
  | runlinkat
  | tread (fid : Number) (offset : Int) (count : Number)
  | rread (data : List UInt8)
  | twrite (fid : Number) (offset : Int) (data : List UInt8)
  | rwrite (count : Number)
  | tclunk (fid : Number)
  | rclunk
  | tremove (fid : Number)
  | rremove
  deriving DecidableEq

def Body.kind : Body → MessageName
  | rlerror .. => .rlerror
  | tversion .. => .tversion
  | rversion .. => .rversion
  | tattach .. => .tattach
  | rattach .. => .rattach
  | tflush .. => .tflush
  | rflush => .rflush
  | twalk .. => .twalk
  | rwalk .. => .rwalk
  | tlopen .. => .tlopen
  | rlopen .. => .rlopen
  | tlcreate .. => .tlcreate
  | rlcreate .. => .rlcreate
  | tsymlink .. => .tsymlink
  | rsymlink .. => .rsymlink
  | treadlink .. => .treadlink
  | rreadlink .. => .rreadlink
  | tgetattr .. => .tgetattr
  | rgetattr .. => .rgetattr
  | tsetattr .. => .tsetattr
  | rsetattr => .rsetattr
  | treaddir .. => .treaddir
  | rreaddir .. => .rreaddir
  | tlink .. => .tlink
  | rlink => .rlink
  | tmkdir .. => .tmkdir
  | rmkdir .. => .rmkdir
  | trename .. => .trename
  | rrename => .rrename
  | trenameat .. => .trenameat
  | rrenameat => .rrenameat
  | tunlinkat .. => .tunlinkat
  | runlinkat => .runlinkat
  | tread .. => .tread
  | rread .. => .rread
  | twrite .. => .twrite
  | rwrite .. => .rwrite
  | tclunk .. => .tclunk
  | rclunk => .rclunk
  | tremove .. => .tremove
  | rremove => .rremove

structure Message where
  tag : Number
  body : Body
  deriving DecidableEq

def Message.kind (message : Message) : MessageName := message.body.kind

inductive NinepErrorReason
  | headerFloor
  | overCeiling
  | overMsize
  | truncatedBody
  | trailingBytes
  | sizeDisagreesWithBuffer
  | unknownMessageType
  | messageTypeNotInProfile
  | notagRequired
  | notagForbidden
  | invalidUtf8
  | qidType
  | direntTypeDisagreesWithQid
  | errnoNotInVocabulary
  | tooManyWalkElements
  | countAboveMsize
  | malformedDirentBlock
  | fieldOutOfRange
  | fieldTooLarge
  | tagOutOfRange
  deriving DecidableEq

structure NinepError where
  reason : NinepErrorReason
  field : String

end AgentUplink.Client
