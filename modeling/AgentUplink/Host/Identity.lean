import AgentUplink.NineP.Message

/-!
# Host files and the policy of an export

What the host says about a node is its identity: the device and inode that make it one
file, and its kind. A host error is translated into the closed vocabulary of the profile.
-/

namespace AgentUplink.Host

open NineP (FsErrorCode)

inductive FileKind
  | directory
  | regularFile
  | symlink
  | fifo
  | socket
  | characterDevice
  | blockDevice
  | unknown
  deriving DecidableEq

def FileKind.isExportable : FileKind → Bool
  | directory | regularFile => true
  | _ => false

structure FileIdentity where
  device : Int
  inode : Int
  kind : FileKind

namespace FileIdentity

def isSameDevice (a b : FileIdentity) : Bool := a.device = b.device

/-- The low sixteen bytes of a number, the least significant first, folded into a hash. -/
def foldBytes (hash : UInt64) (value : Int) : UInt64 :=
  (List.range 16).foldl
    (fun hash index =>
      (hash ^^^ UInt64.ofNat ((value >>> (8 * index)) % 256).toNat) * 0x00000100000001b3)
    hash

/-- The device and the inode in one scoped number. -/
def qidPath (identity : FileIdentity) : UInt64 :=
  foldBytes (foldBytes 0xcbf29ce484222325 identity.device) identity.inode

end FileIdentity

/-- A host error, by meaning rather than by number. -/
inductive Errno
  | noent
  | access
  | perm
  | rofs
  | exist
  | notdir
  | isdir
  | notempty
  | loop
  | xdev
  | notsup
  | opnotsupp
  | fbig
  | nametoolong
  | other (code : Nat)
  deriving DecidableEq

/-- What is not in the vocabulary becomes `einval`. -/
def codeFromErrno : Errno → FsErrorCode
  | .noent => .enoent
  | .access => .eacces
  | .perm => .eperm
  | .rofs => .erofs
  | .exist => .eexist
  | .notdir => .enotdir
  | .isdir => .eisdir
  | .notempty => .enotempty
  | .loop => .eloop
  | .xdev => .exdev
  | .notsup | .opnotsupp => .enotsup
  | .fbig => .efbig
  | .nametoolong => .enametoolong
  | .other _ => .einval

inductive LimitField
  | maxTraversalEntries
  deriving DecidableEq

inductive FsError
  /-- A failure before anything was dispatched to the host. -/
  | refused (code : FsErrorCode)
  | limit (field : LimitField)
  deriving DecidableEq

def hostError (errno : Errno) : FsError := .refused (codeFromErrno errno)

def checkExportable (kind : FileKind) : Except FsError Unit :=
  if kind.isExportable then .ok () else .error (.refused .enotsup)

/-- An export is one host filesystem. -/
def checkSameDevice (root entry : FileIdentity) : Except FsError Unit :=
  if root.isSameDevice entry then .ok () else .error (.refused .exdev)

end AgentUplink.Host
