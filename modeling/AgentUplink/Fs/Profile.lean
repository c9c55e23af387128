import AgentUplink.Fs.Path

/-!
# Grants, primitives and limits of a filesystem export

A grant is a set of capabilities. Each 9P primitive names the capabilities and the
provider feature it needs. The limits of a session are fixed when it is admitted.
-/

namespace AgentUplink.Fs

inductive Capability
  | read
  | write
  | list
  | delete
  deriving DecidableEq

def Capability.bit : Capability → UInt8
  | read => 0b0001
  | write => 0b0010
  | list => 0b0100
  | delete => 0b1000

/-- A set of granted capabilities, one bit for each. -/
structure CapabilitySet where
  bits : UInt8

namespace CapabilitySet

def deny : CapabilitySet := ⟨0⟩

def grant (set : CapabilitySet) (capability : Capability) : CapabilitySet :=
  ⟨set.bits ||| capability.bit⟩

def allowsAll (set required : CapabilitySet) : Bool := set.bits &&& required.bits == required.bits

def isEmpty (set : CapabilitySet) : Bool := set.bits == 0

end CapabilitySet

inductive Feature
  | atomicRename
  | nativeAppend
  | exclusiveCreate
  | symlinks
  | hardLinks
  | birthTime
  | fsync
  deriving DecidableEq

def Feature.index : Feature → UInt8
  | atomicRename => 0
  | nativeAppend => 1
  | exclusiveCreate => 2
  | symlinks => 3
  | hardLinks => 4
  | birthTime => 5
  | fsync => 6

structure FeatureSet where
  bits : UInt8

def FeatureSet.has (set : FeatureSet) (feature : Feature) : Bool :=
  set.bits &&& (1 <<< feature.index) != 0

/-- A primitive as the provider authorizes it. -/
inductive Primitive
  | version
  | attach
  | flush
  | clunk
  | walk
  | getattr
  | readdir
  | readlink
  | openRead
  | openDir
  | openWrite
  | openTruncate
  | create
  | read
  | write
  | mkdir
  | unlink
  | removeDir
  | rename
  | setattrSize
  | setattrMode
  | setattrTimes
  | symlink
  | link
  deriving DecidableEq

namespace Primitive

def requiredCapabilities : Primitive → CapabilitySet
  | version | attach | flush | clunk | walk => .deny
  | getattr | readdir | openDir => CapabilitySet.deny.grant .list
  | readlink | openRead | read => CapabilitySet.deny.grant .read
  | openWrite | openTruncate | create | write | mkdir | setattrSize | setattrMode | setattrTimes
  | symlink | link => CapabilitySet.deny.grant .write
  | unlink | removeDir => CapabilitySet.deny.grant .delete
  | rename => (CapabilitySet.deny.grant .write).grant .delete

def requiredFeature : Primitive → Option Feature
  | symlink | readlink => some .symlinks
  | link => some .hardLinks
  | rename => some .atomicRename
  | _ => none

def isPermitted (primitive : Primitive) (grant : CapabilitySet) (features : FeatureSet) : Bool :=
  if grant.isEmpty then false
  else if primitive.requiredFeature.any fun feature => !features.has feature then false
  else grant.allowsAll primitive.requiredCapabilities

end Primitive

/-- Whether a session may be admitted for a grant: not for the empty one. -/
def admitsSession (grant : CapabilitySet) : Bool := !grant.isEmpty

/-! ## Limits -/

def maxMessageBytesCeiling : Nat := 65536

def minMessageBytes : Nat := 256

def maxInflightRequestsCeiling : Nat := 64

def maxFidsCeiling : Nat := 256

def maxPathBytesCeiling : Nat := 4096

def maxPathComponentsCeiling : Nat := 256

/-- The limits of a session. Every one is positive and at most its ceiling. -/
structure Limits where
  maxMessageBytes : Nat
  maxInflightRequests : Nat
  maxFids : Nat
  maxPathBytes : Nat
  maxPathComponents : Nat
  messageBytes_bounds : minMessageBytes ≤ maxMessageBytes ∧ maxMessageBytes ≤ maxMessageBytesCeiling
  inflightRequests_bounds :
    0 < maxInflightRequests ∧ maxInflightRequests ≤ maxInflightRequestsCeiling
  fids_bounds : 0 < maxFids ∧ maxFids ≤ maxFidsCeiling
  pathBytes_bounds : 0 < maxPathBytes ∧ maxPathBytes ≤ maxPathBytesCeiling
  pathComponents_bounds : 0 < maxPathComponents ∧ maxPathComponents ≤ maxPathComponentsCeiling

namespace Limits

/-- Every limit at its ceiling. -/
def profileDefault : Limits where
  maxMessageBytes := maxMessageBytesCeiling
  maxInflightRequests := maxInflightRequestsCeiling
  maxFids := maxFidsCeiling
  maxPathBytes := maxPathBytesCeiling
  maxPathComponents := maxPathComponentsCeiling
  messageBytes_bounds := by decide
  inflightRequests_bounds := by decide
  fids_bounds := by decide
  pathBytes_bounds := by decide
  pathComponents_bounds := by decide

def pathBounds (limits : Limits) : PathBounds where
  maxBytes := limits.maxPathBytes
  maxComponents := limits.maxPathComponents
  maxBytes_pos := limits.pathBytes_bounds.1
  maxComponents_pos := limits.pathComponents_bounds.1

end Limits

end AgentUplink.Fs
