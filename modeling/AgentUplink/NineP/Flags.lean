import AgentUplink.NineP.Message

/-!
# Flag words and the primitives they require

The numbers are Linux's, whatever system serves the export. A bit outside the
accepted mask is refused, never ignored.
-/

namespace AgentUplink.NineP

open Fs (PathRule Primitive VirtualPath)

inductive SessionError
  | beforeVersion
  | beforeAttach
  | repeatedVersion
  | repeatedAttach
  | unsupportedDialect
  | msizeBelowFloor
  | msizeNotAReduction
  | midFrame
  | attachFieldNotPermitted
  | tagInUse
  | tagNotInUse
  | tagReservedByFlush
  | tagQuotaExhausted
  | unknownFid
  | fidInUse
  | fidQuotaExhausted
  | fidIsOpen
  | fidNotOpen
  | fidWrongKind
  | notPermitted
  | flagNotInProfile
  | unexpectedReply
  | malformedReply
  | path (rule : PathRule)
  | closed
  deriving DecidableEq

def oRdonly : UInt32 := 0o0

def oWronly : UInt32 := 0o1

def oRdwr : UInt32 := 0o2

def oAccmode : UInt32 := 0o3

def oExcl : UInt32 := 0o200

def oTrunc : UInt32 := 0o1000

def oAppend : UInt32 := 0o2000

def oDirectory : UInt32 := 0o200000

def oNofollow : UInt32 := 0o400000

def openFlagsAllowed : UInt32 := oAccmode ||| oTrunc ||| oAppend ||| oDirectory ||| oNofollow

def createFlagsAllowed : UInt32 := oAccmode ||| oTrunc ||| oAppend ||| oExcl

def setattrMode : UInt32 := 0x001

def setattrSize : UInt32 := 0x008

def setattrAtime : UInt32 := 0x010

def setattrMtime : UInt32 := 0x020

def setattrAtimeSet : UInt32 := 0x080

def setattrMtimeSet : UInt32 := 0x100

def setattrTimes : UInt32 := setattrAtime ||| setattrMtime ||| setattrAtimeSet ||| setattrMtimeSet

def setattrAllowed : UInt32 := setattrMode ||| setattrSize ||| setattrTimes

def atRemovedir : UInt32 := 0x200

def getattrAll : UInt64 := 0x3FFF

/-- The primitives one request requires, at most four, in the order they were added. -/
structure Primitives where
  items : List Primitive

namespace Primitives

def empty : Primitives := ⟨[]⟩

def one (primitive : Primitive) : Primitives := ⟨[primitive]⟩

/-- Add a primitive, ignoring a repeat. A full set stays as it is. -/
def add (set : Primitives) (primitive : Primitive) : Primitives :=
  if primitive ∈ set.items then set
  else if set.items.length < 4 then ⟨set.items ++ [primitive]⟩
  else set

def addIf (set : Primitives) (c : Bool) (primitive : Primitive) : Primitives :=
  if c then set.add primitive else set

end Primitives

variable (flags : UInt32)

def openPrimitives (isDirectory : Bool) : Except SessionError Primitives :=
  if flags &&& ~~~openFlagsAllowed ≠ 0 then .error .flagNotInProfile
  else
    let access := flags &&& oAccmode
    if access = oAccmode then .error .flagNotInProfile
    else
      let writing := access == oWronly || access == oRdwr
      let mutating := writing || flags &&& (oTrunc ||| oAppend) != 0
      let directory := isDirectory || flags &&& oDirectory != 0
      if directory && mutating then .error .flagNotInProfile
      else if !writing && flags &&& (oTrunc ||| oAppend) != 0 then .error .flagNotInProfile
      else if directory then .ok (.one .openDir)
      else
        .ok (((Primitives.empty.addIf (access == oRdonly || access == oRdwr) .openRead).addIf
          writing .openWrite).addIf (flags &&& oTrunc != 0) .openTruncate)

def createPrimitives : Except SessionError Primitives :=
  if flags &&& ~~~createFlagsAllowed ≠ 0 then .error .flagNotInProfile
  else
    let access := flags &&& oAccmode
    if access = oAccmode ∨ access = oRdonly then .error .flagNotInProfile
    else
      .ok ((((Primitives.one .create).add .openWrite).addIf (access == oRdwr) .openRead).addIf
        (flags &&& oTrunc != 0) .openTruncate)

def setattrPrimitives (valid : UInt32) : Except SessionError Primitives :=
  if valid = 0 ∨ valid &&& ~~~setattrAllowed ≠ 0 then .error .flagNotInProfile
  else
    .ok (((Primitives.empty.addIf (valid &&& setattrMode != 0) .setattrMode).addIf
      (valid &&& setattrSize != 0) .setattrSize).addIf (valid &&& setattrTimes != 0) .setattrTimes)

def unlinkatPrimitives : Except SessionError Primitives :=
  if flags = 0 then .ok (.one .unlink)
  else if flags = atRemovedir then .ok (.one .removeDir)
  else .error .flagNotInProfile

def getattrPrimitives (requestMask : UInt64) : Except SessionError Primitives :=
  if requestMask = 0 ∨ requestMask &&& ~~~getattrAll ≠ 0 then .error .flagNotInProfile
  else .ok (.one .getattr)

structure OpenMode where
  read : Bool
  write : Bool
  directory : Bool

def openMode (isDirectory : Bool) : OpenMode :=
  let access := flags &&& oAccmode
  { read := access == oRdonly || access == oRdwr
    write := access == oWronly || access == oRdwr || flags &&& (oTrunc ||| oAppend) != 0
    directory := isDirectory }

end AgentUplink.NineP
