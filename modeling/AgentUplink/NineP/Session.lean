/-
The 9P session as a state machine.

A request is classified, reserves the fid it will bind and takes its tag. State is
applied on the reply, never on the request: an `Rwalk` binds `newfid`, an `Rlopen`
opens a fid. A fid number may be bound again while a request that named its old
binding is outstanding, so every binding carries a generation and a reply applies only
to the generation its request was admitted against.

A tag is held until every flush outstanding against it has been answered or cancelled.
-/
import AgentUplink.Lib.Machine
import AgentUplink.NineP.Flags

namespace AgentUplink.NineP

open Std
open Fs (CapabilitySet FeatureSet Limits PathBounds Primitive VirtualPath)

def minMsize : UInt32 := 256

def negotiate (offeredMsize : UInt32) (offeredVersion : String) (maximum : UInt32) :
    Except SessionError UInt32 :=
  if offeredVersion ≠ dialect then .error .unsupportedDialect
  else
    let negotiated := min (min offeredMsize maximum) maxMessageBytes
    if negotiated < minMsize then .error .msizeBelowFloor else .ok negotiated

inductive Phase
  | awaitingVersion
  | versioned
  | attached
  | closed
  deriving DecidableEq

structure FidState where
  path : VirtualPath
  qid : Qid
  openMode : Option OpenMode
  generation : Nat

def FidState.isDirectory (state : FidState) : Bool := state.qid.kind == .directory

inductive RequestPaths
  | session
  | node (path : VirtualPath)
  | walk (origin destination : VirtualPath)
  | child (parent child : VirtualPath)
  | pair (source destination : VirtualPath)
  deriving DecidableEq

structure Accepted where
  primitives : Primitives
  paths : RequestPaths
  negotiatedMsize : Option UInt32

/-- What a successful reply does to the fid table. The generations are those the fids
carried when the request was admitted. -/
inductive Effect
  | none
  | attach (fid : UInt32)
  | walk (origin : UInt32) (originGeneration : Nat) (newfid : UInt32) (destination : VirtualPath)
      (names : Nat) (reserved : Bool)
  | openFid (fid : UInt32) (generation : Nat) (mode : OpenMode)
  | create (fid : UInt32) (generation : Nat) (child : VirtualPath) (mode : OpenMode)
  | release (fid : UInt32) (generation : Nat)
  | countedReply (limit : UInt32)

def Effect.isAttach : Effect → Bool
  | .attach _ => true
  | _ => false

/-- One outstanding tag. `flushedBy` are the flushes outstanding against it, `flushing` is
the tag it flushes, if it is a flush itself. -/
structure TagState where
  messageType : MessageType
  effect : Effect
  flushedBy : Finset UInt16
  answered : Bool
  flushing : Option UInt16

inductive FlushOutcome
  | answered
  | cancelled
  deriving DecidableEq

abbrev Tags := ExtTreeMap UInt16 TagState

structure Session where
  phase : Phase
  grant : CapabilitySet
  features : FeatureSet
  limits : Limits
  bounds : PathBounds
  msize : UInt32
  pendingMsize : Option UInt32
  tags : Tags
  fids : ExtTreeMap UInt32 FidState
  reservedFids : ExtTreeMap UInt32 VirtualPath
  nextGeneration : Nat

def Message.flushing : Message → Option UInt16
  | .tflush oldtag => some oldtag
  | _ => .none

namespace Session

def new (grant : CapabilitySet) (features : FeatureSet) (limits : Limits) : Option Session :=
  if !Fs.admitsSession grant then .none
  else
    some
      { phase := .awaitingVersion, grant, features, limits, bounds := limits.pathBounds
        msize := UInt32.ofNat limits.maxMessageBytes, pendingMsize := .none, tags := ∅, fids := ∅
        reservedFids := ∅, nextGeneration := 0 }

variable (s : Session)

def outstandingTags : Nat := s.tags.size

def liveFids : Nat := s.fids.size + s.reservedFids.size

def close : Session :=
  { s with phase := .closed, tags := ∅, fids := ∅, reservedFids := ∅ }

/-! ## Classification -/

def requireFid (fid : UInt32) : Except SessionError FidState :=
  if fid = nofid then .error .unknownFid
  else
    match s.fids[fid]? with
    | some state => .ok state
    | .none => .error .unknownFid

/-- Whether a `Tattach` is outstanding with no reply yet. -/
def attachOutstanding : Bool :=
  s.tags.toList.any fun entry => entry.2.effect.isAttach

def joinPath (path : VirtualPath) (name : String) : Except SessionError VirtualPath :=
  (path.join name s.bounds).mapError .path

def refuseIf (c : Prop) [Decidable c] (e : SessionError) : Except SessionError Unit :=
  if c then .error e else .ok ()

section

variable (primitives : Primitives)

def node (path : VirtualPath) : Accepted :=
  { primitives, paths := .node path, negotiatedMsize := .none }

def child (parent child : VirtualPath) : Accepted :=
  { primitives, paths := .child parent child, negotiatedMsize := .none }

def pair (source destination : VirtualPath) : Accepted :=
  { primitives, paths := .pair source destination, negotiatedMsize := .none }

end

def requireOpen (state : FidState) : Except SessionError OpenMode :=
  match state.openMode with
  | some mode => .ok mode
  | .none => .error .fidNotOpen

variable (frame : Frame)

def classifyAttached : Except SessionError (Accepted × Effect) :=
  match s.phase with
  | .awaitingVersion => .error .beforeVersion
  | .versioned => .error .beforeAttach
  | .closed => .error .closed
  | .attached =>
    match frame.message with
    | .twalk fid newfid names => do
      let origin ← s.requireFid fid
      refuseIf (origin.openMode.isSome = true) .fidIsOpen
      refuseIf (newfid = nofid) .unknownFid
      let destination ← names.foldlM s.joinPath origin.path
      return ({ primitives := .one .walk, paths := .walk origin.path destination
                negotiatedMsize := .none },
        .walk fid origin.generation newfid destination names.length false)
    | .tlopen fid flags => do
      let state ← s.requireFid fid
      refuseIf (state.openMode.isSome = true) .fidIsOpen
      let primitives ← openPrimitives flags state.isDirectory
      return (node primitives state.path,
        .openFid fid state.generation (openMode flags state.isDirectory))
    | .tlcreate fid name flags _ _ => do
      let parent ← s.requireFid fid
      refuseIf (parent.openMode.isSome = true) .fidIsOpen
      refuseIf (parent.isDirectory = false) .fidWrongKind
      let created ← s.joinPath parent.path name
      let primitives ← createPrimitives flags
      return (child primitives parent.path created,
        .create fid parent.generation created (openMode flags false))
    | .tmkdir dfid name _ _ => do
      let parent ← s.requireFid dfid
      let made ← s.joinPath parent.path name
      return (child (.one .mkdir) parent.path made, .none)
    | .tsymlink fid name _ _ => do
      let parent ← s.requireFid fid
      let link ← s.joinPath parent.path name
      return (child (.one .symlink) parent.path link, .none)
    | .tunlinkat dirfid name flags => do
      let parent ← s.requireFid dirfid
      let target ← s.joinPath parent.path name
      let primitives ← unlinkatPrimitives flags
      return (child primitives parent.path target, .none)
    | .tlink dfid fid name => do
      let source ← s.requireFid fid
      let parent ← s.requireFid dfid
      let destination ← s.joinPath parent.path name
      return (pair (.one .link) source.path destination, .none)
    | .trename fid dfid name => do
      let source ← s.requireFid fid
      let parent ← s.requireFid dfid
      let destination ← s.joinPath parent.path name
      return (pair (.one .rename) source.path destination, .none)
    | .trenameat olddirfid oldname newdirfid newname => do
      let oldParent ← s.requireFid olddirfid
      let newParent ← s.requireFid newdirfid
      let source ← s.joinPath oldParent.path oldname
      let destination ← s.joinPath newParent.path newname
      return (pair (.one .rename) source destination, .none)
    | .tgetattr fid requestMask => do
      let state ← s.requireFid fid
      let primitives ← getattrPrimitives requestMask
      return (node primitives state.path, .none)
    | .tsetattr fid valid .. => do
      let state ← s.requireFid fid
      let primitives ← setattrPrimitives valid
      return (node primitives state.path, .none)
    | .treadlink fid => do
      let state ← s.requireFid fid
      return (node (.one .readlink) state.path, .none)
    | .tread fid _ count => do
      let state ← s.requireFid fid
      let mode ← requireOpen state
      refuseIf (mode.directory = true) .fidWrongKind
      refuseIf (mode.read = false) .fidNotOpen
      return (node (.one .read) state.path, .countedReply count)
    | .twrite fid _ data => do
      let state ← s.requireFid fid
      let mode ← requireOpen state
      refuseIf (mode.directory = true) .fidWrongKind
      refuseIf (mode.write = false) .fidNotOpen
      return (node (.one .write) state.path,
        .countedReply (UInt32.ofNat (min data.length (2 ^ 32 - 1))))
    | .treaddir fid _ count => do
      let state ← s.requireFid fid
      let mode ← requireOpen state
      refuseIf (mode.directory = false) .fidWrongKind
      return (node (.one .readdir) state.path, .countedReply count)
    | .tclunk fid => do
      let state ← s.requireFid fid
      return (node (.one .clunk) state.path, .release fid state.generation)
    | .tremove fid => do
      let state ← s.requireFid fid
      let primitive : Primitive := if state.isDirectory then .removeDir else .unlink
      return (node (.one primitive) state.path, .release fid state.generation)
    | _ => .error .unexpectedReply

def classify : Except SessionError (Accepted × Effect) :=
  match frame.message with
  | .tversion msize version => do
    refuseIf (s.phase ≠ .awaitingVersion ∨ s.pendingMsize.isSome = true) .repeatedVersion
    let negotiated ← negotiate msize version s.msize
    return ({ primitives := .one .version, paths := .session, negotiatedMsize := some negotiated },
      .none)
  | .tattach fid afid uname aname nUname => do
    refuseIf (s.phase = .awaitingVersion) .beforeVersion
    refuseIf (s.phase = .attached) .repeatedAttach
    refuseIf (s.attachOutstanding = true) .repeatedAttach
    refuseIf (afid ≠ nofid ∨ uname ≠ "" ∨ aname ≠ "" ∨ nUname ≠ nonuname) .attachFieldNotPermitted
    refuseIf (fid = nofid) .unknownFid
    return (node (.one .attach) VirtualPath.root, .attach fid)
  | .tflush _ => do
    refuseIf (s.phase = .awaitingVersion) .beforeVersion
    return ({ primitives := .one .flush, paths := .session, negotiatedMsize := .none }, .none)
  | _ => s.classifyAttached frame

/-! ## Fids -/

def reserveFid (fid : UInt32) (path : VirtualPath) : Except SessionError Session :=
  if fid = nofid then .error .unknownFid
  else if s.fids.contains fid || s.reservedFids.contains fid then .error .fidInUse
  else if s.liveFids ≥ s.limits.maxFids then .error .fidQuotaExhausted
  else .ok { s with reservedFids := s.reservedFids.insert fid path }

/-- Reserve what the effect will bind. A walk in place reserves nothing. -/
def reserveFor : Effect → Except SessionError (Effect × Session)
  | .attach fid => do
    let t ← s.reserveFid fid VirtualPath.root
    return (.attach fid, t)
  | .walk origin originGeneration newfid destination names _ =>
    if newfid ≠ origin then do
      let t ← s.reserveFid newfid destination
      return (.walk origin originGeneration newfid destination names true, t)
    else .ok (.walk origin originGeneration newfid destination names false, s)
  | other => .ok (other, s)

def undoReservation : Effect → Session
  | .attach fid => { s with reservedFids := s.reservedFids.erase fid }
  | .walk _ _ newfid _ _ true => { s with reservedFids := s.reservedFids.erase newfid }
  | _ => s

/-- Release a fid that still carries the binding the request was admitted against. -/
def releaseFid (fid : UInt32) (generation : Nat) : Session :=
  match s.fids[fid]? with
  | some state =>
    if state.generation = generation then { s with fids := s.fids.erase fid } else s
  | .none => s

/-- The next binding stamp. There is none after the largest word, where the source
panics. -/
def freshGeneration : Option (Nat × Session) :=
  (Machine.checkedAdd s.nextGeneration 1).map fun generation =>
    (generation, { s with nextGeneration := generation })

/-! ## Tags -/

def isLiveFlushOf (tags : Tags) (flushTag victim : UInt16) : Bool :=
  match tags[flushTag]? with
  | some state => state.flushing == some victim
  | .none => false

def liveFlushesOf (tags : Tags) (victim excluded : UInt16) : Finset UInt16 :=
  match tags[victim]? with
  | some target =>
    target.flushedBy.filter fun candidate =>
      candidate ≠ excluded ∧ isLiveFlushOf tags candidate victim = true
  | .none => ∅

/-- Admit a request on its tag. The version handshake takes none. -/
def reserveTag (effect : Effect) : Except SessionError Session :=
  if frame.tag = notag then .ok s
  else
    match s.tags[frame.tag]? with
    | some existing =>
      .error (if existing.flushedBy.Nonempty ∨ existing.answered = true then .tagReservedByFlush
        else .tagInUse)
    | .none =>
      if s.tags.size ≥ s.limits.maxInflightRequests then .error .tagQuotaExhausted
      else
        let flushing := frame.message.flushing
        let flushed := match flushing with
          | some oldtag =>
            s.tags.modify oldtag fun target =>
              { target with flushedBy := insert frame.tag target.flushedBy }
          | .none => s.tags
        let state : TagState :=
          { messageType := frame.messageType, effect, flushedBy := ∅, answered := false, flushing }
        .ok { s with tags := flushed.insert frame.tag state }

/-- Take a cancelled flush out of its victim's set. A victim that was answered and held for
this flush alone goes too, and if it was a flush itself it is cancelled in turn. Every
further round has one tag less, so as many rounds as there are tags are enough. -/
def cancelFlushRounds : Nat → Tags → UInt16 → UInt16 → Tags
  | 0, tags, _, _ => tags
  | rounds + 1, tags, victim, flushTag =>
    match tags[victim]? with
    | .none => tags
    | some target =>
      if flushTag ∉ target.flushedBy then tags
      else
        let remaining := liveFlushesOf tags victim flushTag
        if remaining.Nonempty ∨ target.answered = false then
          tags.insert victim { target with flushedBy := remaining }
        else
          match target.flushing with
          | some next => cancelFlushRounds rounds (tags.erase victim) next victim
          | .none => tags.erase victim

def cancelFlush (tags : Tags) (victim flushTag : UInt16) : Tags :=
  cancelFlushRounds tags.size tags victim flushTag

/-- Answer a flush: it leaves its target's set, and the target goes with the last one. -/
def releaseFlushed (flushed flushTag : UInt16) : Session :=
  match s.tags[flushed]? with
  | .none => s
  | some target =>
    if flushTag ∉ target.flushedBy then s
    else
      let remaining := liveFlushesOf s.tags flushed flushTag
      if remaining.Nonempty then
        { s with tags := s.tags.insert flushed { target with flushedBy := remaining } }
      else
        let t := { s with tags := s.tags.erase flushed }
        -- An answered target has bound its fid and has nothing left to undo.
        let u := if target.answered then t else t.undoReservation target.effect
        match target.flushing with
        | some victim => { u with tags := cancelFlush u.tags victim flushed }
        | .none => u

/-- Release a tag whose request is over. It stays reserved while a flush of it is
outstanding. -/
def retireTag (tag : UInt16) (state : TagState) (outcome : FlushOutcome) :
    Session :=
  if ∃ flushTag ∈ state.flushedBy, isLiveFlushOf s.tags flushTag tag = true then
    { s with
      tags := s.tags.modify tag fun entry => { entry with answered := true, effect := .none } }
  else
    let t := { s with tags := s.tags.erase tag }
    match state.flushing, outcome with
    | some flushed, .answered => t.releaseFlushed flushed tag
    | some flushed, .cancelled => { t with tags := cancelFlush t.tags flushed tag }
    | .none, _ => t

/-! ## Effects -/

def replyFor : MessageType → MessageType
  | .tversion => .rversion
  | .tattach => .rattach
  | .tflush => .rflush
  | .twalk => .rwalk
  | .tlopen => .rlopen
  | .tlcreate => .rlcreate
  | .tsymlink => .rsymlink
  | .treadlink => .rreadlink
  | .tgetattr => .rgetattr
  | .tsetattr => .rsetattr
  | .treaddir => .rreaddir
  | .tlink => .rlink
  | .tmkdir => .rmkdir
  | .trename => .rrename
  | .trenameat => .rrenameat
  | .tunlinkat => .runlinkat
  | .tread => .rread
  | .twrite => .rwrite
  | .tclunk => .rclunk
  | .tremove => .rremove
  | other => other

/-- What a call returned and the session it left; none after a panic. -/
abbrev Outcome := Option (Except SessionError Unit × Session)

def bindFid (fid : UInt32) (path : VirtualPath) (qid : Qid) : Option Session :=
  s.freshGeneration.map fun (generation, t) =>
    { t with fids := t.fids.insert fid { path, qid, openMode := .none, generation } }

/-- The qid a complete walk ends at. A walk of no names clones its origin, if that still
carries the binding the walk was admitted against. -/
def walkQid (origin : UInt32) (originGeneration : Nat) (qids : List Qid) :
    Option Qid :=
  match qids.getLast? with
  | some qid => some qid
  | .none =>
    match s.fids[origin]? with
    | some state => if state.generation = originGeneration then some state.qid else .none
    | .none => .none

def unapplied : Outcome := some (.ok (), s)

def refused (e : SessionError) : Outcome := some (.error e, s)

def applyWalk (origin : UInt32) (originGeneration : Nat) (newfid : UInt32)
    (destination : VirtualPath) (names : Nat) (reserved : Bool) (qids : List Qid) : Outcome :=
  if qids.length > names then s.refused .malformedReply
  else if qids.isEmpty ∧ names > 0 then s.refused .malformedReply
  else if qids.length < names then
    -- A partial walk binds nothing and gives its reservation back.
    (if reserved then { s with reservedFids := s.reservedFids.erase newfid } else s).unapplied
  else
    match s.walkQid origin originGeneration qids with
    | .none => s.unapplied
    | some qid =>
      if reserved then
        match s.reservedFids[newfid]? with
        | .none => s.unapplied
        | some _ =>
          let t := { s with reservedFids := s.reservedFids.erase newfid }
          (t.bindFid newfid destination qid).map fun u => (.ok (), u)
      else
        match s.fids[newfid]? with
        | .none => s.unapplied
        | some state =>
          if state.generation = originGeneration then
            (s.bindFid newfid destination qid).map fun t => (.ok (), t)
          else s.unapplied

def applyEffect (effect : Effect) (reply : Message) : Outcome :=
  match effect, reply with
  | .attach fid, .rattach qid =>
    match s.reservedFids[fid]? with
    | .none => s.unapplied
    | some path =>
      let t := { s with reservedFids := s.reservedFids.erase fid }
      if qid.kind ≠ .directory then t.refused .malformedReply
      else (t.bindFid fid path qid).map fun u => (.ok (), { u with phase := .attached })
  | .countedReply limit, .rread data =>
    if data.length > limit.toNat then s.refused .malformedReply else s.unapplied
  | .countedReply limit, .rreaddir data =>
    if data.length > limit.toNat then s.refused .malformedReply else s.unapplied
  | .countedReply limit, .rwrite count =>
    if count > limit then s.refused .malformedReply else s.unapplied
  | .walk origin originGeneration newfid destination names reserved, .rwalk qids =>
    s.applyWalk origin originGeneration newfid destination names reserved qids
  | .openFid fid generation mode, .rlopen qid _ =>
    match s.fids[fid]? with
    | .none => s.unapplied
    | some state =>
      if state.generation ≠ generation then s.unapplied
      else
        -- The provider's qid decides whether the node is a directory.
        let mode := { mode with directory := qid.kind == .directory }
        if mode.directory && (mode.write || !mode.read) then s.refused .malformedReply
        else
          some (.ok (), { s with
            fids := s.fids.insert fid { state with qid, openMode := some mode } })
  | .create fid generation child mode, .rlcreate qid _ =>
    if qid.kind ≠ .file then s.refused .malformedReply
    else
      -- The stamp is taken whether or not the fid still carries its binding.
      s.freshGeneration.map fun (fresh, t) =>
        match t.fids[fid]? with
        | .none => (.ok (), t)
        | some state =>
          if state.generation ≠ generation then (.ok (), t)
          else
            (.ok (), { t with
              fids := t.fids.insert fid
                { path := child, qid, openMode := some mode, generation := fresh } })
  | .release fid generation, _ => (s.releaseFid fid generation).unapplied
  | .none, _ => s.unapplied
  | _, _ => s.refused .unexpectedReply

def completeVersion : Outcome :=
  match frame.message with
  | .rversion msize version =>
    if s.phase ≠ .awaitingVersion then s.refused .repeatedVersion
    else
      match s.pendingMsize with
      | .none => s.refused .tagNotInUse
      | some expected =>
        if msize ≠ expected ∨ version ≠ dialect then s.refused .malformedReply
        else
          some (.ok (), { s with msize := expected, pendingMsize := .none, phase := .versioned })
  | _ => s.refused .unexpectedReply

/-! ## Calls -/

def request : Except SessionError Accepted × Session :=
  if s.phase = .closed then (.error .closed, s)
  else if frame.message.isRequest = false then (.error .unexpectedReply, s)
  else
    match s.classify frame with
    | .error e => (.error e, s)
    | .ok (accepted, effect) =>
      if accepted.primitives.items.any (fun primitive =>
          !primitive.isPermitted s.grant s.features) then
        (.error .notPermitted, s)
      else
        match s.reserveFor effect with
        | .error e => (.error e, s)
        | .ok (effect, t) =>
          match t.reserveTag frame effect with
          | .error e => (.error e, t.undoReservation effect)
          | .ok u =>
            (.ok accepted, match accepted.negotiatedMsize with
              | some msize => { u with pendingMsize := some msize }
              | .none => u)

def complete : Outcome :=
  if s.phase = .closed then s.refused .closed
  else if frame.message.isRequest then s.refused .unexpectedReply
  else if frame.messageType = .rversion then s.completeVersion frame
  else
    match s.tags[frame.tag]? with
    | .none => s.refused .tagNotInUse
    | some state =>
      if state.answered then s.refused .tagNotInUse
      else if replyFor state.messageType ≠ frame.messageType then s.refused .unexpectedReply
      else
        -- Whatever the effect did, the request is over: its reservation goes with its tag.
        (s.applyEffect state.effect frame.message).map fun (applied, t) =>
          (applied, (t.undoReservation state.effect).retireTag frame.tag state .answered)

/-- Apply an `Rlerror` and release its tag. A clunk or a remove gives its fid up even so, and a
flush that failed is cancelled. -/
def fail (tag : UInt16) : Except SessionError Unit × Session :=
  if s.phase = .closed then (.error .closed, s)
  else
    match s.tags[tag]? with
    | .none => (.error .tagNotInUse, s)
    | some state =>
      if state.answered then (.error .tagNotInUse, s)
      else
        let t := match state.effect with
          | .release fid generation => s.releaseFid fid generation
          | other => s.undoReservation other
        (.ok (), t.retireTag tag state .cancelled)

end Session

inductive Call
  | request (frame : Frame)
  | complete (frame : Frame)
  | fail (tag : UInt16)
  | close

/-- Whether the call succeeds and the session after it; none if the call panics. -/
def Call.exec (s : Session) : Call → Option (Bool × Session)
  | request frame => some ((s.request frame).1.isOk, (s.request frame).2)
  | complete frame => (s.complete frame).map fun (result, t) => (result.isOk, t)
  | fail tag => some ((s.fail tag).1.isOk, (s.fail tag).2)
  | close => some (true, s.close)

end AgentUplink.NineP
