/-
Everything a call can do to a session.

An admitted request adds one tag and at most one reservation. A reply or a failure
applies its request's effect to the one fid the request was admitted against and retires
the request's tag. Every invariant of the session is read off these cases.
-/
import AgentUplink.Lib.Fallible
import AgentUplink.Lib.Trace
import AgentUplink.NineP.Tags

namespace AgentUplink.NineP

open Std Ledger Fallible
open Fs (VirtualPath)

/-- The fid number and the binding of it that a reply may change. -/
def Effect.against : Effect → Option (UInt32 × Nat)
  | .walk _ generation newfid _ _ false => some (newfid, generation)
  | .openFid fid generation _ => some (fid, generation)
  | .create fid generation _ _ => some (fid, generation)
  | .release fid generation => some (fid, generation)
  | _ => Option.none

def Effect.destination : Effect → Option VirtualPath
  | .walk _ _ _ destination _ _ => some destination
  | .create _ _ child _ => some child
  | _ => Option.none

/-- The fid number a reply to the message may bind, rebind, open or release. -/
def Message.binds : Message → Option UInt32
  | .tattach fid .. => some fid
  | .twalk _ newfid _ => some newfid
  | .tlopen fid _ => some fid
  | .tlcreate fid .. => some fid
  | .tclunk fid => some fid
  | .tremove fid => some fid
  | _ => none

/-- The fid number a request takes before its reply: an attach's, and a walk's that does not
stay in place. -/
def Message.reserves : Message → Option UInt32
  | .tattach fid .. => some fid
  | .twalk fid newfid _ => if newfid ≠ fid then some newfid else none
  | _ => none

theorem Message.binds_of_reserves {message : Message} {n : UInt32} (h : message.reserves = some n) :
    message.binds = some n := by
  unfold reserves at h
  split at h
  · exact h
  · split at h
    · exact h
    · cases h
  · cases h

theorem Message.reserves_of_binds {message : Message} (h : message.binds = none) :
    message.reserves = none := by
  cases hreserves : message.reserves with
  | none => rfl
  | some n =>
    rw [binds_of_reserves hreserves] at h
    cases h

/-- The frame a call admits, if it is a request that succeeds. -/
def Call.admitted (s : Session) : Call → Option Frame
  | .request frame => if (s.request frame).1.isOk = true then some frame else none
  | _ => none

def Call.next (call : Call) (s : Session) : Option Session := (call.exec s).map Prod.snd

namespace Session

/-! ## Admission -/

@[simp] theorem refuseIf_ok {c : Prop} [Decidable c] {e : SessionError} {u : Unit} :
    refuseIf c e = .ok u ↔ ¬ c := by
  unfold refuseIf
  by_cases h : c <;> simp [h]

variable {s t : Session} {fid : UInt32} {frame : Frame} {effect : Effect}
  {r : Except SessionError Unit}

@[simp] theorem requireFid_ok {state : FidState} :
    s.requireFid fid = .ok state ↔ fid ≠ nofid ∧ s.fids[fid]? = some state := by
  unfold requireFid
  by_cases h : fid = nofid
  · simp [h]
  · rw [if_neg h]
    cases s.fids[fid]? with
    | none => simp
    | some state' => simp [h]

/-- What a request is classified as, with what was found out about its fids. -/
inductive Classifies (s : Session) (frame : Frame) : Effect → Prop
  | attach {fid afid nUname : UInt32} {uname aname : String} :
      frame.message = .tattach fid afid uname aname nUname → s.phase ≠ .awaitingVersion →
      s.phase ≠ .attached → s.attachOutstanding = false → Classifies s frame (.attach fid)
  | walk {fid newfid : UInt32} {names : List String} {origin : FidState}
      {destination : VirtualPath} :
      frame.message = .twalk fid newfid names → s.phase = .attached →
      s.fids[fid]? = some origin →
      names.foldlM s.joinPath origin.path = .ok destination →
      Classifies s frame (.walk fid origin.generation newfid destination names.length false)
  | openFid {fid flags : UInt32} {state : FidState} {mode : OpenMode} :
      frame.message = .tlopen fid flags → s.phase = .attached → s.fids[fid]? = some state →
      Classifies s frame (.openFid fid state.generation mode)
  | create {fid flags mode gid : UInt32} {name : String} {parent : FidState} {created : VirtualPath}
      {openMode : OpenMode} :
      frame.message = .tlcreate fid name flags mode gid → s.phase = .attached →
      s.fids[fid]? = some parent →
      s.joinPath parent.path name = .ok created →
      Classifies s frame (.create fid parent.generation created openMode)
  | release {fid : UInt32} {state : FidState} :
      frame.message = .tclunk fid ∨ frame.message = .tremove fid → s.phase = .attached →
      s.fids[fid]? = some state →
      Classifies s frame (.release fid state.generation)
  | plain {effect : Effect} : effect = .none ∨ (∃ limit, effect = .countedReply limit) →
      frame.message.binds = none → Classifies s frame effect

theorem classifyAttached_ok {accepted : Accepted}
    (h : s.classifyAttached frame = .ok (accepted, effect)) : Classifies s frame effect := by
  unfold classifyAttached at h
  cases hphase : s.phase with
  | attached =>
    rw [hphase] at h
    cases hmessage : frame.message with
    | twalk fid newfid names =>
      simp only [hmessage, except_bind_eq_ok, requireFid_ok, refuseIf_ok] at h
      obtain ⟨origin, ⟨_, horigin⟩, _, _, _, _, destination, hjoin, heq⟩ := h
      cases heq
      exact .walk hmessage hphase horigin hjoin
    | tlopen fid flags =>
      simp only [hmessage, except_bind_eq_ok, requireFid_ok, refuseIf_ok] at h
      obtain ⟨state, ⟨_, hstate⟩, _, _, primitives, _, heq⟩ := h
      cases heq
      exact .openFid hmessage hphase hstate
    | tlcreate fid name flags mode gid =>
      simp only [hmessage, except_bind_eq_ok, requireFid_ok, refuseIf_ok] at h
      obtain ⟨parent, ⟨_, hparent⟩, _, _, _, _, created, hjoin, primitives, _, heq⟩ := h
      cases heq
      exact .create hmessage hphase hparent hjoin
    | tclunk fid =>
      simp only [hmessage, except_bind_eq_ok, requireFid_ok] at h
      obtain ⟨state, ⟨_, hstate⟩, heq⟩ := h
      cases heq
      exact .release (.inl hmessage) hphase hstate
    | tremove fid =>
      simp only [hmessage, except_bind_eq_ok, requireFid_ok] at h
      obtain ⟨state, ⟨_, hstate⟩, heq⟩ := h
      cases heq
      exact .release (.inr hmessage) hphase hstate
    | tread | twrite | treaddir =>
      simp only [hmessage, except_bind_eq_ok, pure, Except.pure, Except.ok.injEq,
        Prod.mk.injEq] at h
      casesm* _ ∧ _, ∃ _, _
      subst_vars
      exact .plain (.inr ⟨_, rfl⟩) (by simp [hmessage, Message.binds])
    | treadlink | tmkdir | tsymlink | tgetattr | tsetattr | tunlinkat | tlink | trename
    | trenameat =>
      simp only [hmessage, except_bind_eq_ok, pure, Except.pure, Except.ok.injEq,
        Prod.mk.injEq] at h
      casesm* _ ∧ _, ∃ _, _
      subst_vars
      exact .plain (.inl rfl) (by simp [hmessage, Message.binds])
    | _ =>
      rw [hmessage] at h
      cases h
  | _ =>
    rw [hphase] at h
    cases h

theorem classify_ok {accepted : Accepted} (h : s.classify frame = .ok (accepted, effect)) :
    Classifies s frame effect := by
  unfold classify at h
  cases hmessage : frame.message with
  | tversion msize version =>
    simp only [hmessage, except_bind_eq_ok] at h
    obtain ⟨_, _, _, _, heq⟩ := h
    cases heq
    exact .plain (.inl rfl) (by simp [hmessage, Message.binds])
  | tattach fid afid uname aname nUname =>
    simp only [hmessage, except_bind_eq_ok, refuseIf_ok] at h
    obtain ⟨_, hversion, _, hattached, _, houtstanding, _, _, _, _, heq⟩ := h
    cases heq
    exact .attach hmessage hversion hattached (by simpa using houtstanding)
  | tflush oldtag =>
    simp only [hmessage, except_bind_eq_ok] at h
    obtain ⟨_, _, heq⟩ := h
    cases heq
    exact .plain (.inl rfl) (by simp [hmessage, Message.binds])
  | _ =>
    rw [hmessage] at h
    exact classifyAttached_ok h

theorem reserveFid_ok {path : VirtualPath} (h : s.reserveFid fid path = .ok t) :
    s.fids[fid]? = none ∧ s.reservedFids[fid]? = none ∧ s.liveFids < s.limits.maxFids ∧
      t = { s with reservedFids := s.reservedFids.insert fid path } := by
  unfold reserveFid at h
  split at h
  · cases h
  split at h
  · cases h
  next huse =>
  split at h
  · cases h
  next hquota =>
  cases h
  simp only [Bool.or_eq_true, not_or, ExtTreeMap.contains_eq_isSome_getElem?,
    Option.not_isSome_iff_eq_none] at huse
  exact ⟨huse.1, huse.2, Nat.lt_of_not_le hquota, rfl⟩

/-- The effect a request is admitted with: a walk to another fid has it reserved. -/
def held : Effect → Effect
  | .walk origin generation newfid destination names _ =>
    .walk origin generation newfid destination names (newfid ≠ origin)
  | other => other

/-- What admission leaves of the fid tables. -/
inductive Reserves (s : Session) (effect : Effect) : Session → Prop
  | nothing : effect.reserves = none → Reserves s effect s
  | fid {n : UInt32} {path : VirtualPath} : effect.reserves = some n → s.fids[n]? = none →
      s.reservedFids[n]? = none → s.liveFids < s.limits.maxFids →
      path = VirtualPath.root ∨ effect.destination = some path →
      Reserves s effect { s with reservedFids := s.reservedFids.insert n path }

theorem reserveFor_ok {effect' : Effect} (h : s.reserveFor effect = .ok (effect', t)) :
    effect' = held effect ∧ Reserves s effect' t := by
  unfold reserveFor at h
  split at h
  · simp only [except_bind_eq_ok] at h
    obtain ⟨u, hu, heq⟩ := h
    cases heq
    obtain ⟨hfid, hreserved, hquota, rfl⟩ := reserveFid_ok hu
    exact ⟨rfl, .fid rfl hfid hreserved hquota (.inl rfl)⟩
  · next origin generation newfid destination names reserved =>
    by_cases hne : newfid ≠ origin
    · rw [if_pos hne] at h
      simp only [except_bind_eq_ok] at h
      obtain ⟨u, hu, heq⟩ := h
      cases heq
      obtain ⟨hfid, hreserved, hquota, rfl⟩ := reserveFid_ok hu
      exact ⟨by simp [held, hne], .fid rfl hfid hreserved hquota (.inr rfl)⟩
    · rw [if_neg hne] at h
      cases h
      exact ⟨by simp [held, hne], .nothing rfl⟩
  · next hattach hwalk =>
    cases h
    cases effect with
    | attach fid => exact (hattach fid rfl).elim
    | walk origin generation newfid destination names reserved =>
      exact (hwalk _ _ _ _ _ _ rfl).elim
    | _ => exact ⟨rfl, .nothing rfl⟩

/-- What is known about the effect a request is admitted with. -/
structure Admitted (s : Session) (frame : Frame) (effect : Effect) : Prop where
  against : ∀ {n g}, effect.against = some (n, g) →
    frame.message.binds = some n ∧ ∃ b, s.fids[n]? = some b ∧ b.generation = g
  reserves : effect.reserves = frame.message.reserves
  attach : effect.isAttach = true →
    s.phase ≠ .awaitingVersion ∧ s.phase ≠ .attached ∧ s.attachOutstanding = false
  type : effect.isAttach = true ↔ frame.messageType = .tattach
  destination : ∀ {path}, effect.destination = some path →
    ∃ (n : UInt32) (b : FidState) (names : List String),
      s.fids[n]? = some b ∧ names.foldlM s.joinPath b.path = .ok path

/-- An effect on a fid that is there, of a message that reserves nothing. -/
theorem admitted_of_against {n : UInt32} {b : FidState}
    (hagainst : effect.against = some (n, b.generation)) (hstate : s.fids[n]? = some b)
    (hbinds : frame.message.binds = some n) (hreserves : effect.reserves = none)
    (hreserves' : frame.message.reserves = none) (hattach : effect.isAttach = false)
    (htype : frame.messageType ≠ .tattach)
    (hdestination : ∀ {path}, effect.destination = some path →
      ∃ names : List String, names.foldlM s.joinPath b.path = .ok path) :
    Admitted s frame effect where
  against := by
    intro m g h
    rw [hagainst, Option.some.injEq, Prod.mk.injEq] at h
    obtain ⟨rfl, rfl⟩ := h
    exact ⟨hbinds, b, hstate, rfl⟩
  reserves := by rw [hreserves, hreserves']
  attach := by simp [hattach]
  type := by simp [hattach, htype]
  destination := by
    intro path h
    obtain ⟨names, hnames⟩ := hdestination h
    exact ⟨n, b, names, hstate, hnames⟩

theorem Classifies.admitted (h : Classifies s frame effect) : Admitted s frame (held effect) := by
  cases h with
  | attach hmessage hversion hattached houtstanding =>
    refine ⟨fun h => (by cases h), ?_, fun _ => ⟨hversion, hattached, houtstanding⟩, ?_,
      fun h => (by cases h)⟩
    · simp [held, Effect.reserves, hmessage, Message.reserves]
    · simp [held, Effect.isAttach, Frame.messageType, hmessage, Message.messageType]
  | @walk fid newfid names origin destination hmessage hphase horigin hjoin =>
    refine ⟨fun {n g} h => ?_, ?_, by simp [held, Effect.isAttach], ?_, fun {path} h => ?_⟩
    · by_cases heq : newfid = fid
      · subst heq
        simp only [held, Effect.against, ne_eq, not_true_eq_false, decide_false, Option.some.injEq,
          Prod.mk.injEq] at h
        obtain ⟨rfl, rfl⟩ := h
        exact ⟨by simp [hmessage, Message.binds], origin, horigin, rfl⟩
      · simp [held, Effect.against, heq] at h
    · by_cases heq : newfid = fid
      · simp [held, Effect.reserves, heq, hmessage, Message.reserves]
      · simp [held, Effect.reserves, heq, hmessage, Message.reserves]
    · simp [held, Effect.isAttach, Frame.messageType, hmessage, Message.messageType]
    · simp only [held, Effect.destination, Option.some.injEq] at h
      subst h
      exact ⟨fid, origin, names, horigin, hjoin⟩
  | openFid hmessage hphase hstate =>
    apply admitted_of_against rfl hstate _ rfl _ rfl
    all_goals simp [hmessage, Message.binds, Message.reserves, Frame.messageType,
      Message.messageType, held, Effect.destination]
  | @create fid flags mode gid name parent created openMode hmessage hphase hparent hjoin =>
    refine admitted_of_against rfl hparent ?_ rfl ?_ rfl ?_ fun {path} h => ?_
    case refine_4 =>
      cases h
      exact ⟨[name], by simpa [List.foldlM] using hjoin⟩
    all_goals simp [hmessage, Message.binds, Message.reserves, Frame.messageType,
      Message.messageType]
  | release hmessage hphase hstate =>
    apply admitted_of_against rfl hstate _ rfl _ rfl
    all_goals rcases hmessage with h | h <;>
      simp [h, Message.binds, Message.reserves, Frame.messageType, Message.messageType, held,
        Effect.destination]
  | plain heffect hbinds =>
    have htype : frame.messageType ≠ .tattach := by
      unfold Frame.messageType
      cases hmessage : frame.message <;> simp_all [Message.messageType, Message.binds]
    have hreserves := Message.reserves_of_binds hbinds
    rcases heffect with rfl | ⟨limit, rfl⟩ <;>
      exact ⟨fun h => (by cases h), hreserves.symm, fun h => (by cases h),
        by simp [held, Effect.isAttach, htype], fun h => (by cases h)⟩

inductive Enters (s : Session) (frame : Frame) (effect : Effect) : Session → Prop
  | handshake : frame.tag = notag → Enters s frame effect s
  | tag {tags : Tags} : frame.tag ≠ notag → s.tags[frame.tag]? = none →
      s.tags.size < s.limits.maxInflightRequests →
      (∀ x, tags[x]? =
        if x = frame.tag then
          some { messageType := frame.messageType, effect, flushedBy := ∅, answered := false
                 flushing := frame.message.flushing }
        else s.tags[x]?.map fun target =>
          if frame.message.flushing = some x then
            { target with flushedBy := insert frame.tag target.flushedBy }
          else target) →
      tags.size = s.tags.size + 1 →
      Enters s frame effect { s with tags }

theorem reserveTag_ok (h : s.reserveTag frame effect = .ok t) : Enters s frame effect t := by
  unfold reserveTag at h
  split at h
  · next htag =>
    cases h
    exact .handshake htag
  next htag =>
  split at h
  · cases h
  · next hexisting =>
    split at h
    · cases h
    next hquota =>
    cases h
    cases hflush : frame.message.flushing with
    | none =>
      refine .tag htag hexisting (Nat.lt_of_not_le hquota) (fun x => ?_) ?_
      · rw [get_insert]
        by_cases hx : frame.tag = x
        · simp [hx, hflush]
        · simp [hx, Ne.symm hx, hflush]
      · exact size_insert_of_none hexisting _
    | some oldtag =>
      have hget (x : UInt16) : (s.tags.modify oldtag fun target =>
          { target with flushedBy := insert frame.tag target.flushedBy })[x]? =
          s.tags[x]?.map fun target =>
            if frame.message.flushing = some x then
              { target with flushedBy := insert frame.tag target.flushedBy }
            else target := by
        rw [get_modify, hflush]
        by_cases hx : oldtag = x
        · simp [hx]
        · simp [hx]
      refine .tag htag hexisting (Nat.lt_of_not_le hquota) (fun x => ?_) ?_
      · rw [get_insert, hget]
        by_cases hx : frame.tag = x
        · simp [hx, hflush]
        · simp [hx, Ne.symm hx, hflush]
      · rw [size_insert_of_none, ExtTreeMap.size_modify]
        rw [hget, hexisting]
        rfl

/-! ## Replies -/

/-- What a reply does to the fid tables before its tag is retired. -/
inductive Applied (effect : Effect) (s : Session) : Session → Prop
  | same : Applied effect s s
  | stamped : Applied effect s { s with nextGeneration := s.nextGeneration + 1 }
  | freed {n : UInt32} : effect.reserves = some n →
      Applied effect s { s with reservedFids := s.reservedFids.erase n }
  | attached {n : UInt32} {path : VirtualPath} {b : FidState} : effect.isAttach = true →
      effect.reserves = some n → s.reservedFids[n]? = some path → b.path = path →
      b.generation = s.nextGeneration + 1 →
      Applied effect s { s with
        reservedFids := s.reservedFids.erase n, fids := s.fids.insert n b
        nextGeneration := s.nextGeneration + 1, phase := .attached }
  | bound {n : UInt32} {path : VirtualPath} {b : FidState} : effect.reserves = some n →
      s.reservedFids[n]? = some path → effect.destination = some b.path →
      b.generation = s.nextGeneration + 1 →
      Applied effect s { s with
        reservedFids := s.reservedFids.erase n, fids := s.fids.insert n b
        nextGeneration := s.nextGeneration + 1 }
  | rebound {n : UInt32} {b b' : FidState} : effect.against = some (n, b.generation) →
      s.fids[n]? = some b → effect.destination = some b'.path →
      b'.generation = s.nextGeneration + 1 →
      Applied effect s { s with
        fids := s.fids.insert n b', nextGeneration := s.nextGeneration + 1 }
  | opened {n : UInt32} {b b' : FidState} : effect.against = some (n, b.generation) →
      s.fids[n]? = some b → b'.path = b.path → b'.generation = b.generation →
      Applied effect s { s with fids := s.fids.insert n b' }
  | released {n : UInt32} {b : FidState} : effect.against = some (n, b.generation) →
      s.fids[n]? = some b → Applied effect s { s with fids := s.fids.erase n }

theorem freshGeneration_eq_some {g : Nat} (h : s.freshGeneration = some (g, t)) :
    g = s.nextGeneration + 1 ∧ t = { s with nextGeneration := s.nextGeneration + 1 } := by
  unfold freshGeneration at h
  rw [Option.map_eq_some_iff] at h
  obtain ⟨generation, hadd, heq⟩ := h
  obtain ⟨_, rfl⟩ := Machine.checkedAdd_eq_some.1 hadd
  cases heq
  exact ⟨rfl, rfl⟩

theorem bindFid_eq_some {path : VirtualPath} {qid : Qid} (h : s.bindFid fid path qid = some t) :
    ∃ b : FidState, b.path = path ∧ b.generation = s.nextGeneration + 1 ∧
      t = { s with fids := s.fids.insert fid b, nextGeneration := s.nextGeneration + 1 } := by
  unfold bindFid at h
  rw [Option.map_eq_some_iff] at h
  obtain ⟨⟨generation, u⟩, hfresh, heq⟩ := h
  obtain ⟨rfl, rfl⟩ := freshGeneration_eq_some hfresh
  cases heq
  exact ⟨_, rfl, rfl, rfl⟩

theorem releaseFid_applied (s : Session) (fid : UInt32) (generation : Nat) :
    Applied (.release fid generation) s (s.releaseFid fid generation) := by
  fun_cases releaseFid s fid generation with
  | case1 state hfid hgeneration =>
    subst hgeneration
    exact .released rfl hfid
  | case2 | case3 => exact .same

theorem applyWalk_applied {origin newfid : UInt32} {generation names : Nat}
    {destination : VirtualPath} {reserved : Bool} {qids : List Qid}
    (h : s.applyWalk origin generation newfid destination names reserved qids = some (r, t)) :
    Applied (.walk origin generation newfid destination names reserved) s t := by
  unfold applyWalk at h
  split at h
  · cases h
    exact .same
  split at h
  · cases h
    exact .same
  split at h
  · cases reserved with
    | true =>
      cases h
      exact .freed rfl
    | false =>
      cases h
      exact .same
  split at h
  · cases h
    exact .same
  cases reserved with
  | true =>
    rw [if_pos rfl] at h
    split at h
    · cases h
      exact .same
    · next hreserved =>
      obtain ⟨u, hbind, heq⟩ := Option.map_eq_some_iff.1 h
      cases heq
      obtain ⟨b, hpath, hgeneration, rfl⟩ := bindFid_eq_some hbind
      subst hpath
      exact .bound rfl hreserved rfl hgeneration
  | false =>
    rw [if_neg (by decide)] at h
    split at h
    · cases h
      exact .same
    · next hfid =>
      split at h
      · next hgeneration =>
        obtain ⟨u, hbind, heq⟩ := Option.map_eq_some_iff.1 h
        cases heq
        obtain ⟨b, hpath, hgeneration', rfl⟩ := bindFid_eq_some hbind
        subst hpath hgeneration
        exact .rebound rfl hfid rfl hgeneration'
      · cases h
        exact .same

theorem applyEffect_applied {reply : Message} (h : s.applyEffect effect reply = some (r, t)) :
    Applied effect s t := by
  unfold applyEffect at h
  split at h
  · -- attach
    split at h
    · cases h
      exact .same
    · next hreserved =>
      split at h
      · cases h
        exact .freed rfl
      · obtain ⟨u, hbind, heq⟩ := Option.map_eq_some_iff.1 h
        cases heq
        obtain ⟨b, hpath, hgeneration, rfl⟩ := bindFid_eq_some hbind
        exact .attached rfl rfl hreserved hpath hgeneration
  · split at h <;> cases h <;> exact .same
  · split at h <;> cases h <;> exact .same
  · split at h <;> cases h <;> exact .same
  · exact applyWalk_applied h
  · -- open
    split at h
    · cases h
      exact .same
    · next hfid =>
      split at h
      · cases h
        exact .same
      next hgeneration =>
      dsimp only at h
      split at h
      · cases h
        exact .same
      · cases h
        rw [not_not] at hgeneration
        subst hgeneration
        exact .opened rfl hfid rfl rfl
  · -- create
    split at h
    · cases h
      exact .same
    obtain ⟨⟨fresh, u⟩, hfresh, heq⟩ := Option.map_eq_some_iff.1 h
    obtain ⟨rfl, rfl⟩ := freshGeneration_eq_some hfresh
    dsimp only at heq
    split at heq
    · cases heq
      exact .stamped
    · next hfid =>
      split at heq
      · cases heq
        exact .stamped
      · next hgeneration =>
        cases heq
        rw [not_not] at hgeneration
        subst hgeneration
        exact .rebound rfl hfid rfl rfl
  · -- release
    cases h
    exact releaseFid_applied s _ _
  · cases h
    exact .same
  · cases h
    exact .same

/-! ## Calls -/

/-- The end of a request: its reservation and its tag go. -/
def settle (s : Session) (tag : UInt16) (state : TagState) (outcome : FlushOutcome) : Session :=
  (s.undoReservation state.effect).retireTag tag state outcome

theorem Reserves.undo (h : Reserves s effect t) : t.undoReservation effect = s := by
  have hget (n : UInt32) : (t.undoReservation effect).reservedFids[n]? = s.reservedFids[n]? := by
    rw [undoReservation_get]
    cases h with
    | nothing hnone => simp [hnone]
    | fid hsome _ hreserved =>
      rw [hsome, get_insert]
      split
      · next heq =>
        cases heq
        exact hreserved.symm
      · next hne =>
        rw [if_neg]
        rintro rfl
        exact hne rfl
  have hsame : (t.undoReservation effect).reservedFids = s.reservedFids :=
    ExtTreeMap.ext_getElem? fun n => hget n
  have htables := undoReservation_tablesOnly t effect
  rw [TablesOnly, undoReservation_tags, hsame] at htables
  rw [htables]
  cases h with
  | nothing | fid => rfl

inductive Accepts (s : Session) (frame : Frame) : Session → Prop
  | intro {effect : Effect} {t u : Session} {msize : Option UInt32} : s.phase ≠ .closed →
      frame.message.isRequest = true → Admitted s frame effect → Reserves s effect t →
      Enters t frame effect u →
      Accepts s frame { u with pendingMsize := msize }

theorem request_cases (s : Session) (frame : Frame) :
    ((s.request frame).1.isOk = true ∧ Accepts s frame (s.request frame).2) ∨
      ((s.request frame).1.isOk = false ∧ (s.request frame).2 = s) := by
  unfold request
  split
  · exact .inr ⟨rfl, rfl⟩
  next hphase =>
  split
  · exact .inr ⟨rfl, rfl⟩
  next hrequest =>
  rw [Bool.not_eq_false] at hrequest
  cases hclassify : s.classify frame with
  | error e => exact .inr ⟨rfl, rfl⟩
  | ok result =>
    obtain ⟨accepted, effect⟩ := result
    dsimp only
    split
    · exact .inr ⟨rfl, rfl⟩
    cases hreserve : s.reserveFor effect with
    | error e => exact .inr ⟨rfl, rfl⟩
    | ok result =>
      obtain ⟨effect', t⟩ := result
      dsimp only
      obtain ⟨rfl, hreserves⟩ := reserveFor_ok hreserve
      cases htag : t.reserveTag frame (held effect) with
      | error e => exact .inr ⟨rfl, hreserves.undo⟩
      | ok u =>
        have hadmitted := (classify_ok hclassify).admitted
        have henters := reserveTag_ok htag
        refine .inl ⟨rfl, ?_⟩
        cases accepted.negotiatedMsize with
        | none => exact .intro (u := u) hphase hrequest hadmitted hreserves henters
        | some msize => exact .intro hphase hrequest hadmitted hreserves henters

/-- The call ends the request that is outstanding on a tag: it is a reply of the request's own
type, or a failure. -/
inductive Settles (s : Session) : Call → UInt16 → FlushOutcome → TagState → Prop
  | reply {frame : Frame} {state : TagState} : s.phase ≠ .closed →
      frame.message.isRequest = false → frame.messageType ≠ .rversion →
      s.tags[frame.tag]? = some state → state.answered = false →
      replyFor state.messageType = frame.messageType →
      Settles s (.complete frame) frame.tag .answered state
  | failure {tag : UInt16} {state : TagState} : s.phase ≠ .closed → s.tags[tag]? = some state →
      state.answered = false → Settles s (.fail tag) tag .cancelled state

section Settles

variable {s : Session} {call : Call} {tag : UInt16} {outcome : FlushOutcome} {state : TagState}

section

variable (h : Settles s call tag outcome state)
include h

theorem Settles.get : s.tags[tag]? = some state := by
  cases h <;> assumption

theorem Settles.unanswered : state.answered = false := by
  cases h <;> assumption

theorem Settles.admitted : call.admitted s = none := by
  cases h <;> rfl

end

theorem Settles.complete_eq {frame : Frame} (h : Settles s (.complete frame) tag outcome state) :
    tag = frame.tag ∧ outcome = .answered ∧
      s.complete frame = (s.applyEffect state.effect frame.message).map fun (applied, t) =>
        (applied, t.settle frame.tag state .answered) := by
  cases h with
  | reply hphase hreply htype hstate hanswered hmatch =>
    refine ⟨rfl, rfl, ?_⟩
    unfold complete
    simp only [hphase, hreply, htype, hstate, hanswered, hmatch, settle, if_false, ne_eq,
      not_true_eq_false, Bool.false_eq_true]

theorem Settles.fail_eq (h : Settles s (.fail tag) tag outcome state) :
    outcome = .cancelled ∧ ∃ t, Applied state.effect s t ∧
      s.fail tag = (.ok (), t.settle tag state .cancelled) := by
  cases h with
  | failure hphase hstate hanswered =>
    refine ⟨rfl, ?_⟩
    unfold fail
    simp only [hphase, hstate, hanswered, if_false, Bool.false_eq_true]
    cases heffect : state.effect with
    | release fid generation =>
      refine ⟨_, releaseFid_applied s fid generation, ?_⟩
      simp only [settle, heffect, undoReservation]
    | _ =>
      refine ⟨s, .same, ?_⟩
      simp only [settle, heffect]

end Settles

/-- A reply that ends no request is refused, or is the version's. -/
theorem complete_of_not_settles
    (hnot : ∀ state, ¬ Settles s (.complete frame) frame.tag .answered state)
    (h : s.complete frame = some (r, t)) :
    t = s ∧ r.isOk = false ∨
      s.phase = .awaitingVersion ∧ frame.messageType = .rversion ∧
        ∃ msize, t = { s with msize, pendingMsize := none, phase := .versioned } := by
  unfold complete at h
  split at h
  · cases h
    exact .inl ⟨rfl, rfl⟩
  next hphase =>
  split at h
  · cases h
    exact .inl ⟨rfl, rfl⟩
  next hreply =>
  split at h
  · next htype =>
    unfold completeVersion at h
    split at h
    · split at h
      · cases h
        exact .inl ⟨rfl, rfl⟩
      next hawaiting =>
      rw [not_not] at hawaiting
      split at h
      · cases h
        exact .inl ⟨rfl, rfl⟩
      · split at h
        · cases h
          exact .inl ⟨rfl, rfl⟩
        · cases h
          exact .inr ⟨hawaiting, htype, _, rfl⟩
    · cases h
      exact .inl ⟨rfl, rfl⟩
  next htype =>
  split at h
  · cases h
    exact .inl ⟨rfl, rfl⟩
  · next state hstate =>
    split at h
    · cases h
      exact .inl ⟨rfl, rfl⟩
    next hanswered =>
    split at h
    · cases h
      exact .inl ⟨rfl, rfl⟩
    next hmatch =>
    exact absurd (.reply hphase (by simpa using hreply) htype hstate (by simpa using hanswered)
      (not_not.1 hmatch)) (hnot state)

theorem fail_of_not_settles {tag : UInt16}
    (hnot : ∀ state, ¬ Settles s (.fail tag) tag .cancelled state) :
    (s.fail tag).2 = s ∧ (s.fail tag).1.isOk = false := by
  unfold fail
  split
  · exact ⟨rfl, rfl⟩
  next hphase =>
  split
  · exact ⟨rfl, rfl⟩
  · next state hstate =>
    split
    · exact ⟨rfl, rfl⟩
    next hanswered =>
    exact absurd (.failure hphase hstate (by simpa using hanswered)) (hnot state)

/-- Everything a call can do. -/
inductive Turn (s : Session) : Call → Session → Prop
  | same {call : Call} : call.admitted s = none →
      (∀ tag outcome state, ¬ Settles s call tag outcome state) → Turn s call s
  | admitted {frame : Frame} {t : Session} : Call.admitted s (.request frame) = some frame →
      Accepts s frame t → Turn s (.request frame) t
  | versioned {frame : Frame} {msize : UInt32} : s.phase = .awaitingVersion →
      frame.messageType = .rversion →
      Turn s (.complete frame) { s with msize, pendingMsize := none, phase := .versioned }
  | retired {call : Call} {tag : UInt16} {outcome : FlushOutcome} {state : TagState} {t : Session} :
      Settles s call tag outcome state → Applied state.effect s t →
      Turn s call (t.settle tag state outcome)
  | closed : Turn s .close s.close

theorem turn_of_next {call : Call} (h : call.next s = some t) : Turn s call t := by
  unfold Call.next at h
  rw [Option.map_eq_some_iff] at h
  obtain ⟨⟨ok, u⟩, hexec, rfl⟩ := h
  cases call with
  | request frame =>
    cases hexec
    rcases request_cases s frame with ⟨hok, haccepts⟩ | ⟨hrefused, hsame⟩
    · exact .admitted (by simp [Call.admitted, hok]) haccepts
    · rw [hsame]
      exact .same (by simp [Call.admitted, hrefused]) fun _ _ _ h => nomatch h
  | complete frame =>
    rw [Call.exec, Option.map_eq_some_iff] at hexec
    obtain ⟨⟨r, v⟩, hcomplete, heq⟩ := hexec
    cases heq
    by_cases hsettles : ∃ state, Settles s (.complete frame) frame.tag .answered state
    · obtain ⟨state, hsettles⟩ := hsettles
      rw [hsettles.complete_eq.2.2, Option.map_eq_some_iff] at hcomplete
      obtain ⟨⟨applied, w⟩, happlied, heq⟩ := hcomplete
      cases heq
      exact .retired hsettles (applyEffect_applied happlied)
    · rw [not_exists] at hsettles
      rcases complete_of_not_settles hsettles hcomplete with
        ⟨rfl, _⟩ | ⟨hphase, htype, msize, rfl⟩
      · refine .same rfl fun tag outcome state h => ?_
        obtain ⟨rfl, rfl, _⟩ := h.complete_eq
        exact hsettles state h
      · exact .versioned hphase htype
  | fail tag =>
    cases hexec
    by_cases hsettles : ∃ state, Settles s (.fail tag) tag .cancelled state
    · obtain ⟨state, hsettles⟩ := hsettles
      obtain ⟨_, w, happlied, heq⟩ := hsettles.fail_eq
      rw [heq]
      exact .retired hsettles happlied
    · rw [not_exists] at hsettles
      rw [(fail_of_not_settles hsettles).1]
      refine .same rfl fun tag' outcome state h => ?_
      cases h with
      | failure hphase hstate hanswered => exact hsettles state (.failure hphase hstate hanswered)
  | close =>
    cases hexec
    exact .closed

end Session

end AgentUplink.NineP
