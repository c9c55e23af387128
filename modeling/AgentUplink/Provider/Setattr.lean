import AgentUplink.Lib.Weakest
import AgentUplink.NineP.Session

/-!
# Changing attributes

A `Tsetattr` names a size, a mode and two times in one mask, and the host may refuse the
second change after it has made the first. The state of `Mutating` is the list of the
changes that the host has made.
-/

open Fallible Std

namespace AgentUplink.Setattr

open NineP (FsErrorCode Session)

/-- Weakest first. -/
inductive Outcome
  | notStarted
  | failed
  /-- Some effect applied and the rest did not. -/
  | partly
  | unknown
  deriving DecidableEq

def Outcome.merge (self later : Outcome) : Outcome :=
  if later.ctorIdx ≥ self.ctorIdx then later else self

/-- A failure by what its `code` and its `outcome` are. -/
structure FsError where
  code : FsErrorCode
  outcome : Outcome

def FsError.refused (code : FsErrorCode) : FsError := { code, outcome := .notStarted }

inductive TimeChange
  | omit
  | now
  | explicit (sec nsec : UInt64)
  deriving DecidableEq

inductive Change
  | size (size : UInt64)
  | mode (mode : UInt32)
  | times (atime mtime : TimeChange)

abbrev Mutating := EStateM FsError (List Change)

/-- The answers of a host, which may depend on the changes it has made. -/
structure Host (Handle : Type) where
  resolve : List Change → Fs.VirtualPath → Except FsError Handle
  setSize : List Change → Fs.VirtualPath → UInt64 → Except FsError Unit
  setSizeThrough : List Change → Handle → UInt64 → Except FsError Unit
  setMode : List Change → Handle → UInt32 → Except FsError Unit
  setTimes : List Change → Handle → TimeChange → TimeChange → Except FsError Unit

structure SetattrRequest where
  valid : UInt32
  mode : UInt32
  size : UInt64
  atime : UInt64 × UInt64
  mtime : UInt64 × UInt64

def timesOf (valid field explicit : UInt32) (value : UInt64 × UInt64) : TimeChange :=
  if valid &&& field = 0 then .omit
  else if valid &&& explicit = 0 then .now
  else .explicit value.1 value.2

def escalate (applied : Bool) (error : FsError) : FsError :=
  if !applied then error
  else { code := error.code, outcome := error.outcome.merge .partly }

/-- One change, if it is asked for. The result says whether any has been made. -/
def change (asked : Prop) [Decidable asked] (applied : Bool)
    (answer : List Change → Except FsError Unit) (made : Change) : Mutating Bool :=
  if asked then do
    EStateM.adaptExcept (escalate applied) (do check (answer (← get)))
    modify (· ++ [made])
    return true
  else return applied

variable {Handle : Type} (host : Host Handle) (session : Session)
  (opened : ExtTreeMap UInt32 (Nat × Handle)) (fid : UInt32)

/-- The descriptor of the fid as it is bound now. -/
def cached : Option Handle := do
  let state ← session.fids[fid]?
  let (generation, handle) ← opened[fid]?
  if generation = state.generation then some handle else none

def pathOf : Except FsError Fs.VirtualPath :=
  match session.fids[fid]? with
  | some state => .ok state.path
  | none => .error (.refused .einval)

def performSetattr (request : SetattrRequest) : Mutating NineP.Message := do
  let path ← check (pathOf session fid)
  let cached := cached session opened fid
  let applied ← change (request.valid &&& NineP.setattrSize ≠ 0) false
    (fun applied => match cached with
      | some handle => host.setSizeThrough applied handle request.size
      | none => host.setSize applied path request.size) (.size request.size)
  let applied ← change (request.valid &&& NineP.setattrMode ≠ 0) applied
    (fun applied => match cached with
      | some handle => host.setMode applied handle request.mode
      | none => do host.setMode applied (← host.resolve applied path) request.mode)
    (.mode request.mode)
  let atime := timesOf request.valid NineP.setattrAtime NineP.setattrAtimeSet request.atime
  let mtime := timesOf request.valid NineP.setattrMtime NineP.setattrMtimeSet request.mtime
  let applied ← change (atime ≠ .omit ∨ mtime ≠ .omit) applied
    (fun applied => match cached with
      | some handle => host.setTimes applied handle atime mtime
      | none => do host.setTimes applied (← host.resolve applied path) atime mtime)
    (.times atime mtime)
  failIf (!applied) (.refused .enotsup)
  return .rsetattr

/-! ## What is reported -/

/-- The failure does not hide a change. -/
def Honest (e : FsError) (made : List Change) : Prop :=
  made ≠ [] → e.outcome = .partly ∨ e.outcome = .unknown

theorem change_spec {asked : Prop} [Decidable asked] {applied : Bool} {made : List Change}
    (h : applied = true ↔ made ≠ []) (answer : List Change → Except FsError Unit) (c : Change) :
    wp (change asked applied answer c) made
      (fun applied' made' => (applied' = true ↔ made' ≠ []) ∧
        made' = made ++ if asked then [c] else []) Honest := by
  unfold change
  by_cases hasked : asked
  · simp only [hasked, if_true, wp_bind, wp_adaptExcept, wp_get, wp_check, wp_modify, wp_pure]
    refine ⟨fun e _ hmade => ?_, fun _ _ => ⟨by simp, trivial⟩⟩
    rw [escalate, h.2 hmade]
    cases e.outcome with
    | notStarted | failed | partly => exact .inl rfl
    | unknown => exact .inr rfl
  · simp only [hasked, if_false, wp_pure]
    exact ⟨h, (List.append_nil _).symm⟩

theorem timesOf_of_named {valid field explicit : UInt32} (h : valid &&& field ≠ 0)
    (value : UInt64 × UInt64) :
    timesOf valid field explicit value ≠ .omit ∧ timesOf valid field explicit value =
      if valid &&& explicit = 0 then .now else .explicit value.1 value.2 := by
  rw [timesOf, if_neg h]
  refine ⟨?_, rfl⟩
  split <;> simp

/-- After an `Rsetattr` the host has made every change that the mask names, with the value
the mask asks for. A failure that is settled has changed nothing, and one that comes after
a change says so. -/
theorem setattr_reports (request : SetattrRequest) :
    wp (performSetattr host session opened fid request) []
      (fun reply made => reply = .rsetattr ∧
        (request.valid &&& NineP.setattrSize ≠ 0 → .size request.size ∈ made) ∧
        (request.valid &&& NineP.setattrMode ≠ 0 → .mode request.mode ∈ made) ∧
        (request.valid &&& NineP.setattrAtime ≠ 0 → ∃ mtime, .times
          (if request.valid &&& NineP.setattrAtimeSet = 0 then .now
            else .explicit request.atime.1 request.atime.2) mtime ∈ made) ∧
        (request.valid &&& NineP.setattrMtime ≠ 0 → ∃ atime, .times atime
          (if request.valid &&& NineP.setattrMtimeSet = 0 then .now
            else .explicit request.mtime.1 request.mtime.2) ∈ made))
      fun e made => (e.outcome = .notStarted ∨ e.outcome = .failed → made = []) ∧
        (made ≠ [] → e.outcome = .partly ∨ e.outcome = .unknown) := by
  have hsettled (e : FsError) (made : List Change) (h : Honest e made) :
      (e.outcome = .notStarted ∨ e.outcome = .failed → made = []) ∧
        (made ≠ [] → e.outcome = .partly ∨ e.outcome = .unknown) := by
    refine ⟨fun houtcome => ?_, h⟩
    by_contra hmade
    rcases h hmade with hpartly | hpartly <;> simp [hpartly] at houtcome
  refine wp_mono ?_ (fun _ _ h => h) hsettled
  unfold performSetattr
  rw [wp_bind, wp_check]
  refine ⟨fun e _ h => absurd rfl h, fun path _ => ?_⟩
  rw [wp_bind]
  refine wp_mono (change_spec (by simp) _ _) (fun applied made hsize => ?_) fun _ _ h => h
  rw [wp_bind]
  refine wp_mono (change_spec hsize.1 _ _) (fun applied made hmode => ?_) fun _ _ h => h
  rw [wp_bind]
  refine wp_mono (change_spec hmode.1 _ _) (fun applied made htimes => ?_) fun _ _ h => h
  simp only [wp_bind, wp_failIf, wp_pure]
  refine ⟨fun hnone hmade => ?_, fun _ => ⟨trivial, ?_⟩⟩
  · rw [htimes.1.2 hmade] at hnone
    cases hnone
  · rw [htimes.2, hmode.2, hsize.2]
    refine ⟨fun h => by simp [h], fun h => by simp [h], fun h => ?_, fun h => ?_⟩
    · obtain ⟨hne, heq⟩ := timesOf_of_named h request.atime
      exact ⟨_, List.mem_append_right _ (by
        rw [if_pos (.inl hne), heq]
        exact List.mem_singleton_self _)⟩
    · obtain ⟨hne, heq⟩ := timesOf_of_named h request.mtime
      exact ⟨_, List.mem_append_right _ (by
        rw [if_pos (.inr hne), heq]
        exact List.mem_singleton_self _)⟩

end AgentUplink.Setattr
