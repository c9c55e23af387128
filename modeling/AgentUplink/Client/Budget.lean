import AgentUplink.Lib.Fallible
import AgentUplink.Lib.Trace

/-!
# The materialization budget of the TypeScript client

All `readFile` calls of one filesystem charge the bytes they hold to one budget. A call
runs between its await points: it starts, takes a chunk of its stream, and leaves
through `finally`, where it gives back what it reserved.
-/

namespace AgentUplink.Client

open List

inductive ErrorCode
  | efbig
  | resourceExhausted
  deriving DecidableEq

inductive Outcome
  | notStarted
  deriving DecidableEq

structure FilesystemError where
  code : ErrorCode
  operation : String
  path : Option String
  outcome : Outcome
  retryable : Bool
  deriving DecidableEq

/-- `used` is a JavaScript number that nothing keeps from becoming negative. -/
structure MaterializationBudget where
  used : Int
  perFile : Nat
  total : Nat

namespace MaterializationBudget

def new (perFile total : Nat) : MaterializationBudget := { used := 0, perFile, total }

variable (b : MaterializationBudget)

def outstanding : Int := b.used

def reserve (bytes : Int) (operation : String) (path : Option String)
    (materialized : Int) : Except FilesystemError MaterializationBudget :=
  if materialized > b.perFile then
    .error { code := .efbig, operation, path, outcome := .notStarted, retryable := false }
  else if b.used + bytes > b.total then
    .error { code := .resourceExhausted, operation, path, outcome := .notStarted,
             retryable := true }
  else .ok { b with used := b.used + bytes }

/-- Grow one materialization from `old` bytes to `new`. `reserve` is asked for the
difference, and then `old` is taken off as well. -/
def grow (old new : Int) (operation : String) (path : Option String) :
    Except FilesystemError MaterializationBudget := do
  let b ← b.reserve (new - old) operation path new
  return { b with used := b.used - old }

def release (bytes : Int) : MaterializationBudget :=
  { b with used := max 0 (b.used - bytes) }

end MaterializationBudget

/-- Where a `readFile` call stands. A call that was refused is `unwinding` until its
stream has been closed. -/
inductive ReadPhase
  | reading
  | unwinding (error : FilesystemError)
  | returned (out : List UInt8)
  | thrown (error : Option FilesystemError)
  deriving DecidableEq

/-- The local variables of a `readFile` call. -/
structure FileRead where
  path : String
  chunks : List (List UInt8)
  total : Nat
  reserved : Nat
  phase : ReadPhase

namespace FileRead

def begin (path : String) : FileRead where
  path := path
  chunks := []
  total := 0
  reserved := 0
  phase := .reading

def inProgress (read : FileRead) : Bool :=
  match read.phase with
  | .reading => true
  | .unwinding _ => true
  | .returned _ => false
  | .thrown _ => false

def held (read : FileRead) : Nat := if read.inProgress then read.reserved else 0

def copyChunks (out : List UInt8) (position : Nat) : List (List UInt8) → List UInt8
  | [] => out
  | chunk :: chunks =>
    copyChunks (out.take position ++ chunk ++ out.drop (position + chunk.length))
      (position + chunk.length) chunks

def output (read : FileRead) : List UInt8 := copyChunks (List.replicate read.total 0) 0 read.chunks

end FileRead

structure RemoteFilesystem where
  budget : MaterializationBudget
  reads : List FileRead

namespace RemoteFilesystem

def new (perFile total : Nat) : RemoteFilesystem where
  budget := .new perFile total
  reads := []

section

variable (s : RemoteFilesystem)

def readFile (path : String) : RemoteFilesystem :=
  { s with reads := s.reads ++ [.begin path] }

def setRead (i : Nat) (read : FileRead) : RemoteFilesystem :=
  { s with reads := s.reads.set i read }

/-- The body of the loop over a call's stream. -/
def takeChunk (i : Nat) (chunk : List UInt8) : RemoteFilesystem :=
  match s.reads[i]? with
  | some read =>
    match read.phase with
    | .reading =>
      let read := { read with total := read.total + chunk.length }
      if read.total > read.reserved then
        match s.budget.grow read.reserved read.total "readFile" (some read.path) with
        | .error error => s.setRead i { read with phase := .unwinding error }
        | .ok budget =>
          { s with budget }.setRead i
            { read with reserved := read.total, chunks := read.chunks ++ [chunk] }
      else s.setRead i { read with chunks := read.chunks ++ [chunk] }
    | _ => s
  | none => s

/-- `finally`: the reservation is released. -/
def settle (i : Nat) (read : FileRead) (phase : ReadPhase) :
    RemoteFilesystem :=
  { s with budget := s.budget.release read.reserved }.setRead i { read with phase }

def finish (i : Nat) : RemoteFilesystem :=
  match s.reads[i]? with
  | some read =>
    match read.phase with
    | .reading => s.settle i read (.returned read.output)
    | _ => s
  | none => s

/-- The stream of a call has failed or was aborted, or the stream of a refused call has
been closed. -/
def fail (i : Nat) : RemoteFilesystem :=
  match s.reads[i]? with
  | some read =>
    match read.phase with
    | .reading => s.settle i read (.thrown none)
    | .unwinding error => s.settle i read (.thrown (some error))
    | _ => s
  | none => s

end

inductive Event
  | readFile (path : String)
  | takeChunk (read : Nat) (chunk : List UInt8)
  | finish (read : Nat)
  | fail (read : Nat)

def step : Event → RemoteFilesystem → RemoteFilesystem
  | .readFile path, s => s.readFile path
  | .takeChunk i chunk, s => s.takeChunk i chunk
  | .finish i, s => s.finish i
  | .fail i, s => s.fail i

def after (perFile total : Nat) (events : List Event) : RemoteFilesystem :=
  Trace.run step (new perFile total) events

def held (s : RemoteFilesystem) : Nat := (s.reads.map FileRead.held).sum

/-- The accounting the budget promises, at one moment. -/
structure Accounted (s : RemoteFilesystem) : Prop where
  exact : s.budget.outstanding = s.held
  nonneg : 0 ≤ s.budget.outstanding
  bounded : s.budget.outstanding ≤ s.budget.total
  /-- Whatever chunk a call takes next, it is refused for lack of budget exactly when it
  fits the limit of a file and all calls together would pass the total. -/
  refuses : ∀ read ∈ s.reads, read.phase = .reading → ∀ chunk : List UInt8, chunk ≠ [] →
    ((∃ error, error.code = .resourceExhausted ∧
        s.budget.grow read.reserved (read.total + chunk.length : Nat) "readFile"
          (some read.path) = .error error) ↔
      read.total + chunk.length ≤ s.budget.perFile ∧
        s.budget.total < s.held - read.reserved + (read.total + chunk.length))
  /-- Whichever call leaves next, the clamp has nothing to do. -/
  unclamped : ∀ read ∈ s.reads, read.inProgress = true →
    (s.budget.release read.reserved).used = s.budget.used - read.reserved
  idle : (∀ read ∈ s.reads, read.inProgress = false) → s.budget.outstanding = 0

/-- A chunk is the first of its call, or it is refused. -/
def Event.Meets (s : RemoteFilesystem) : Event → Prop
  | takeChunk i chunk => ∀ read, s.reads[i]? = some read → read.phase = .reading → chunk ≠ [] →
      read.reserved = 0 ∨ s.budget.perFile < read.total + chunk.length ∨
        s.budget.total < s.held + chunk.length
  | _ => True

/-! ## Sums over the calls -/

variable {s : RemoteFilesystem} {i : Nat} {read : FileRead}

theorem sum_map_set {α : Type} {f : α → Nat} {l : List α} {i : Nat} {a : α} (a' : α)
    (h : l[i]? = some a) : ((l.set i a').map f).sum + f a = (l.map f).sum + f a' := by
  induction l generalizing i with
  | nil => simp at h
  | cons b l ih =>
    cases i with
    | zero =>
      obtain rfl : b = a := by simpa using h
      simp only [set_cons_zero, map_cons, sum_cons]
      omega
    | succ i =>
      have := ih (i := i) (by simpa using h)
      simp only [set_cons_succ, map_cons, sum_cons]
      omega

theorem held_setRead (read' : FileRead) (h : s.reads[i]? = some read) :
    (s.setRead i read').held + read.held = s.held + read'.held :=
  sum_map_set read' h

theorem held_le (h : read ∈ s.reads) : read.held ≤ s.held :=
  single_le_sum (fun _ _ => Nat.zero_le _) _ (mem_map_of_mem h)

theorem held_eq_zero (h : ∀ read ∈ s.reads, read.inProgress = false) : s.held = 0 := by
  refine sum_eq_zero fun n hn => ?_
  obtain ⟨read, hread, rfl⟩ := mem_map.1 hn
  simp [FileRead.held, h read hread]

theorem held_readFile (path : String) : (s.readFile path).held = s.held := by
  simp [held, readFile, FileRead.held, FileRead.begin]

/-! ## What a step keeps -/

/-- A call that still reads has reserved all it has read. -/
def Synced (s : RemoteFilesystem) : Prop :=
  ∀ read ∈ s.reads, read.phase = .reading → read.reserved = read.total

structure Balanced (s : RemoteFilesystem) : Prop where
  synced : s.Synced
  exact : s.budget.used = s.held
  bounded : s.budget.used ≤ s.budget.total

theorem Synced.setRead {t : RemoteFilesystem} (h : s.Synced) (hsame : t.reads = s.reads)
    (hread : read.phase = .reading → read.reserved = read.total) : (t.setRead i read).Synced := by
  intro other hmem hphase
  rcases mem_or_eq_of_mem_set hmem with hold | rfl
  · exact h other (hsame ▸ hold) hphase
  · exact hread hphase

theorem Synced.get (h : s.Synced) (hread : s.reads[i]? = some read)
    (hphase : read.phase = .reading) : read.reserved = read.total :=
  h read (mem_of_getElem? hread) hphase

theorem grow_eq (b : MaterializationBudget) (old new : Nat) (operation : String)
    (path : Option String) :
    b.grow old new operation path =
      if b.perFile < new then
        .error { code := .efbig, operation, path, outcome := .notStarted, retryable := false }
      else if b.total < b.used + (new - old) then
        .error { code := .resourceExhausted, operation, path, outcome := .notStarted,
                 retryable := true }
      else .ok { b with used := b.used + (new - old) - old } := by
  unfold MaterializationBudget.grow MaterializationBudget.reserve
  by_cases hfile : b.perFile < new
  · rw [if_pos (by omega), if_pos hfile]
    rfl
  · rw [if_neg (by omega), if_neg hfile]
    by_cases htotal : b.total < b.used + (new - old)
    · rw [if_pos (by omega), if_pos htotal]
      rfl
    · rw [if_neg (by omega), if_neg htotal]
      rfl

theorem Balanced.accounted (h : s.Balanced) : s.Accounted where
  exact := h.exact
  nonneg := by
    have := h.exact
    simp only [MaterializationBudget.outstanding]
    omega
  bounded := h.bounded
  refuses := by
    intro read hmem hphase chunk hchunk
    have hheld := held_le hmem
    have hexact := h.exact
    simp only [FileRead.held, FileRead.inProgress, hphase, if_true] at hheld
    rw [grow_eq]
    constructor
    · intro ⟨error, hcode, hgrow⟩
      split_ifs at hgrow with hfile htotal
      · simp only [Except.error.injEq] at hgrow
        rw [← hgrow] at hcode
        exact absurd hcode (by simp)
      · omega
    · intro ⟨hfile, htotal⟩
      rw [if_neg (by omega), if_pos (by omega)]
      exact ⟨_, rfl, rfl⟩
  unclamped := by
    intro read hmem hprogress
    have hheld := held_le hmem
    have hexact := h.exact
    simp only [FileRead.held, hprogress, if_true] at hheld
    simp only [MaterializationBudget.release]
    omega
  idle := by
    intro hidle
    have hexact := h.exact
    rw [held_eq_zero hidle] at hexact
    exact hexact

/-- A call in progress leaves: the budget gives back exactly what the call held. -/
theorem Balanced.settle {phase : ReadPhase} (h : s.Balanced) (hread : s.reads[i]? = some read)
    (hprogress : read.inProgress = true) (hphase : { read with phase }.inProgress = false) :
    (s.settle i read phase).Balanced := by
  have hset := held_setRead { read with phase } hread
  have hexact := h.exact
  have hbounded := h.bounded
  have hbefore : read.held = read.reserved := by simp [FileRead.held, hprogress]
  have hafter : { read with phase }.held = 0 := by simp only [FileRead.held, hphase]; rfl
  have hsame : (s.settle i read phase).held = (s.setRead i { read with phase }).held := rfl
  refine ⟨h.synced.setRead rfl ?_, ?_, ?_⟩
  · intro hreading
    simp only at hreading
    simp [FileRead.inProgress, hreading] at hphase
  · show max 0 (s.budget.used - read.reserved) = _
    omega
  · show max 0 (s.budget.used - read.reserved) ≤ (s.budget.total : Int)
    omega

theorem Balanced.finish (h : s.Balanced) (i : Nat) : (s.finish i).Balanced := by
  fun_cases RemoteFilesystem.finish s i with
  | case1 read hread hphase =>
    exact h.settle hread (by simp [FileRead.inProgress, hphase]) rfl
  | case2 read hread hphase => exact h
  | case3 hread => exact h

theorem Balanced.fail (h : s.Balanced) (i : Nat) : (s.fail i).Balanced := by
  fun_cases RemoteFilesystem.fail s i with
  | case1 read hread hphase | case2 read hread error hphase =>
    exact h.settle hread (by simp [FileRead.inProgress, hphase]) rfl
  | case3 read hread hreading hunwinding => exact h
  | case4 hread => exact h

/-- A chunk that is empty or does not fit. -/
def Passes (s : RemoteFilesystem) (read : FileRead) (chunk : List UInt8) : Prop :=
  chunk = [] ∨ s.budget.perFile < read.total + chunk.length ∨ s.budget.total < s.held + chunk.length

variable {chunk : List UInt8} {event : Event}

/-- An empty chunk or a refused one leaves the budget alone. -/
theorem takeChunk_of_passes (h : s.Balanced) (hread : s.reads[i]? = some read)
    (hphase : read.phase = .reading) (hpasses : s.Passes read chunk) :
    ∃ read', (read'.phase = .reading → read'.reserved = read'.total) ∧
      s.takeChunk i chunk = s.setRead i read' ∧ read'.held = read.held := by
  have hsynced := h.synced.get hread hphase
  have hexact := h.exact
  unfold takeChunk
  simp only [hread, hphase]
  by_cases hempty : chunk = []
  · subst hempty
    rw [if_neg (by simp only [length_nil]; omega)]
    refine ⟨_, ?_, rfl, ?_⟩
    · simp [hsynced]
    · simp [FileRead.held, FileRead.inProgress, hphase]
  · have hlength : 0 < chunk.length := length_pos_iff.2 hempty
    rw [if_pos (by omega), grow_eq]
    by_cases hfile : s.budget.perFile < read.total + chunk.length
    · rw [if_pos hfile]
      refine ⟨_, ?_, rfl, ?_⟩
      · simp
      · simp [FileRead.held, FileRead.inProgress, hphase]
    · have htotal := (hpasses.resolve_left hempty).resolve_left hfile
      rw [if_neg hfile, if_pos (by push_cast; omega)]
      refine ⟨_, ?_, rfl, ?_⟩
      · simp
      · simp [FileRead.held, FileRead.inProgress, hphase]

/-- For any other chunk the budget takes the bytes before it off once more. -/
theorem takeChunk_of_not_passes (h : s.Balanced) (hread : s.reads[i]? = some read)
    (hphase : read.phase = .reading) (hpasses : ¬ s.Passes read chunk) :
    ∃ read', (read'.phase = .reading → read'.reserved = read'.total) ∧
      s.takeChunk i chunk =
        { s with budget.used := s.budget.used + chunk.length - read.reserved }.setRead i read' ∧
      read'.held = read.held + chunk.length := by
  have hsynced := h.synced.get hread hphase
  have hexact := h.exact
  simp only [Passes, not_or] at hpasses
  obtain ⟨hempty, hfile, htotal⟩ := hpasses
  have hlength : 0 < chunk.length := length_pos_iff.2 hempty
  have hused : s.budget.used + ((read.total + chunk.length : Nat) - read.reserved) - read.reserved
      = s.budget.used + chunk.length - read.reserved := by
    omega
  unfold takeChunk
  simp only [hread, hphase]
  rw [if_pos (by omega), grow_eq, if_neg hfile, if_neg (by push_cast; omega), hused]
  refine ⟨_, ?_, rfl, ?_⟩
  · simp
  · simp [FileRead.held, FileRead.inProgress, hphase, hsynced]

theorem takeChunk_of_not_reading
    (h : ¬ ∃ read, s.reads[i]? = some read ∧ read.phase = .reading) : s.takeChunk i chunk = s := by
  unfold takeChunk
  split
  · rename_i read hread
    split
    · rename_i hphase
      exact absurd ⟨read, hread, hphase⟩ h
    · rfl
  · rfl

theorem Balanced.takeChunk (h : s.Balanced) (hmeets : (Event.takeChunk i chunk).Meets s) :
    (s.takeChunk i chunk).Balanced := by
  by_cases hreading : ∃ read, s.reads[i]? = some read ∧ read.phase = .reading
  · obtain ⟨read, hread, hphase⟩ := hreading
    have hexact := h.exact
    have hbounded := h.bounded
    by_cases hpasses : s.Passes read chunk
    · obtain ⟨read', hsynced, htake, hheld⟩ := takeChunk_of_passes h hread hphase hpasses
      have hset := held_setRead read' hread
      rw [htake]
      refine ⟨h.synced.setRead rfl hsynced, ?_, hbounded⟩
      show s.budget.used = ((s.setRead i read').held : Int)
      omega
    · obtain ⟨read', hsynced, htake, hheld⟩ := takeChunk_of_not_passes h hread hphase hpasses
      have hset := held_setRead read' hread
      simp only [Passes, not_or] at hpasses
      have hzero := (hmeets read hread hphase hpasses.1).resolve_right (by omega)
      rw [htake]
      refine ⟨h.synced.setRead rfl hsynced, ?_, ?_⟩
      · show s.budget.used + chunk.length - read.reserved = ((s.setRead i read').held : Int)
        omega
      · show s.budget.used + chunk.length - read.reserved ≤ (s.budget.total : Int)
        omega
  · rw [takeChunk_of_not_reading hreading]
    exact h

theorem Balanced.step (h : s.Balanced) (hmeets : event.Meets s) : (step event s).Balanced := by
  cases event with
  | readFile path =>
    refine ⟨?_, ?_, h.bounded⟩
    · exact forall_mem_append.2 ⟨h.synced, forall_mem_singleton.2 fun _ => rfl⟩
    · show s.budget.used = ((s.readFile path).held : Int)
      rw [held_readFile]
      exact h.exact
  | takeChunk i chunk => exact h.takeChunk hmeets
  | finish i => exact h.finish i
  | fail i => exact h.fail i

/-- After a chunk that does not meet the condition the budget is wrong. -/
theorem Balanced.meets (h : s.Balanced)
    (hexact : (RemoteFilesystem.step event s).budget.used
      = (RemoteFilesystem.step event s).held) : event.Meets s := by
  cases event with
  | takeChunk i chunk =>
    intro read hread hphase hchunk
    have hbefore := h.exact
    by_cases hpasses : s.Passes read chunk
    · exact .inr (hpasses.resolve_left hchunk)
    · obtain ⟨read', -, htake, hheld⟩ := takeChunk_of_not_passes h hread hphase hpasses
      have hset := held_setRead read' hread
      have hafter : s.budget.used + chunk.length - read.reserved
          = ((s.setRead i read').held : Int) := by
        have hstep : RemoteFilesystem.step (.takeChunk i chunk) s = _ := htake
        rw [hstep] at hexact
        exact hexact
      exact .inl (by omega)
  | readFile path => trivial
  | finish i => trivial
  | fail i => trivial

theorem after_append_singleton (perFile total : Nat) (earlier : List Event) (event : Event) :
    after perFile total (earlier ++ [event]) = step event (after perFile total earlier) := by
  rw [after, Trace.run_append]
  rfl

theorem balanced_after {perFile total : Nat} {events : List Event}
    (h : ∀ earlier event, earlier ++ [event] <+: events →
      (after perFile total earlier).Balanced → event.Meets (after perFile total earlier))
    {earlier : List Event} (hearlier : earlier <+: events) :
    (after perFile total earlier).Balanced := by
  induction earlier using List.reverseRecOn with
  | nil => exact ⟨fun _ hmem => absurd hmem not_mem_nil, rfl, Int.natCast_nonneg total⟩
  | append_singleton earlier event ih =>
    have hbefore := ih ((prefix_append ..).trans hearlier)
    rw [after_append_singleton]
    exact hbefore.step (h _ _ hearlier hbefore)

/-- The budget is exact at every moment of a run if and only if every chunk of the run is
the first of its call or is refused. -/
theorem budget_exact_iff (perFile total : Nat) (events : List Event) :
    (∀ earlier, earlier <+: events → (after perFile total earlier).Accounted) ↔
      ∀ earlier event, earlier ++ [event] <+: events →
        event.Meets (after perFile total earlier) := by
  constructor
  · intro haccounted earlier event hearlier
    have hmeets : ∀ earlier event, earlier ++ [event] <+: events →
        (after perFile total earlier).Balanced → event.Meets (after perFile total earlier) := by
      intro before next hnext hbalanced
      have hexact := (haccounted _ hnext).exact
      rw [after_append_singleton] at hexact
      exact hbalanced.meets hexact
    exact hmeets _ _ hearlier (balanced_after hmeets ((prefix_append ..).trans hearlier))
  · intro hmeets earlier hearlier
    exact (balanced_after (fun _ _ hnext _ => hmeets _ _ hnext) hearlier).accounted

/-- Four chunks of one byte: the call holds four bytes and the budget stands at minus two. -/
theorem four_chunks_go_negative :
    (after 100 100 [.readFile "f", .takeChunk 0 [1], .takeChunk 0 [2], .takeChunk 0 [3],
        .takeChunk 0 [4]]).budget.outstanding = -2 ∧
      (after 100 100 [.readFile "f", .takeChunk 0 [1], .takeChunk 0 [2], .takeChunk 0 [3],
        .takeChunk 0 [4]]).held = 4 := by
  decide

end RemoteFilesystem

end AgentUplink.Client
