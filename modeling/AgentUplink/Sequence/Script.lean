import AgentUplink.Sequence.Direction

/-!
# What a sender has emitted

The script of a direction is the list of sequenced frames its sender has
emitted, oldest first. A sender can only build scripts that are numbered from
one and end at most with a FIN, a RESET, or a FIN and then a RESET; everything
the two endpoints agree on later is stated against the script.
-/

namespace AgentUplink

open DirectionState List Option

/-- What may still be sent after a direction's terminal: a RESET may follow a FIN,
and nothing follows a RESET. -/
def mayFollow : Option Terminal → FrameKind → Bool
  | none, _ => true
  | some .fin, .reset => true
  | some _, _ => false

variable {f : Frame} {t : Option Terminal} {kind : FrameKind} {n : Nat}

theorem validateTerminal_eq_ok : validateTerminal t kind = .ok () ↔ mayFollow t kind = true := by
  unfold validateTerminal mayFollow
  split <;> simp

theorem mayFollow_some {t : Terminal} (h : mayFollow (some t) kind = true) :
    t = .fin ∧ kind = .reset := by
  unfold mayFollow at h
  split at h <;> simp_all

def Frame.closing (f : Frame) : Option Terminal :=
  match terminalOf f with
  | .ok terminal => terminal
  | .error _ => none

theorem terminalOf_of_validate (h : f.validate = .ok ()) : terminalOf f = .ok f.closing := by
  unfold Frame.closing
  cases hf : terminalOf f with
  | ok terminal => rfl
  | error e =>
    -- Only the reason of a RESET can fail to be read, and validation excludes that.
    unfold terminalOf at hf
    cases hk : f.kind <;> simp only [hk] at hf <;> try cases hf
    obtain ⟨reason, hreason⟩ := Frame.resetReason_of_validate h hk
    rw [hreason] at hf
    cases hf

theorem Frame.closing_of_fin (hk : f.kind = .fin) : f.closing = some .fin := by
  simp [Frame.closing, terminalOf, hk]

theorem Frame.closing_of_reset (h : f.validate = .ok ()) (hk : f.kind = .reset) :
    ∃ reason, f.closing = some (.reset reason) := by
  obtain ⟨reason, hreason⟩ := Frame.resetReason_of_validate h hk
  refine ⟨reason, ?_⟩
  simp only [Frame.closing, terminalOf, hk, hreason]
  rfl

theorem Frame.closing_of_not_terminal (hk : f.kind.isTerminal = false) : f.closing = none := by
  unfold Frame.closing terminalOf
  cases hf : f.kind <;> simp [hf, FrameKind.isTerminal] at hk ⊢

theorem Frame.SameLogical.closing_eq {g : Frame} (h : f.SameLogical g) : f.closing = g.closing :=
  h.congr Frame.closing fun _ => rfl

/-- The terminal in force after a list of frames, with its sequence number. -/
def closing (frames : List Frame) : Option (Terminal × Nat) :=
  frames.foldl (fun t f => (f.closing.map fun terminal => (terminal, f.sequence.toNat)).or t) none

theorem closing_snoc (frames : List Frame) (f : Frame) :
    closing (frames ++ [f]) =
      (f.closing.map fun terminal => (terminal, f.sequence.toNat)).or (closing frames) := by
  simp [closing]

structure Script (log : List Frame) : Prop where
  sequence : ∀ i f, log[i]? = some f → f.sequence.toNat = i + 1
  valid : ∀ f ∈ log, f.validate = .ok ()
  sequenced : ∀ f ∈ log, f.kind.sequenced = true
  order : ∀ i f, log[i]? = some f → mayFollow ((closing (log.take i)).map Prod.fst) f.kind = true

namespace Script

theorem nil : Script [] where
  sequence i f h := by simp at h
  valid f h := by simp at h
  sequenced f h := by simp at h
  order i f h := by simp at h

variable {log : List Frame}

variable {n k : Nat} {f : Frame}

theorem snoc (h : Script log) (hseq : f.sequence.toNat = log.length + 1)
    (hvalid : f.validate = .ok ()) (hsequenced : f.kind.sequenced = true)
    (horder : mayFollow ((closing log).map Prod.fst) f.kind = true) : Script (log ++ [f]) where
  sequence i g hg := by
    rcases lt_or_ge i log.length with hi | hi
    · rw [List.getElem?_append_left hi] at hg
      exact h.sequence i g hg
    · rw [List.getElem?_append_right hi, List.getElem?_singleton] at hg
      split at hg
      · cases hg
        omega
      · cases hg
  valid := forall_mem_append.2 ⟨h.valid, forall_mem_singleton.2 hvalid⟩
  sequenced := forall_mem_append.2 ⟨h.sequenced, forall_mem_singleton.2 hsequenced⟩
  order i g hg := by
    rcases lt_or_ge i log.length with hi | hi
    · rw [List.getElem?_append_left hi] at hg
      rw [take_append_of_le_length (le_of_lt hi)]
      exact h.order i g hg
    · rw [List.getElem?_append_right hi, List.getElem?_singleton] at hg
      split at hg
      · have hi' : i = log.length := by omega
        cases hg
        subst hi'
        simpa using horder
      · cases hg

theorem exists_of_lt (log : List Frame) {i : Nat} (hi : i < log.length) : ∃ f, log[i]? = some f :=
  ⟨log[i], List.getElem?_eq_getElem hi⟩

theorem length_lt (h : Script log) : log.length < Machine.wordBound := by
  rcases eq_zero_or_pos log.length with hlen | hlen
  · rw [hlen]
    decide
  · obtain ⟨f, hf⟩ := exists_of_lt log (i := log.length - 1) (by omega)
    have hseq := h.sequence _ f hf
    have hword := f.sequence.toNat_lt
    unfold Machine.wordBound
    omega

theorem closing_take_succ (hf : log[n]? = some f) :
    closing (log.take (n + 1)) =
      (f.closing.map fun terminal => (terminal, f.sequence.toNat)).or (closing (log.take n)) := by
  rw [take_add_one, hf]
  exact closing_snoc _ f

/-- The rest of a script, by its sequence numbers. -/
theorem sequences_drop (h : Script log) (n : Nat) :
    (log.drop n).map (fun f => f.sequence.toNat) = List.range' (n + 1) (log.length - n) := by
  apply ext_getElem?
  intro i
  rw [List.getElem?_map, List.getElem?_drop]
  by_cases hi : i < log.length - n
  · obtain ⟨f, hf⟩ := exists_of_lt log (i := n + i) (by omega)
    rw [hf, List.getElem?_range' hi, map_some, h.sequence _ f hf]
    congr 1
    omega
  · rw [List.getElem?_eq_none (by omega), List.getElem?_eq_none (by simpa using hi), map_none]

/-- A terminal in force after `n` frames is the terminal of the frame numbered `n`. -/
theorem closing_sequence (h : Script log) {t : Terminal} (hn : n ≤ log.length)
    (hc : closing (log.take n) = some (t, k)) : k = n ∧ 0 < n := by
  cases n with
  | zero => simp [closing] at hc
  | succ n =>
    obtain ⟨f, hf⟩ := exists_of_lt log (i := n) (by omega)
    have hfollow := h.order n f hf
    rw [closing_take_succ hf] at hc
    cases hcl : f.closing with
    | some terminal =>
      rw [hcl] at hc
      simp only [map_some, some_or, Option.some.injEq, Prod.mk.injEq] at hc
      have := h.sequence n f hf
      omega
    | none =>
      -- A DATA frame cannot follow a terminal, so none was in force before it.
      rw [hcl, map_none, none_or] at hc
      rw [hc] at hfollow
      obtain ⟨_, hk⟩ := mayFollow_some hfollow
      obtain ⟨reason, hr⟩ := Frame.closing_of_reset (h.valid f (mem_of_getElem? hf)) hk
      cases hr.symm.trans hcl

theorem length_le_of_reset (h : Script log) {reason : UInt16}
    (hc : closing (log.take n) = some (.reset reason, k)) : log.length ≤ n := by
  by_contra hlt
  obtain ⟨f, hf⟩ := exists_of_lt log (i := n) (by omega)
  have hfollow := h.order n f hf
  rw [hc] at hfollow
  obtain ⟨hfin, _⟩ := mayFollow_some hfollow
  cases hfin

theorem length_le_of_fin (h : Script log) (hc : closing (log.take n) = some (.fin, k)) :
    log.length ≤ n + 1 := by
  rcases lt_or_ge n log.length with hlt | hge
  · obtain ⟨f, hf⟩ := exists_of_lt log hlt
    have hfollow := h.order n f hf
    rw [hc] at hfollow
    obtain ⟨_, hk⟩ := mayFollow_some hfollow
    obtain ⟨reason, hr⟩ := Frame.closing_of_reset (h.valid f (mem_of_getElem? hf)) hk
    have hclosed : closing (log.take (n + 1)) = some (.reset reason, f.sequence.toNat) := by
      rw [closing_take_succ hf, hr]
      rfl
    exact h.length_le_of_reset hclosed
  · omega

theorem closing_none_of_lt (h : Script log) (hn : n + 1 < log.length) :
    closing (log.take n) = none := by
  cases hc : closing (log.take n) with
  | none => rfl
  | some entry =>
    obtain ⟨t, k⟩ := entry
    cases t with
    | fin =>
      have := h.length_le_of_fin hc
      omega
    | reset reason =>
      have := h.length_le_of_reset hc
      omega

end Script

/-! ## What a script weighs -/

variable (frames : List Frame)

/-- The DATA payload of a list of frames. -/
def creditSum : Nat := (frames.map Frame.credit).sum

def dataCount (f : Frame) : Nat := if f.kind = .data then 1 else 0

def terminalCount (f : Frame) : Nat := if f.kind.isTerminal then 1 else 0

def terminalBytes (f : Frame) : Nat := if f.kind.isTerminal then f.payload.length else 0

theorem creditSum_snoc (f : Frame) : creditSum (frames ++ [f]) = creditSum frames + f.credit := by
  simp [creditSum]

theorem creditSum_take_succ {frames : List Frame} (hf : frames[n]? = some f) :
    creditSum (frames.take (n + 1)) = creditSum (frames.take n) + f.credit := by
  rw [take_add_one, hf]
  exact creditSum_snoc _ f

theorem creditSum_take_add_drop (n : Nat) (frames : List Frame) :
    creditSum (frames.take n) + creditSum (frames.drop n) = creditSum frames := by
  unfold creditSum
  rw [← sum_append, ← map_append, take_append_drop]

theorem sum_drop_le (w : Frame → Nat) (frames : List Frame) {m : Nat} (h : n ≤ m) :
    ((frames.drop m).map w).sum ≤ ((frames.drop n).map w).sum := by
  obtain ⟨i, rfl⟩ : ∃ i, m = n + i := ⟨m - n, by omega⟩
  rw [← drop_drop]
  have hsplit := congrArg (fun l => (List.map w l).sum) (take_append_drop i (frames.drop n))
  simp only [map_append, sum_append] at hsplit
  omega

theorem sum_dataCount_le : (frames.map dataCount).sum ≤ frames.length := by
  induction frames with
  | nil => exact le_refl 0
  | cons f frames ih =>
    have hf : dataCount f ≤ 1 := by
      unfold dataCount
      split <;> omega
    rw [map_cons, sum_cons, length_cons]
    omega

theorem creditSum_le_payload : creditSum frames ≤ (frames.map payloadLength).sum := by
  induction frames with
  | nil => exact le_refl 0
  | cons f frames ih =>
    have hf : f.credit ≤ payloadLength f := by
      unfold Frame.credit payloadLength
      split <;> omega
    unfold creditSum at ih ⊢
    rw [map_cons, sum_cons, map_cons, sum_cons]
    omega

theorem one_eq_dataCount_add (h : f.kind.sequenced = true) : 1 = dataCount f + terminalCount f := by
  unfold dataCount terminalCount
  cases hk : f.kind <;> simp_all [FrameKind.sequenced, FrameKind.isTerminal]

theorem payloadLength_eq_credit_add (h : f.kind.sequenced = true) :
    payloadLength f = f.credit + terminalBytes f := by
  unfold payloadLength Frame.credit terminalBytes
  cases hk : f.kind <;> simp_all [FrameKind.sequenced, FrameKind.isTerminal]

/-- How many terminals, of how many bytes, leave a given terminal in force. -/
def TerminalWeight : Option Terminal → Nat → Nat → Prop
  | none, count, bytes => count = 0 ∧ bytes = 0
  | some .fin, count, bytes => count = 1 ∧ bytes = 0
  | some (.reset _), count, bytes => count ≤ 2 ∧ bytes = 2

theorem TerminalWeight.step {count bytes : Nat} (h : TerminalWeight t count bytes)
    (hvalid : f.validate = .ok ()) (hfollow : mayFollow t f.kind = true) :
    TerminalWeight (f.closing.or t) (count + terminalCount f) (bytes + terminalBytes f) := by
  cases hk : f.kind with
  | data | ack | windowUpdate =>
    rw [Frame.closing_of_not_terminal (by rw [hk]; rfl), none_or]
    simpa [terminalCount, terminalBytes, hk, FrameKind.isTerminal] using h
  | fin =>
    have ht : t = none := by
      cases t with
      | none => rfl
      | some t =>
        rw [hk] at hfollow
        cases (mayFollow_some hfollow).2
    subst ht
    have hp := Frame.fin_payload hvalid hk
    rw [Frame.closing_of_fin hk, some_or]
    simpa [TerminalWeight, terminalCount, terminalBytes, hk, hp, FrameKind.isTerminal] using h
  | reset =>
    obtain ⟨reason, hr⟩ := Frame.closing_of_reset hvalid hk
    have hp := Frame.reset_payload_length hvalid hk
    have hcount : terminalCount f = 1 := by simp [terminalCount, hk, FrameKind.isTerminal]
    have hbytes : terminalBytes f = 2 := by simp [terminalBytes, hk, hp, FrameKind.isTerminal]
    rw [hr, some_or, hcount, hbytes]
    cases t with
    | none =>
      obtain ⟨hc, hb⟩ := h
      exact ⟨by omega, by omega⟩
    | some t =>
      obtain ⟨hfin, _⟩ := mayFollow_some hfollow
      subst hfin
      obtain ⟨hc, hb⟩ := h
      exact ⟨by omega, by omega⟩

namespace Script

variable {log : List Frame}

theorem terminals_take (h : Script log) {n : Nat} (hn : n ≤ log.length) :
    TerminalWeight ((closing (log.take n)).map Prod.fst)
      ((log.take n).map terminalCount).sum ((log.take n).map terminalBytes).sum := by
  induction n with
  | zero => exact ⟨rfl, rfl⟩
  | succ n ih =>
    obtain ⟨f, hf⟩ := exists_of_lt log (i := n) (by omega)
    have hstep := (ih (by omega)).step (h.valid f (mem_of_getElem? hf)) (h.order n f hf)
    have hsum : ∀ w : Frame → Nat,
        ((log.take (n + 1)).map w).sum = ((log.take n).map w).sum + w f := by
      intro w
      rw [take_add_one, hf, map_append, sum_append]
      rfl
    have hclosing : (closing (log.take (n + 1))).map Prod.fst =
        f.closing.or ((closing (log.take n)).map Prod.fst) := by
      rw [closing_take_succ hf]
      cases f.closing <;> rfl
    rw [hsum, hsum, hclosing]
    exact hstep

theorem terminals_le (h : Script log) :
    (log.map terminalCount).sum ≤ 2 ∧ (log.map terminalBytes).sum ≤ 2 := by
  have hall := h.terminals_take (le_refl log.length)
  rw [take_length] at hall
  unfold TerminalWeight at hall
  split at hall <;> omega

/-- Past any point a script holds at most two terminals more than its DATA, and
they carry at most two bytes. -/
theorem drop_le (h : Script log) (n : Nat) :
    (log.drop n).length ≤ ((log.drop n).map dataCount).sum + 2 ∧
      ((log.drop n).map payloadLength).sum ≤ creditSum (log.drop n) + 2 := by
  have hsequenced : ∀ f ∈ log.drop n, f.kind.sequenced = true := fun f hf =>
    h.sequenced f (mem_of_mem_drop hf)
  have hcount : (log.drop n).length =
      ((log.drop n).map fun f => dataCount f + terminalCount f).sum := by
    rw [← map_congr_left fun f hf => one_eq_dataCount_add (hsequenced f hf)]
    simp
  have hbytes : ((log.drop n).map payloadLength).sum =
      ((log.drop n).map fun f => f.credit + terminalBytes f).sum := by
    rw [← map_congr_left fun f hf => payloadLength_eq_credit_add (hsequenced f hf)]
  have hle := h.terminals_le
  have hdropCount := sum_drop_le terminalCount log (Nat.zero_le n)
  have hdropBytes := sum_drop_le terminalBytes log (Nat.zero_le n)
  rw [drop_zero] at hdropCount hdropBytes
  rw [sum_map_add] at hcount hbytes
  unfold creditSum
  omega

end Script

end AgentUplink
