/-
Attachment tickets in Redis.

A script runs at once, at a reading of the clock of Redis in microseconds. A ticket is a
hash that disappears at its expiry, in milliseconds, and the tickets of a device are counted
by a sorted set of their digests. The set disappears at the expiry of the ticket issued
last, which need not be the last to expire.
-/
import AgentUplink.Lib.Trace
import AgentUplink.Lib.Utf8

namespace AgentUplink.Tickets

open List

def maxTicketIndexItems : Nat := 64

def maxTicketLifetimeUs : Nat := 30000000

def maxTicketFieldBytes : Nat := 128

def maxTicketPurposeBytes : Nat := 64

structure Owner where
  deploymentIncarnation : String
  nodeId : String
  bootId : String
  sessionId : String
  epoch : String
deriving DecidableEq

structure Binding where
  tenantId : String
  deviceId : String
  spkiFingerprint : String
  owner : Owner
  generation : String
  connectionId : String
  purpose : String
  bindingDigest : String
deriving DecidableEq

/-- The property `White_Space` that `str::trim` goes by. -/
def whiteSpace (c : Char) : Bool :=
  c.toNat ∈ [0x20, 0x85, 0xa0, 0x1680, 0x2028, 0x2029, 0x202f, 0x205f, 0x3000] ||
    0x9 ≤ c.toNat && c.toNat ≤ 0xd || 0x2000 ≤ c.toNat && c.toNat ≤ 0x200a

def validateIdentifier (value : String) (maxBytes : Nat) : Bool :=
  !value.toList.all whiteSpace && value.utf8ByteSize ≤ maxBytes

def validFingerprint (value : String) : Bool :=
  value.utf8ByteSize = 64 &&
    (Utf8.bytes value).all fun b => 48 ≤ b && b ≤ 57 || 97 ≤ b && b ≤ 102

/-- The owner of the binding is one of the same device, in the configured incarnation. -/
def validateBinding (b : Binding) : Bool :=
  validFingerprint b.spkiFingerprint &&
    [b.owner.nodeId, b.owner.bootId, b.owner.sessionId, b.owner.deploymentIncarnation,
      b.connectionId, b.bindingDigest].all (validateIdentifier · maxTicketFieldBytes) &&
    validateIdentifier b.purpose maxTicketPurposeBytes && b.owner.epoch ≠ "0"

structure Credential where
  active : String
  tenantId : String
  deviceId : String
  revokedAtUs : String
  notBeforeUs : Option Nat
  expiresAtUs : Option Nat

/-- What the scripts read besides the tickets; a number that does not parse is absent. -/
structure Surroundings where
  activeIncarnation : Option String
  redisRunId : Option String
  deviceActive : String
  owner : Owner
  leaseExpiresAtUs : Option Nat
  credential : String → Option Credential

def Surroundings.credentialValid (w : Surroundings) (b : Binding) (now : Nat) : Bool :=
  (w.credential b.spkiFingerprint).any fun c =>
    c.active = "1" && c.tenantId = b.tenantId && c.deviceId = b.deviceId && c.revokedAtUs = "" &&
      c.notBeforeUs.any (· ≤ now) && c.expiresAtUs.any (now < ·)

def Surroundings.current (w : Surroundings) (b : Binding) (now : Nat) : Bool :=
  w.deviceActive = "1" && w.leaseExpiresAtUs.any (now < ·) && w.credentialValid b now &&
    w.owner = b.owner

inductive Reply
  | ok
  | incarnation
  | authority
  | stale
  | collision
  | bound
  | missing
  | spent
  | expired
  | mismatch
deriving DecidableEq

structure Ticket where
  binding : Binding
  expiresAtUs : Nat
  spent : Bool

/-- The digest of a ticket is only compared. -/
structure Store (δ : Type) where
  tickets : List (δ × Ticket)
  index : List (δ × Nat)
  indexExpiresAtMs : Nat

/-- A request reaches a script only after `validate_binding`. -/
structure Request (δ : Type) where
  digest : δ
  binding : Binding
  valid : validateBinding binding = true
  redisRunId : String

namespace Store

variable {δ : Type} [DecidableEq δ]

def empty : Store δ := ⟨[], [], 0⟩

def find (s : Store δ) (digest : δ) (now : Nat) : Option Ticket :=
  (s.tickets.find? fun p => p.1 = digest && now / 1000 < p.2.expiresAtUs / 1000).map Prod.snd

/-- The set, unless it has disappeared. -/
def entries (s : Store δ) (now : Nat) : List (δ × Nat) :=
  if now / 1000 < s.indexExpiresAtMs then s.index else []

/-- What `ZREMRANGEBYSCORE` leaves of the set. -/
def kept (s : Store δ) (now : Nat) : List (δ × Nat) :=
  (s.entries now).filter fun e => now / 1000 < e.2

def refusal (w : Surroundings) (r : Request δ) : Option Reply :=
  if w.activeIncarnation ≠ some r.binding.owner.deploymentIncarnation then some .incarnation
  else if w.redisRunId ≠ some r.redisRunId then some .authority
  else none

def issueScript (w : Surroundings) (r : Request δ) (expiry now : Nat) (s : Store δ) :
    Reply × Store δ :=
  match refusal w r with
  | some reply => (reply, s)
  | none =>
    if expiry ≤ now || !w.current r.binding now then (.stale, s)
    else if (s.find r.digest now).isSome then (.collision, s)
    else if maxTicketIndexItems ≤ (s.kept now).length then (.bound, { s with index := s.kept now })
    else
      (.ok,
        { tickets := (r.digest, ⟨r.binding, expiry, false⟩) :: s.tickets
          index := (r.digest, expiry / 1000) :: (s.kept now).filter fun e => e.1 ≠ r.digest
          indexExpiresAtMs := expiry / 1000 })

/-- What is left of `validate_ticket_issue`, by the clock of the caller. -/
def validateTicketIssue (expiry callerNow : Nat) : Bool :=
  callerNow < expiry && expiry - callerNow ≤ maxTicketLifetimeUs

def consumeScript (w : Surroundings) (r : Request δ) (now : Nat) (s : Store δ) :
    Reply × Store δ :=
  match refusal w r with
  | some reply => (reply, s)
  | none =>
    match s.find r.digest now with
    | none => (.missing, s)
    | some ticket =>
      if ticket.spent then (.spent, s)
      else if ticket.expiresAtUs ≤ now then (.expired, s)
      else if !w.current r.binding now then (.stale, s)
      else if ticket.binding ≠ r.binding then (.mismatch, s)
      else
        (.ok,
          { s with
            tickets := s.tickets.map fun p =>
              if p.1 = r.digest then (p.1, { p.2 with spent := true }) else p
            index := (s.entries now).filter fun e => e.1 ≠ r.digest })

/-- The tickets that are unspent and expire more than a millisecond from now. -/
def live (s : Store δ) (now : Nat) : Nat :=
  s.tickets.countP fun p => !p.2.spent && now + 1000 < p.2.expiresAtUs

end Store

inductive Command (δ : Type)
  | issue (r : Request δ) (expiry callerNow : Nat)
  | consume (r : Request δ)

structure Step (δ : Type) where
  now : Nat
  around : Surroundings
  command : Command δ

variable {δ : Type} [DecidableEq δ]

def Step.next (step : Step δ) (s : Store δ) : Store δ :=
  match step.command with
  | .issue r expiry callerNow =>
    if Store.validateTicketIssue expiry callerNow then
      (s.issueScript step.around r expiry step.now).2
    else s
  | .consume r => (s.consumeScript step.around r step.now).2

def after (steps : List (Step δ)) : Store δ := Trace.run Step.next Store.empty steps

/-- The clock of Redis does not go back. -/
structure History (δ : Type) where
  steps : List (Step δ)
  clock : steps.Pairwise fun earlier later => earlier.now ≤ later.now

/-- A ticket that is issued while the index has entries expires no earlier than the index. -/
def Step.KeepsIndex (step : Step δ) (s : Store δ) : Prop :=
  match step.command with
  | .issue r expiry callerNow =>
    Store.validateTicketIssue expiry callerNow = true →
      (s.issueScript step.around r expiry step.now).1 = .ok →
        s.entries step.now = [] ∨ s.indexExpiresAtMs ≤ expiry / 1000
  | .consume _ => True

def KeepsIndex (s : Store δ) : List (Step δ) → Prop
  | [] => True
  | step :: steps => step.KeepsIndex s ∧ KeepsIndex (step.next s) steps

instance (step : Step δ) (s : Store δ) : Decidable (step.KeepsIndex s) := by
  unfold Step.KeepsIndex
  split <;> infer_instance

instance decidableKeepsIndex (s : Store δ) :
    (steps : List (Step δ)) → Decidable (KeepsIndex s steps)
  | [] => inferInstanceAs (Decidable True)
  | step :: steps =>
    have := decidableKeepsIndex (step.next s) steps
    inferInstanceAs (Decidable (_ ∧ _))

/-! ## What a step does -/

inductive Step.Does (step : Step δ) (s : Store δ) : Store δ → Prop
  | nothing : Does step s s
  | prune : Does step s { s with index := s.kept step.now }
  | issue {r : Request δ} {expiry : Nat}
      (hkeeps : step.KeepsIndex s → s.entries step.now = [] ∨ s.indexExpiresAtMs ≤ expiry / 1000)
      (hfree : s.find r.digest step.now = none)
      (hroom : (s.kept step.now).length < maxTicketIndexItems) :
      Does step s
        { tickets := (r.digest, ⟨r.binding, expiry, false⟩) :: s.tickets
          index := (r.digest, expiry / 1000) ::
            (s.kept step.now).filter fun e => e.1 ≠ r.digest
          indexExpiresAtMs := expiry / 1000 }
  | consume (digest : δ) : Does step s
      { s with
        tickets := s.tickets.map fun p =>
          if p.1 = digest then (p.1, { p.2 with spent := true }) else p
        index := (s.entries step.now).filter fun e => e.1 ≠ digest }

theorem Step.does (step : Step δ) (s : Store δ) : step.Does s (step.next s) := by
  obtain ⟨now, around, command⟩ := step
  cases command with
  | issue r expiry callerNow =>
    unfold Step.next
    dsimp only
    split
    · next hvalid =>
      obtain ⟨⟨reply, t⟩, hscript⟩ : ∃ result, s.issueScript around r expiry now = result :=
        ⟨_, rfl⟩
      have hkeeps (hkeeps : Step.KeepsIndex ⟨now, around, .issue r expiry callerNow⟩ s)
          (hreply : reply = .ok) : s.entries now = [] ∨ s.indexExpiresAtMs ≤ expiry / 1000 :=
        hkeeps hvalid ((congrArg Prod.fst hscript).trans hreply)
      rw [hscript]
      unfold Store.issueScript at hscript
      split at hscript
      · cases hscript
        exact .nothing
      split at hscript
      · cases hscript
        exact .nothing
      split at hscript
      · cases hscript
        exact .nothing
      next hfree =>
      split at hscript
      · cases hscript
        exact .prune
      · next hroom =>
        cases hscript
        exact .issue (fun h => hkeeps h rfl) (Option.not_isSome_iff_eq_none.1 hfree)
          (Nat.lt_of_not_le hroom)
    · exact .nothing
  | consume r =>
    unfold Step.next Store.consumeScript
    dsimp only
    repeat' split
    all_goals first | exact .nothing | exact .consume r.digest

variable {step : Step δ} {s t : Store δ}

/-! ## Tickets and the index -/

/-- The unspent tickets that have not expired, with the scores they have in the index. -/
def standing (s : Store δ) (now : Nat) : List (δ × Nat) :=
  ((s.tickets.filter fun p => !p.2.spent).map fun p => (p.1, p.2.expiresAtUs / 1000)).filter
    fun e => now / 1000 < e.2

def Covered (s : Store δ) (now : Nat) : Prop := (standing s now).Sublist (s.entries now)

section

variable {now later since : Nat} {digest : δ}

section

omit [DecidableEq δ]

theorem entries_mono (s : Store δ) (h : now ≤ later) :
    (s.entries later).Sublist (s.entries now) := by
  unfold Store.entries
  split
  · rw [if_pos (by omega)]
  · exact nil_sublist _

theorem Covered.kept (h : Covered s later) (hle : now ≤ later) :
    (standing s later).Sublist (s.kept now) := by
  have hself : (standing s later).filter (fun e => now / 1000 < e.2) = standing s later := by
    refine filter_eq_self.2 fun e he => ?_
    have := (mem_filter.1 he).2
    simp only [decide_eq_true_eq] at this ⊢
    omega
  rw [← hself]
  exact (h.trans (entries_mono s hle)).filter _

theorem Covered.live_le (h : Covered s now) : s.live now ≤ (s.kept now).length := by
  refine le_trans ?_ (h.kept (le_refl now)).length_le
  unfold Store.live standing
  rw [← countP_eq_length_filter, countP_map, countP_filter]
  refine countP_mono_left fun p _ hp => ?_
  simp only [Bool.and_eq_true, decide_eq_true_eq, Function.comp_apply] at hp ⊢
  exact ⟨by omega, hp.1⟩

theorem length_entries_le (s : Store δ) (now : Nat) :
    (s.entries now).length ≤ s.index.length := by
  unfold Store.entries
  split
  · exact le_refl _
  · exact Nat.zero_le _

theorem length_kept_le (s : Store δ) (now : Nat) : (s.kept now).length ≤ s.index.length :=
  (length_filter_le _ _).trans (length_entries_le s now)

end

theorem standing_consumed (s : Store δ) (digest : δ) (index : List (δ × Nat)) (now : Nat) :
    standing { s with
      tickets := s.tickets.map fun p =>
        if p.1 = digest then (p.1, { p.2 with spent := true }) else p
      index } now = (standing s now).filter fun e => e.1 ≠ digest := by
  unfold standing
  induction s.tickets with
  | nil => rfl
  | cons p tickets ih =>
    by_cases hdigest : p.1 = digest <;> by_cases hspent : p.2.spent = true <;>
      by_cases hnow : now / 1000 < p.2.expiresAtUs / 1000 <;>
      simp_all

theorem standing_ne (hfree : s.find digest now = none) (hle : now ≤ later) :
    (standing s later).filter (fun e => e.1 ≠ digest) = standing s later := by
  refine filter_eq_self.2 fun e he => ?_
  obtain ⟨hmem, hlater⟩ := mem_filter.1 he
  obtain ⟨p, hp, rfl⟩ := mem_map.1 hmem
  have hnone := List.find?_eq_none.1 (Option.map_eq_none_iff.1 hfree) p (mem_filter.1 hp).1
  simp only [Bool.and_eq_true, decide_eq_true_eq, not_and] at hlater hnone ⊢
  exact fun hdigest => hnone hdigest (by omega)

/-- The index covers the tickets while no step moves its expiry back. -/
theorem Step.Does.covered (h : step.Does s t) (hcovered : ∀ now, step.now ≤ now → Covered s now)
    (hkeeps : step.KeepsIndex s) (hnow : step.now ≤ now) : Covered t now := by
  have hkept := (hcovered now hnow).kept hnow
  have hgone (hle : ¬ now / 1000 < s.indexExpiresAtMs) : standing s now = [] := by
    have := hcovered now hnow
    rw [Covered, Store.entries, if_neg hle] at this
    exact sublist_nil.1 this
  cases h with
  | nothing => exact hcovered now hnow
  | prune =>
    show (standing s now).Sublist (if now / 1000 < s.indexExpiresAtMs then _ else _)
    split
    · exact hkept
    · next hle => exact (hgone hle).symm ▸ .refl _
  | @issue r expiry hindex hfree hroom =>
    show ((List.filter _ (_ :: s.tickets)).map _).filter _ |>.Sublist
      (if now / 1000 < expiry / 1000 then _ else _)
    rw [filter_cons_of_pos rfl, map_cons, filter_cons]
    split
    · next hlater =>
      rw [if_pos (of_decide_eq_true hlater)]
      have := hkept.filter fun e => e.1 ≠ r.digest
      rw [standing_ne hfree hnow] at this
      exact this.cons_cons _
    · next hlater =>
      rw [if_neg (mt decide_eq_true hlater)]
      -- the new ticket is gone, and no earlier one outlives the index
      show (standing s now).Sublist []
      rcases hindex hkeeps with hempty | hback
      · rwa [Store.kept, hempty] at hkept
      · rw [hgone (fun hin => hlater (decide_eq_true (lt_of_lt_of_le hin hback)))]
  | consume digest =>
    rw [Covered, standing_consumed]
    show List.Sublist _ (if now / 1000 < s.indexExpiresAtMs then _ else _)
    split
    · exact ((hcovered now hnow).trans (entries_mono s hnow)).filter _
    · next hle => exact (hgone hle).symm ▸ .refl _

/-! ## The bound over a history -/

theorem Step.Does.length_index_le (h : step.Does s t)
    (hindex : s.index.length ≤ maxTicketIndexItems) : t.index.length ≤ maxTicketIndexItems := by
  cases h with
  | nothing => exact hindex
  | prune => exact (length_kept_le s _).trans hindex
  | issue _ _ hroom => exact Nat.succ_le_of_lt (Nat.lt_of_le_of_lt (length_filter_le _ _) hroom)
  | consume digest => exact (length_filter_le _ _).trans ((length_entries_le s _).trans hindex)

/-- From the time `since` on the index covers the tickets, and it is within the bound. -/
structure Sound (s : Store δ) (since : Nat) : Prop where
  covered : ∀ now, since ≤ now → Covered s now
  small : s.index.length ≤ maxTicketIndexItems

omit [DecidableEq δ] in
theorem Sound.live_le (h : Sound s since) (hnow : since ≤ now) :
    s.live now ≤ maxTicketIndexItems :=
  (h.covered now hnow).live_le.trans ((length_kept_le s now).trans h.small)

theorem Sound.next (h : Sound s since) (hsince : since ≤ step.now) (hkeeps : step.KeepsIndex s) :
    Sound (step.next s) step.now where
  covered _ hnow :=
    (step.does s).covered (fun now hle => h.covered now (hsince.trans hle)) hkeeps hnow
  small := (step.does s).length_index_le h.small

theorem Sound.run {steps before : List (Step δ)} (h : Sound s since)
    (hclock : steps.Pairwise fun earlier later => earlier.now ≤ later.now)
    (hsince : ∀ step ∈ steps, since ≤ step.now)
    (hkeeps : KeepsIndex s steps) (hbefore : before <+: steps)
    (hnow : ∀ step ∈ before, step.now ≤ now) (hle : since ≤ now) :
    (Trace.run Step.next s before).live now ≤ maxTicketIndexItems := by
  induction steps generalizing s since before with
  | nil =>
    rw [prefix_nil.1 hbefore]
    exact h.live_le hle
  | cons step steps ih =>
    rcases prefix_cons_iff.1 hbefore with rfl | ⟨rest, rfl, hrest⟩
    · exact h.live_le hle
    · rw [forall_mem_cons] at hsince hnow
      rw [pairwise_cons] at hclock
      rw [Trace.run_cons]
      exact ih (h.next hsince.1 hkeeps.1) hclock.2 hclock.1 hkeeps.2 hrest hnow.2 hnow.1

/-- No more live tickets than the bound, at any time from the last step on. -/
def Bounded (steps : List (Step δ)) : Prop :=
  ∀ before, before <+: steps → ∀ now, (∀ step ∈ before, step.now ≤ now) →
    (after before).live now ≤ maxTicketIndexItems

end

def attachment : Binding :=
  ⟨"tenant", "device", "e3b0c44298fc1c149afbf4c8996fb92427ae41e4649b934ca495991b7852b855",
    ⟨"incarnation", "node", "boot", "session", "1"⟩, "1", "connection", "attach", "digest"⟩

/-- Surroundings in which that binding is current. -/
def attached : Surroundings where
  activeIncarnation := some "incarnation"
  redisRunId := some "run"
  deviceActive := "1"
  owner := attachment.owner
  leaseExpiresAtUs := some 60000000
  credential _ := some ⟨"1", "tenant", "device", "", some 0, some 60000000⟩

end AgentUplink.Tickets
