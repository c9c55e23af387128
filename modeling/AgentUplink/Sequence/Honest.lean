import AgentUplink.Sequence.Delivery

/-!
# Honest peers are never blamed

A frame that copies the script passes every check of `preflightReceive` but the
one for room: its duplicates agree with what was received, no terminal stands
before it, and its bytes are covered by the credit the receiver has advertised.
-/

namespace AgentUplink

open Machine Fallible Std DirectionState StreamState

/-- Copies of consecutive frames of a script may follow what the script has closed. -/
theorem Script.follows {log frames : List Frame} (h : Script log) {n : Nat}
    (hcopy : ∀ (i : Nat) (f : Frame), frames[i]? = some f →
      ∃ g, log[n + i]? = some g ∧ f.SameLogical g) :
    Follows ((closing (log.take n)).map Prod.fst) frames := by
  induction frames generalizing n with
  | nil => trivial
  | cons f frames ih =>
    obtain ⟨g, hg, hsame⟩ := hcopy 0 f rfl
    have hrest := ih (n := n + 1) fun i x hx => by
      obtain ⟨y, hy, hxy⟩ := hcopy (i + 1) x hx
      exact ⟨y, by rw [← hy]; congr 1; omega, hxy⟩
    refine ⟨hsame.kind_eq ▸ h.order n g hg, ?_⟩
    rw [Script.closing_take_succ hg] at hrest
    rw [hsame.closing_eq]
    cases hc : g.closing with
    | none | some t =>
      rw [hc] at hrest
      exact hrest

namespace DirectionState

section Preflight

variable [Sha256] {log entered : List Frame} {s : DirectionState} {f : Frame}

theorem preflight_unsequenced (hk : f.kind.sequenced = false) :
    s.preflightReceive f = .ok .accepted := by
  unfold preflightReceive
  rw [if_pos (by rw [hk]; decide)]

section

variable (h : s.inbox.Agrees log entered)
include h

theorem preflight_known (hheld : s.inbox.Held)
    (hk : f.kind.sequenced = true) (hcopy : CopyOf log f) (hknown : s.Known f) :
    s.preflightReceive f = .ok .duplicate := by
  obtain ⟨g, hg, hsame⟩ := hcopy
  have hprint : FrameFingerprint.of g = .of f := (FrameFingerprint.of_sameLogical hsame).symm
  unfold preflightReceive
  rw [if_neg (not_not.2 hk)]
  by_cases hle : f.sequence.toNat ≤ s.recvContiguous
  · rw [if_pos hle]
    cases hp : s.fingerprints[f.sequence.toNat]? with
    | none => rfl
    | some previous =>
      obtain ⟨x, hx, rfl⟩ := h.fingerprints _ previous hp
      cases hg.symm.trans hx
      exact if_neg (not_not.2 hprint)
  · rw [if_neg hle]
    obtain ⟨x, hx⟩ := hknown.resolve_left hle
    obtain ⟨y, hy, hxy⟩ := h.reorder _ x hx
    rw [(hheld.reorder _ x hx).sequence] at hy
    cases hg.symm.trans hy
    simp only [hx]
    exact if_neg (not_not.2 ((FrameFingerprint.of_sameLogical hxy).trans hprint))

/-- A copy of the next frame, with the buffered run it completes, may follow what has
been received. -/
theorem follows_next (hheld : s.inbox.Held) (hscript : Script log)
    (hcopy : CopyOf log f) (hnext : f.sequence.toNat = s.recvContiguous + 1) :
    Follows s.receiveTerminal (f :: s.completed f) := by
  rw [show s.receiveTerminal = (closing (log.take s.recvContiguous)).map Prod.fst from h.terminal]
  apply hscript.follows
  intro i x hx
  cases i with
  | zero =>
    cases hx
    obtain ⟨g, hg, hsame⟩ := hcopy
    rw [hnext, Nat.add_sub_cancel] at hg
    exact ⟨g, hg, hsame⟩
  | succ i =>
    have hx := KeyedMap.get_of_chain hx
    obtain ⟨y, hy, hsame⟩ := h.reorder _ x hx
    rw [(hheld.reorder _ x hx).sequence] at hy
    refine ⟨y, ?_, hsame⟩
    rw [← hy]
    congr 1
    omega

theorem preflight_fresh (hheld : s.inbox.Held)
    (hscript : Script log) (hk : f.kind.sequenced = true) (hvalid : f.validate = .ok ())
    (hcopy : CopyOf log f) (hfresh : ¬ s.Known f) (hcovers : s.inbox.Covers f) :
    s.preflightReceive f =
      if s.inbox.Room f then
        .ok (if f.sequence.toNat = s.recvContiguous + 1 then .accepted else .buffered)
      else .error s.full := by
  obtain ⟨habove, hnone⟩ := not_known hfresh
  have hlt : s.recvContiguous + 1 < wordBound := Nat.lt_of_le_of_lt habove f.sequence.toNat_lt
  unfold preflightReceive
  rw [if_neg (not_not.2 hk), if_neg (Nat.not_le.2 habove), hnone]
  simp only [checkedAdd_of_lt hlt]
  by_cases hnext : f.sequence.toNat = s.recvContiguous + 1
  · rw [if_neg (not_not.2 hnext), if_pos hnext]
    exact preflightLoop_of_covers hheld hvalid hnext
      (follows_next h hheld hscript hcopy hnext) hcovers
  · -- Above a gap the script goes on for at least two frames, so nothing has closed it.
    have hterminal : s.receiveTerminal = none := by
      obtain ⟨g, hg, _⟩ := hcopy
      have hlen := (List.getElem?_eq_some_iff.1 hg).1
      rw [show s.receiveTerminal = (closing (log.take s.recvContiguous)).map Prod.fst from
        h.terminal, hscript.closing_none_of_lt (by omega)]
      rfl
    have hcharge : s.checkedReceivedBytes f s.receivedBytes = .ok (s.receivedBytes + f.credit) :=
      (checkedReceivedBytes_ok hvalid).2 ⟨rfl, hcovers⟩
    rw [if_pos hnext, if_neg hnext, hterminal, if_neg (by simp),
      ensureReceiveCapacity_eq hheld hvalid, hcharge, validateReceiveTerminal, hterminal]
    by_cases hroom : s.inbox.Room f
    · rw [if_pos hroom, if_pos hroom]
      rfl
    · rw [if_neg hroom, if_neg hroom]
      rfl

end

end Preflight

end DirectionState

/-- Each endpoint was opened with room for what its peer may send at once. -/
def LinkConfig.Compatible (config : LinkConfig) : Prop :=
  ∀ e, config.sendCredit e ≤ config.receiveCredit e.peer

namespace Link

/-- No endpoint may send more than its peer has offered to take. -/
def Granted (l : Link) : Prop :=
  ∀ e d, (l.dir e d).sendCredit ≤ (l.dir e.peer d).receiveCredit

theorem Granted.connect {config : LinkConfig} {l : Link} (h : Link.connect config = .ok l)
    (hconfig : config.Compatible) : l.Granted := by
  intro e d
  obtain ⟨hstate, _⟩ := connect_ok h
  rw [(hstate e).2.2 d, (hstate e.peer).2.2 d]
  exact hconfig e

variable [Sha256] {l : Link} {e : Endpoint} {d : Direction} {f : Frame}

theorem Granted.exec (h : l.Sound) (hg : l.Granted) (a : Action) : (l.exec a).Granted := by
  obtain ⟨s, d₀, frames, ha, hdir⟩ := h.exec_dir a
  intro e d
  rw [hdir, hdir]
  have hgrows := (ha.grows e.peer d).2.2
  have hgrant := hg e d
  by_cases he : e = a.actor
  · have hcredit := ha.credit d
    subst he
    rw [moved_dir_self]
    omega
  · rw [moved_dir_other he]
    omega

theorem Granted.run (hg : l.Granted) (h : l.Sound) (actions : List Action) :
    (l.run actions).Granted :=
  h.run_keeps Granted.exec hg actions

/-- A new frame of the script is paid for: the receiver has charged only frames of the
script, and the sender keeps the whole script within the credit it was granted. -/
theorem Sound.covers (h : l.Sound) (hg : l.Granted) (hcopy : CopyOf (l.log e.peer d) f)
    (hfresh : ¬ (l.dir e d).Known f) : (l.dir e d).inbox.Covers f := by
  obtain ⟨habove, hnone⟩ := not_known hfresh
  have hcharge := (h.receiver e d).charge_le (h.settled e d).toHeld hcopy habove hnone
  have hsent := (h.sender e.peer d).sentBytes
  have hsent_le := (h.sender e.peer d).sentBytes_le
  have hsent_lt := (h.sender e.peer d).sentBytes_lt
  have hgrant := hg e.peer d
  rw [Endpoint.peer_peer] at hgrant
  simp only [outbox] at hsent hsent_le hsent_lt
  intro _
  simp only [inbox] at hcharge ⊢
  exact ⟨by omega, by omega⟩

/-- When, and with which error, a receiver refuses a frame its peer has on the wire. -/
theorem Sound.errorOf_receive (h : l.Sound) (hg : l.Granted) (hf : f ∈ l.net e.peer d)
    {err : SequenceError} :
    errorOf ((receiveFrame d f).run (l.state e)) = some err ↔
      (f.kind.sequenced = true ∧ ¬ (l.dir e d).Known f ∧ ¬ (l.dir e d).inbox.Room f) ∧
        err = (l.dir e d).full := by
  have hc := h.carried e.peer d f hf
  have hagrees := (h.receiver e d).toAgrees
  have hheld := (h.settled e d).toHeld
  have hfresh : f.kind.sequenced = true → ¬ (l.dir e d).Known f → _ := fun hk hnew =>
    preflight_fresh hagrees hheld (h.sender e.peer d).script hk hc.valid (hc.copy hk) hnew
      (h.covers hg (hc.copy hk) hnew)
  obtain ⟨hstream, hack⟩ := h.receivable hf
  rcases receiveFrame_run (h.settled e d) hc.valid hstream hack with
    ⟨err', hpre, hrun⟩ | ⟨disposition, t, hr, hrun⟩
  · rw [hrun, errorOf_error, Option.some_inj]
    have hk : f.kind.sequenced = true := by
      by_contra hk
      cases hpre.symm.trans (preflight_unsequenced (Bool.not_eq_true _ ▸ hk))
    have hnew : ¬ (l.dir e d).Known f := fun hknown => by
      cases hpre.symm.trans (preflight_known hagrees hheld hk (hc.copy hk) hknown)
    have hroom : ¬ (l.dir e d).inbox.Room f := fun hroom => by
      cases hpre.symm.trans ((hfresh hk hnew).trans (if_pos hroom))
    cases hpre.symm.trans ((hfresh hk hnew).trans (if_neg hroom))
    exact ⟨fun heq => ⟨⟨hk, hnew, hroom⟩, heq.symm⟩, fun hand => hand.2.symm⟩
  · rw [hrun, errorOf_ok]
    constructor
    · intro hnone
      cases hnone
    · rintro ⟨⟨hk, hnew, hroom⟩, _⟩
      cases hr with
      | unsequenced hnot => cases hk.symm.trans hnot
      | duplicate _ hknown => exact absurd hknown hnew
      | buffered hb => exact absurd hb.room hroom
      | accepted ha => exact absurd ha.room hroom

end Link

/-- In every run of a link whose receivers were opened with at least the credit of
their senders, the only error a frame from the wire can meet is a full reorder buffer. -/
theorem honest_peer_refused_only_for_room [Sha256] {config : LinkConfig} {l : Link}
    (hconfig : config.Compatible) (hopen : Link.connect config = .ok l) (actions : List Action)
    (e : Endpoint) (d : Direction) (f : Frame) (hf : f ∈ (l.run actions).net e.peer d)
    (err : SequenceError)
    (herr : errorOf ((receiveFrame d f).run ((l.run actions).state e)) = some err) :
    ∃ frames bytes, err = .reorderBufferFull frames bytes := by
  have h := (Link.Sound.connect hopen).run actions
  have hg := (Link.Granted.connect hopen hconfig).run (Link.Sound.connect hopen) actions
  exact ⟨_, _, ((h.errorOf_receive hg hf).1 herr).2⟩

/-- Two one-byte DATA frames above a gap, for a receiver that buffers one frame. -/
def crowdedConfig : LinkConfig :=
  { demoConfig with
    limits := fun _ =>
      { maxReplayFrames := 3, maxReplayBytes := 8, maxReorderFrames := 1, maxReorderBytes := 8 } }

def crowdedActions : List Action :=
  [.send .relay .relayToConnector (.newData 1 1 7 1 0 [65]),
    .send .relay .relayToConnector (.newData 1 1 7 2 0 [66]),
    .send .relay .relayToConnector (.newData 1 1 7 3 0 [67]),
    .receive .connector .relayToConnector (.newData 1 1 7 3 0 [67])]

set_option maxRecDepth 4000 in
theorem honest_peer_refused_only_for_room_crowded :
    crowdedConfig.Compatible ∧ ∃ l, Link.connect crowdedConfig = .ok l ∧
      errorOf ((@receiveFrame plainDigest .relayToConnector (.newData 1 1 7 2 0 [66])).run
        ((@Link.run plainDigest l crowdedActions).state .connector)) =
          some (.reorderBufferFull 1 1) ∧
      ∃ frames bytes, SequenceError.reorderBufferFull 1 1 = .reorderBufferFull frames bytes :=
  ⟨fun _ => Nat.le_refl 8, _, rfl, by decide,
    @honest_peer_refused_only_for_room plainDigest crowdedConfig _ (fun _ => Nat.le_refl 8) rfl
      crowdedActions .connector .relayToConnector (.newData 1 1 7 2 0 [66]) (by decide) _
      (by decide)⟩

/-- A receiver has charged at most what was sent, in the end all of it, and has granted it. -/
theorem charged_within_sent [Sha256] {config : LinkConfig} {l : Link}
    (hconfig : config.Compatible) (hopen : Link.connect config = .ok l) (actions : List Action)
    (e : Endpoint) (d : Direction) :
    let now := l.run actions
    let sender := now.dir e d
    let receiver := now.dir e.peer d
    (receiver.receivedBytes ≤ sender.sentBytes ∧ sender.sentBytes ≤ sender.sendCredit ∧
        sender.sendCredit ≤ receiver.receiveCredit) ∧
      (receiver.recvContiguous = sender.lastEmitted →
        receiver.receivedBytes = sender.sentBytes) := by
  intro now sender receiver
  have hsound := Link.Sound.connect hopen
  have h := hsound.run actions
  have hs := h.sender e d
  have hr := h.receiver e.peer d
  rw [Endpoint.peer_peer] at hr
  have hsent : sender.sentBytes = creditSum (now.log e d) := hs.sentBytes
  have hle : receiver.receivedBytes ≤ sender.sentBytes :=
    hsent ▸ hr.receivedBytes_le (h.settled e.peer d).toHeld
  refine ⟨⟨hle, hs.sentBytes_le, (Link.Granted.connect hopen hconfig).run hsound actions e d⟩, ?_⟩
  intro hall
  have hlast : sender.lastEmitted = (now.log e d).length := hs.lastEmitted
  have hcharged : creditSum ((now.log e d).take receiver.recvContiguous) ≤ receiver.receivedBytes :=
    Nat.le.intro hr.receivedBytes.symm
  rw [hall, hlast, List.take_length, ← hsent] at hcharged
  exact Nat.le_antisymm hle hcharged

theorem charged_within_sent_demo : demoConfig.Compatible ∧ ∃ l, Link.connect demoConfig = .ok l ∧
    ((@Link.run plainDigest l demoActions).dir .connector .relayToConnector).receivedBytes =
      ((@Link.run plainDigest l demoActions).dir .relay .relayToConnector).sentBytes :=
  ⟨fun _ => Nat.le_refl 8, _, rfl, (@charged_within_sent plainDigest demoConfig _
    (fun _ => Nat.le_refl 8) rfl demoActions .relay .relayToConnector).2 (by decide)⟩

end AgentUplink
