import AgentUplink.Sequence.Honest

/-!
# Reorder room for a replay window

The receiver's bound on buffered frames against the sender's bound on retained
ones. A terminal always fits, and so does DATA as long as no terminal waits in
the reorder buffer: past the contiguous cursor there is no more DATA than the
sender may retain. A terminal that has overtaken DATA is different. The sender
counts it in slots of its own; the receiver counts it with the DATA.
-/

namespace AgentUplink

open Machine Fallible Std DirectionState StreamState KeyedMap

/-- Each endpoint buffers at least the DATA that its peer may leave unacknowledged. -/
def LinkConfig.Balanced (config : LinkConfig) : Prop :=
  ∀ e, (config.limits e.peer).maxReplayFrames ≤ (config.limits e).maxReorderFrames ∧
    (config.limits e.peer).maxReplayBytes ≤ (config.limits e).maxReorderBytes

namespace DirectionState

/-- A FIN or a RESET waits above a gap. -/
def TerminalWaits (s : DirectionState) : Prop :=
  ∃ (k : Nat) (g : Frame), s.reorder[k]? = some g ∧ g.kind.isTerminal = true

/-- The frame fits the DATA bounds beside everything in the reorder buffer. -/
def FitsBeside (s : DirectionState) (f : Frame) : Prop :=
  s.reorder.size + 1 ≤ s.limits.maxReorderFrames ∧
    s.reorderBytes + f.payload.length ≤ s.limits.maxReorderBytes

theorem ready_empty {s : DirectionState} (h : s.inbox.Held)
    (hdrained : s.deliveredContiguous = s.recvContiguous) :
    s.ready.size = 0 ∧ s.readyBytes = 0 := by
  have hempty : s.ready = ∅ := by
    apply ExtTreeMap.ext_getElem?
    intro k
    refine (h.ready k).2 ?_
    show ¬ (s.deliveredContiguous < k ∧ k ≤ s.recvContiguous)
    omega
  have hbytes : s.readyBytes = KeyedMap.mass payloadLength s.ready := h.readyBytes
  rw [hbytes, hempty, mass_empty]
  exact ⟨ExtTreeMap.size_empty, rfl⟩

theorem room_iff_of_drained {s : DirectionState} {f : Frame} (h : s.inbox.Held)
    (hdrained : s.deliveredContiguous = s.recvContiguous) :
    s.inbox.Room f ↔
      s.reorder.size + 1 ≤ s.limits.maxReorderFrames + terminalReserve f.kind ∧
        s.reorderBytes + f.payload.length ≤ s.limits.maxReorderBytes + terminalReserve f.kind := by
  obtain ⟨hsize, hbytes⟩ := ready_empty h hdrained
  show s.reorder.size + s.ready.size + 1 ≤ _ ∧ s.reorderBytes + s.readyBytes + _ ≤ _ ↔ _
  rw [hsize, hbytes]
  rfl

end DirectionState

namespace Link

/-- Every receiver has the reorder bounds for what its sender may retain. -/
def Balanced (l : Link) : Prop :=
  ∀ e d, (l.dir e.peer d).limits.maxReplayFrames ≤ (l.dir e d).limits.maxReorderFrames ∧
    (l.dir e.peer d).limits.maxReplayBytes ≤ (l.dir e d).limits.maxReorderBytes

theorem Balanced.connect {config : LinkConfig} {l : Link} (h : Link.connect config = .ok l)
    (hconfig : config.Balanced) : l.Balanced := by
  intro e d
  obtain ⟨hstate, _⟩ := connect_ok h
  rw [(hstate e).2.2 d, (hstate e.peer).2.2 d]
  exact hconfig e

variable [Sha256] {l : Link} {e : Endpoint} {d : Direction} {f : Frame}

theorem Balanced.exec (h : l.Sound) (hb : l.Balanced) (a : Action) : (l.exec a).Balanced := by
  obtain ⟨s, d₀, frames, ha, hdir⟩ := h.exec_dir a
  intro e d
  rw [hdir, hdir, ha.limits, ha.limits]
  exact hb e d

/-- Past the receiver's cursor there is no more DATA than its reorder bounds allow. -/
theorem Sound.data_left_le (h : l.Sound) (hb : l.Balanced) (e : Endpoint) (d : Direction) :
    (((l.log e.peer d).drop (l.dir e d).recvContiguous).map dataCount).sum ≤
        (l.dir e d).limits.maxReorderFrames ∧
      creditSum ((l.log e.peer d).drop (l.dir e d).recvContiguous) ≤
        (l.dir e d).limits.maxReorderBytes := by
  have hacked := h.acked e.peer d
  rw [Endpoint.peer_peer] at hacked
  have hframes := (h.sender e.peer d).dataFrames
  have hbytes := (h.sender e.peer d).dataBytes
  have hdropFrames := sum_drop_le dataCount (l.log e.peer d) hacked
  have hdropBytes := sum_drop_le Frame.credit (l.log e.peer d) hacked
  obtain ⟨hframes', hbytes'⟩ := hb e d
  simp only [outbox] at hframes hbytes
  unfold creditSum at hbytes ⊢
  omega

theorem Sound.terminal_room (h : l.Sound) (hb : l.Balanced)
    (hdrained : (l.dir e d).deliveredContiguous = (l.dir e d).recvContiguous)
    (hcopy : CopyOf (l.log e.peer d) f) (hfresh : ¬ (l.dir e d).Known f)
    (hterminal : f.kind.isTerminal = true) : (l.dir e d).inbox.Room f := by
  have hheld := (h.settled e d).toHeld
  obtain ⟨habove, hnone⟩ := not_known hfresh
  obtain ⟨hframes, hbytes⟩ := h.data_left_le hb e d
  obtain ⟨hcount, hpayload⟩ := (h.sender e.peer d).script.drop_le (l.dir e d).recvContiguous
  have hsize := (h.receiver e d).mass_add_le hheld hcopy habove hnone (w := fun _ => 1)
    (u := fun _ => 1) (fun _ _ _ _ _ => Nat.le_refl 1) (fun _ _ => Nat.le_refl 1)
  have hmass := (h.receiver e d).mass_add_le hheld hcopy habove hnone (w := payloadLength)
    (u := payloadLength) (fun _ _ _ _ hsame => Nat.le_of_eq (congrArg List.length hsame.payload_eq))
    (fun _ hsame => Nat.le_of_eq (congrArg List.length hsame.payload_eq))
  have hreorderBytes := hheld.reorderBytes
  have hreserve : terminalReserve f.kind = 2 := if_pos hterminal
  have hones : (((l.log e.peer d).drop (l.dir e d).recvContiguous).map fun _ => 1).sum =
      ((l.log e.peer d).drop (l.dir e d).recvContiguous).length := by simp
  rw [mass_one] at hsize
  rw [room_iff_of_drained hheld hdrained, hreserve]
  simp only [inbox] at hsize hmass hreorderBytes
  unfold payloadLength at hmass hreorderBytes hpayload
  omega

theorem Sound.data_room (h : l.Sound) (hb : l.Balanced)
    (hdrained : (l.dir e d).deliveredContiguous = (l.dir e d).recvContiguous)
    (hcopy : CopyOf (l.log e.peer d) f) (hfresh : ¬ (l.dir e d).Known f) (hdata : f.kind = .data)
    (hwaits : ¬ (l.dir e d).TerminalWaits) : (l.dir e d).inbox.Room f := by
  have hheld := (h.settled e d).toHeld
  obtain ⟨habove, hnone⟩ := not_known hfresh
  obtain ⟨hframes, hbytes⟩ := h.data_left_le hb e d
  -- Every buffered frame is DATA, so it counts for its copy in the script.
  have hkind : ∀ (k : Nat) (g x : Frame), (l.dir e d).reorder[k]? = some g → g.SameLogical x →
      x.kind = .data := by
    intro k g x hg hsame
    rw [← hsame.kind_eq]
    have hsequenced := (hheld.reorder k g hg).sequenced
    have hnot : ¬ g.kind.isTerminal = true := fun hterm => hwaits ⟨k, g, hg, hterm⟩
    cases hk : g.kind <;> simp_all [FrameKind.sequenced, FrameKind.isTerminal]
  have hfkind : ∀ x, f.SameLogical x → x.kind = .data := fun x hsame => hsame.kind_eq ▸ hdata
  have hcount : ∀ {x : Frame}, x.kind = .data → 1 ≤ dataCount x := fun hk =>
    Nat.le_of_eq (if_pos hk).symm
  have hpayload : ∀ {g x : Frame}, g.SameLogical x → x.kind = .data → payloadLength g ≤ x.credit :=
    fun hsame hk => Nat.le_of_eq ((congrArg List.length hsame.payload_eq).trans (if_pos hk).symm)
  have hsize := (h.receiver e d).mass_add_le hheld hcopy habove hnone (w := fun _ => 1)
    (u := dataCount) (fun k g x hg hsame => hcount (hkind k g x hg hsame))
    (fun x hsame => hcount (hfkind x hsame))
  have hmass := (h.receiver e d).mass_add_le hheld hcopy habove hnone (w := payloadLength)
    (u := Frame.credit) (fun k g x hg hsame => hpayload hsame (hkind k g x hg hsame))
    (fun x hsame => hpayload hsame (hfkind x hsame))
  have hreorderBytes := hheld.reorderBytes
  rw [mass_one] at hsize
  rw [room_iff_of_drained hheld hdrained]
  simp only [inbox] at hsize hmass hreorderBytes
  unfold creditSum at hbytes
  unfold payloadLength at hmass hreorderBytes
  omega

/-- The receiver turns the frame away for want of room. -/
def Refused (l : Link) (e : Endpoint) (d : Direction) (f : Frame) : Prop :=
  ∃ frames bytes,
    errorOf ((receiveFrame d f).run (l.state e)) = some (.reorderBufferFull frames bytes)

theorem Sound.refused_iff (h : l.Sound) (hg : l.Granted) (hf : f ∈ l.net e.peer d) :
    l.Refused e d f ↔
      f.kind.sequenced = true ∧ ¬ (l.dir e d).Known f ∧ ¬ (l.dir e d).inbox.Room f := by
  constructor
  · rintro ⟨frames, bytes, herr⟩
    exact ((h.errorOf_receive hg hf).1 herr).1
  · intro hwhen
    exact ⟨_, _, (h.errorOf_receive hg hf).2 ⟨hwhen, rfl⟩⟩

/-- A receiver that has delivered everything contiguous refuses exactly the DATA that
a terminal has overtaken and that does not fit the DATA bounds beside it. -/
theorem Sound.refused_iff_of_drained (h : l.Sound) (hg : l.Granted) (hb : l.Balanced)
    (hf : f ∈ l.net e.peer d)
    (hdrained : (l.dir e d).deliveredContiguous = (l.dir e d).recvContiguous) :
    l.Refused e d f ↔
      f.kind = .data ∧ ¬ (l.dir e d).Known f ∧ (l.dir e d).TerminalWaits ∧
        ¬ (l.dir e d).FitsBeside f := by
  have hc := h.carried e.peer d f hf
  have hheld := (h.settled e d).toHeld
  have hdata : f.kind = .data → ((l.dir e d).inbox.Room f ↔ (l.dir e d).FitsBeside f) := by
    intro hk
    have hreserve : terminalReserve f.kind = 0 := by rw [hk]; rfl
    rw [room_iff_of_drained hheld hdrained, hreserve]
    rfl
  rw [h.refused_iff hg hf]
  constructor
  · rintro ⟨hsequenced, hnew, hroom⟩
    have hcopy := hc.copy hsequenced
    have hnot : ¬ f.kind.isTerminal = true := fun hterminal =>
      hroom (h.terminal_room hb hdrained hcopy hnew hterminal)
    have hk : f.kind = .data := by
      cases hk : f.kind <;> simp_all [FrameKind.sequenced, FrameKind.isTerminal]
    refine ⟨hk, hnew, ?_, fun hfits => hroom ((hdata hk).2 hfits)⟩
    by_contra hwaits
    exact hroom (h.data_room hb hdrained hcopy hnew hk hwaits)
  · rintro ⟨hk, hnew, _, hfits⟩
    exact ⟨by rw [hk]; rfl, hnew, fun hroom => hfits ((hdata hk).1 hroom)⟩

/-! ## Along a run -/

/-- `P` holds of the link and the next action at every step of a run. -/
def Along (P : Link → Action → Prop) : Link → List Action → Prop
  | _, [] => True
  | l, a :: actions => P l a ∧ Along P (l.exec a) actions

theorem along_append {P : Link → Action → Prop} {xs ys : List Action} :
    l.Along P (xs ++ ys) ↔ l.Along P xs ∧ (l.run xs).Along P ys := by
  induction xs generalizing l with
  | nil => exact ⟨fun h => ⟨trivial, h⟩, And.right⟩
  | cons a xs ih => exact (and_congr Iff.rfl ih).trans and_assoc.symm

/-- A receiver takes the next frame only after marking everything contiguous delivered. -/
def Drained (l : Link) : Action → Prop
  | .receive e d _ => (l.dir e d).deliveredContiguous = (l.dir e d).recvContiguous
  | _ => True

/-- The next frame in flight is not turned away for want of room. -/
def Taken (l : Link) : Action → Prop
  | .receive e d f => f ∈ l.net e.peer d → ¬ l.Refused e d f
  | _ => True

/-- If the next frame in flight is new DATA that a terminal has overtaken, it fits the
DATA bounds beside it. -/
def Fits (l : Link) : Action → Prop
  | .receive e d f => f ∈ l.net e.peer d → f.kind = .data → ¬ (l.dir e d).Known f →
      (l.dir e d).TerminalWaits → (l.dir e d).FitsBeside f
  | _ => True

theorem Sound.taken_iff_fits (h : l.Sound) (hg : l.Granted) (hb : l.Balanced) {a : Action}
    (hdrained : l.Drained a) : l.Taken a ↔ l.Fits a := by
  cases a with
  | receive e d f =>
    refine forall_congr' fun hf => ?_
    rw [h.refused_iff_of_drained hg hb hf hdrained]
    tauto
  | _ => exact Iff.rfl

theorem Sound.along_taken_iff_fits (h : l.Sound) (hg : l.Granted) (hb : l.Balanced)
    {actions : List Action} (hdrained : l.Along Drained actions) :
    l.Along Taken actions ↔ l.Along Fits actions := by
  induction actions generalizing l with
  | nil => exact Iff.rfl
  | cons a actions ih =>
    obtain ⟨hnow, hlater⟩ := hdrained
    exact and_congr (h.taken_iff_fits hg hb hnow)
      (ih (h.exec a) (Granted.exec h hg a) (Balanced.exec h hb a) hlater)

end Link

/-- In every run whose receivers deliver what is contiguous before they take the next
frame, nothing in flight is refused for want of room if and only if every DATA frame that
arrives behind a waiting terminal fits the DATA bounds beside it. -/
theorem refuses_only_overtaken_data [Sha256] {config : LinkConfig} {l : Link}
    (hcompatible : config.Compatible) (hbalanced : config.Balanced)
    (hopen : Link.connect config = .ok l) (actions : List Action)
    (hdrained : l.Along Link.Drained actions) :
    l.Along Link.Taken actions ↔ l.Along Link.Fits actions :=
  (Link.Sound.connect hopen).along_taken_iff_fits (.connect hopen hcompatible)
    (.connect hopen hbalanced) hdrained

/-- The same bounds on both sides, for one frame to be retained and one to be buffered. -/
def narrowConfig : LinkConfig :=
  { demoConfig with
    limits := fun _ =>
      { maxReplayFrames := 1, maxReplayBytes := 8, maxReorderFrames := 1, maxReorderBytes := 8 } }

/-- A FIN overtakes the only DATA frame. -/
def overtakenActions : List Action :=
  [.send .relay .relayToConnector (.newData 1 1 7 1 0 [65]),
    .send .relay .relayToConnector (.newFin 1 1 7 2 0),
    .deliver .connector .relayToConnector 0,
    .receive .connector .relayToConnector (.newFin 1 1 7 2 0),
    .deliver .connector .relayToConnector 0,
    .receive .connector .relayToConnector (.newData 1 1 7 1 0 [65])]

set_option maxRecDepth 4000 in
theorem overtaken_data_refused :
    narrowConfig.Compatible ∧ narrowConfig.limits .relay = narrowConfig.limits .connector ∧
      narrowConfig.Balanced ∧ ∃ l, Link.connect narrowConfig = .ok l ∧
        @Link.Along plainDigest Link.Drained l overtakenActions ∧
        ¬ @Link.Along plainDigest (@Link.Taken plainDigest) l overtakenActions :=
  ⟨fun _ => Nat.le_refl 8, rfl, fun _ => ⟨Nat.le_refl 1, Nat.le_refl 8⟩, _, rfl,
    ⟨trivial, trivial, trivial, rfl, trivial, rfl, trivial⟩,
    fun h => h.2.2.2.2.2.1 (by decide) ⟨1, 0, by decide⟩⟩

set_option maxRecDepth 4000 in
theorem refuses_only_overtaken_data_roomy :
    ∃ l, Link.connect demoConfig = .ok l ∧
      @Link.Along plainDigest (@Link.Taken plainDigest) l overtakenActions := by
  refine ⟨_, rfl, (@refuses_only_overtaken_data plainDigest demoConfig _
    (fun _ => Nat.le_refl 8) (fun _ => ⟨Nat.le_refl 3, Nat.le_refl 8⟩) rfl overtakenActions
    ⟨trivial, trivial, trivial, rfl, trivial, rfl, trivial⟩).2 ?_⟩
  exact ⟨trivial, trivial, trivial, fun _ hdata => (nomatch hdata), trivial,
    fun _ _ _ _ => ⟨by decide, by decide⟩, trivial⟩

end AgentUplink
