/-
The paths of a session stay inside the namespace.

Every path a session holds was obtained from the root by joining names, so the destination
of a walk, a create, a rename or a link lies within the path of the fid it starts from.
-/
import AgentUplink.Fs.Confined
import AgentUplink.NineP.Agreement

namespace AgentUplink.NineP

open Std Ledger Fallible List
open Fs (VirtualPath)
open Fs.VirtualPath (Obtainable)

/-- The paths a request builds by joining names, each with the fid it starts from. -/
def Message.destinations : Message → RequestPaths → List (UInt32 × VirtualPath)
  | .twalk fid .., .walk _ destination => [(fid, destination)]
  | .tlcreate fid .., .child _ child => [(fid, child)]
  | .tmkdir dfid .., .child _ child => [(dfid, child)]
  | .tsymlink fid .., .child _ child => [(fid, child)]
  | .tunlinkat dirfid .., .child _ child => [(dirfid, child)]
  | .tlink dfid .., .pair _ destination => [(dfid, destination)]
  | .trename _ dfid _, .pair _ destination => [(dfid, destination)]
  | .trenameat olddirfid _ newdirfid _, .pair source destination =>
    [(olddirfid, source), (newdirfid, destination)]
  | _, _ => []

namespace Session

variable {s t : Session} {p : VirtualPath} {frame : Frame} {effect : Effect}

variable {q path : VirtualPath} {n fid : UInt32} {accepted : Accepted}

theorem joinPaths_ok {names : List String} (hp : Obtainable s.bounds p)
    (h : names.foldlM s.joinPath p = .ok q) :
    Obtainable s.bounds q ∧ q.componentList = p.componentList ++ names := by
  induction names generalizing p with
  | nil =>
    cases h
    exact ⟨hp, by simp⟩
  | cons name names ih =>
    rw [foldlM_cons, except_bind_eq_ok] at h
    obtain ⟨r, hr, hrest⟩ := h
    have hjoin : p.join name s.bounds = .ok r := mapError_eq_ok.1 hr
    obtain ⟨hq, hcomponents⟩ := ih (.join hp hjoin) hrest
    refine ⟨hq, ?_⟩
    rw [hcomponents, hp.join_within hjoin, append_assoc, singleton_append]

/-! ## Every path is obtained from the root -/

structure PathsObtained (s : Session) : Prop where
  fids : ∀ (n : UInt32) b, s.fids[n]? = some b → Obtainable s.bounds b.path
  reserved : ∀ (n : UInt32) p, s.reservedFids[n]? = some p → Obtainable s.bounds p
  effects : ∀ (t : UInt16) state p, s.tags[t]? = some state →
    state.effect.destination = some p → Obtainable s.bounds p

theorem Accepts.pathsObtained (h : Accepts s frame t) (hs : PathsObtained s) : PathsObtained t := by
  obtain @⟨effect, _, u, _, _, _, hadmitted, hreserves, henters⟩ := h
  have hdestination {p : VirtualPath} (hp : effect.destination = some p) :
      Obtainable s.bounds p := by
    obtain ⟨n, b, names, hb, hjoin⟩ := hadmitted.destination hp
    exact (joinPaths_ok (hs.fids n b hb) hjoin).1
  have hbounds := hreserves.bounds_eq
  constructor
  · intro n b hb
    rw [henters.eq, hreserves.eq] at hb ⊢
    exact hs.fids n b hb
  · intro n p hp
    rw [henters.eq] at hp ⊢
    cases hreserves with
    | nothing => exact hs.reserved n p hp
    | fid _ _ _ _ hpath =>
      rcases get_insert_eq_some.1 hp with ⟨-, rfl⟩ | ⟨-, hp⟩
      · rcases hpath with rfl | hpath
        · exact .root
        · exact hdestination hpath
      · exact hs.reserved n p hp
  · intro x after p hx hp
    have hbounds' : u.bounds = s.bounds := by
      rw [henters.eq]
      exact hbounds
    rw [hbounds']
    rcases henters.tag_cases hx with ⟨before, hbefore, heq, _⟩ | ⟨_, _, rfl⟩
    · rw [hreserves.tags_eq] at hbefore
      rw [heq] at hp
      exact hs.effects x before p hbefore hp
    · exact hdestination hp

theorem Applied.fids_path (h : Applied effect s t) {b : FidState} (hb : t.fids[n]? = some b) :
    (∃ b', s.fids[n]? = some b' ∧ b.path = b'.path) ∨ s.reservedFids[n]? = some b.path ∨
      effect.destination = some b.path := by
  cases h with
  | same | stamped | freed => exact .inl ⟨b, hb, rfl⟩
  | attached _ _ hreserved hpath =>
    rcases get_insert_eq_some.1 hb with ⟨rfl, rfl⟩ | ⟨-, hold⟩
    · rw [hpath]
      exact .inr (.inl hreserved)
    · exact .inl ⟨b, hold, rfl⟩
  | bound _ _ hpath | rebound _ _ hpath =>
    rcases get_insert_eq_some.1 hb with ⟨rfl, rfl⟩ | ⟨-, hold⟩
    · exact .inr (.inr hpath)
    · exact .inl ⟨b, hold, rfl⟩
  | opened _ hold hpath =>
    rcases get_insert_eq_some.1 hb with ⟨rfl, rfl⟩ | ⟨-, hold'⟩
    · exact .inl ⟨_, hold, hpath⟩
    · exact .inl ⟨b, hold', rfl⟩
  | released => exact .inl ⟨b, (get_erase_eq_some.1 hb).2, rfl⟩

theorem settle_reserved_get {tag : UInt16} {state : TagState} {outcome : FlushOutcome}
    (hs : TagsSound s) (hstate : s.tags[tag]? = some state) (h : Applied state.effect s t)
    (hn : (t.settle tag state outcome).reservedFids[n]? = some p) :
    s.reservedFids[n]? = some p := by
  have htags := h.undone_tags
  have hflushes := hs.flushes
  have hheld := hs.held
  rw [← htags] at hstate hflushes hheld
  have hundone : (t.undoReservation state.effect).reservedFids[n]? = some p := by
    by_cases hempty : state.flushedBy = ∅
    · rw [settle, retireTag_reserved hflushes hheld hstate hempty] at hn
      split at hn
      · cases hn
      · exact hn
    · rw [settle,
        retireTag_of_flushed hflushes hstate (Finset.nonempty_iff_ne_empty.2 hempty)] at hn
      exact hn
  rw [h.undone n] at hundone
  split at hundone
  · cases hundone
  · exact hundone

theorem Turn.pathsObtained {call : Call} (h : Turn s call t) (hs : Sound s) (hp : PathsObtained s) :
    PathsObtained t := by
  cases h with
  | same => exact hp
  | admitted _ haccepts => exact haccepts.pathsObtained hp
  | versioned => exact ⟨hp.fids, hp.reserved, hp.effects⟩
  | @retired _ tag outcome state u hsettles happlied =>
    have hbounds : (u.settle tag state outcome).bounds = s.bounds := by
      rw [settle_tablesOnly u tag state outcome]
      exact happlied.bounds_eq
    constructor
    · intro n b hb
      rw [settle_tablesOnly] at hb
      rw [hbounds]
      rcases happlied.fids_path hb with ⟨b', hb', hpath⟩ | hreserved | hdestination
      · rw [hpath]
        exact hp.fids n b' hb'
      · exact hp.reserved n b.path hreserved
      · exact hp.effects tag state b.path hsettles.get hdestination
    · intro n p hn
      rw [hbounds]
      exact hp.reserved n p (settle_reserved_get hs.tags hsettles.get happlied hn)
    · intro x after p hx hdestination
      rw [hbounds]
      obtain ⟨before, hbefore, hf⟩ := settle_follows hs.tags hsettles.get happlied hx
      rcases hf.effect with ⟨_, heffect, _⟩ | ⟨_, hnone, _⟩
      · exact hp.effects x before p hbefore (heffect ▸ hdestination)
      · rw [hnone] at hdestination
        cases hdestination
  | closed => exact ⟨by simp [close], by simp [close], by simp [close]⟩

theorem reach_pathsObtained {grant : Fs.CapabilitySet} {features : Fs.FeatureSet}
    {limits : Fs.Limits} {s₀ : Session} {seen : History}
    (hnew : Session.new grant features limits = some s₀) (hrun : Trace.Reach Call.next s₀ seen s) :
    PathsObtained s := by
  refine hrun.invariant (fun _ => PathsObtained) ?_ fun seen s call t hreach ih hnext => ?_
  · unfold Session.new at hnew
    split at hnew
    · cases hnew
    · cases hnew
      exact ⟨by simp, by simp, by simp⟩
  · exact (turn_of_next hnext).pathsObtained (reached hnew hreach).sound ih

/-! ## Destinations -/

theorem classifyAttached_destinations (h : s.classifyAttached frame = .ok (accepted, effect))
    (hmem : (fid, path) ∈ frame.message.destinations accepted.paths) :
    ∃ state names, s.fids[fid]? = some state ∧
      List.foldlM s.joinPath state.path names = .ok path := by
  have hone {parent : FidState} {name : String} (hparent : s.fids[fid]? = some parent)
      (hjoin : s.joinPath parent.path name = .ok path) : ∃ state names,
        s.fids[fid]? = some state ∧ List.foldlM s.joinPath state.path names = .ok path :=
    ⟨parent, [name], hparent, by simpa [List.foldlM] using hjoin⟩
  unfold classifyAttached at h
  cases hphase : s.phase with
  | attached =>
    rw [hphase] at h
    cases hmessage : frame.message with
    | twalk origin newfid names =>
      simp only [hmessage, except_bind_eq_ok, requireFid_ok, refuseIf_ok] at h
      obtain ⟨state, ⟨_, hstate⟩, _, _, _, _, destination, hjoin, heq⟩ := h
      cases heq
      simp only [hmessage, Message.destinations, mem_singleton, Prod.mk.injEq] at hmem
      obtain ⟨rfl, rfl⟩ := hmem
      exact ⟨state, names, hstate, hjoin⟩
    | tlcreate | tmkdir | tsymlink | tunlinkat | tlink | trename =>
      simp only [hmessage, except_bind_eq_ok, requireFid_ok, pure, Except.pure, Except.ok.injEq,
        Prod.mk.injEq] at h
      casesm* _ ∧ _, ∃ _, _
      subst_vars
      simp only [hmessage, Message.destinations, child, pair, mem_singleton, Prod.mk.injEq] at hmem
      obtain ⟨rfl, rfl⟩ := hmem
      exact hone ‹_› ‹_›
    | trenameat olddirfid oldname newdirfid newname =>
      simp only [hmessage, except_bind_eq_ok, requireFid_ok] at h
      obtain ⟨_, ⟨_, hold⟩, _, ⟨_, hnew⟩, source, hsource, destination, hdestination, heq⟩ := h
      cases heq
      simp only [hmessage, Message.destinations, pair, mem_cons, not_mem_nil, or_false,
        Prod.mk.injEq] at hmem
      rcases hmem with ⟨rfl, rfl⟩ | ⟨rfl, rfl⟩
      · exact hone hold hsource
      · exact hone hnew hdestination
    | _ => simp [hmessage, Message.destinations] at hmem
  | _ =>
    rw [hphase] at h
    cases h

/-- Every destination of a request is its fid's path joined with names. -/
theorem classify_destinations (h : s.classify frame = .ok (accepted, effect))
    (hmem : (fid, path) ∈ frame.message.destinations accepted.paths) :
    ∃ state names, s.fids[fid]? = some state ∧
      List.foldlM s.joinPath state.path names = .ok path := by
  unfold classify at h
  split at h
  case h_4 => exact classifyAttached_destinations h hmem
  all_goals
    next hmessage => simp [hmessage, Message.destinations] at hmem

/-- What a path obtained from the root and from parsing looks like, and how it joins. -/
structure Confined (bounds : Fs.PathBounds) (p : VirtualPath) : Prop where
  reparses : VirtualPath.parse p.text bounds = .ok p
  count : p.components = p.componentList.length
  clean : ∀ c ∈ p.componentList, Fs.Clean c
  join : ∀ c q, p.join c bounds = .ok q ↔
    c ≠ "" ∧ '/' ∉ c.toList ∧ VirtualPath.parse (p.extended c) bounds = .ok q
  parent : ∀ c q, p.join c bounds = .ok q → q.parent = some p

theorem confined {bounds : Fs.PathBounds} (h : Obtainable bounds p) : Confined bounds p := by
  obtain ⟨cs, hcs, rfl⟩ := h.fits
  constructor
  · exact VirtualPath.parse_eq_ok.2 ⟨cs, hcs, rfl, rfl⟩
  · rw [hcs.componentList]
    rfl
  · rw [hcs.componentList]
    exact fun c hc => Fs.clean_of_checkComponent (hcs.checked c hc)
  · exact fun c q => VirtualPath.join_iff_parse hcs
  · intro c q hjoin
    obtain ⟨hds, rfl⟩ := (VirtualPath.join_eq_ok hcs).1 hjoin
    exact VirtualPath.parent_ofComponents (hds.no_slash c (by simp))

/-- Paths cannot express an escape: every one that can be obtained is the list of its clean
components, containment is the order of those lists by extension, and a session's
destinations lie within the fid they start from. -/
theorem paths_confined (bounds : Fs.PathBounds) :
    (∀ p, Obtainable bounds p → Confined bounds p) ∧
    (∀ p q : VirtualPath, p.isWithin q = true ↔ q.componentList <+: p.componentList) ∧
    (∀ p : VirtualPath, p.isWithin p = true) ∧
    (∀ p q r : VirtualPath, p.isWithin q = true → q.isWithin r = true → p.isWithin r = true) ∧
    (∀ p q, Obtainable bounds p → Obtainable bounds q → p.isWithin q = true →
      q.isWithin p = true → p = q) ∧
    ∀ (grant : Fs.CapabilitySet) (features : Fs.FeatureSet) (limits : Fs.Limits)
      (s₀ s : Session) (seen : History), Session.new grant features limits = some s₀ →
      Trace.Reach Call.next s₀ seen s → limits.pathBounds = bounds →
      ∀ frame accepted effect, s.classify frame = .ok (accepted, effect) →
      ∀ fid path, (fid, path) ∈ frame.message.destinations accepted.paths →
      ∃ state, s.fids[fid]? = some state ∧ Obtainable bounds state.path ∧ Obtainable bounds path ∧
        path.isWithin state.path = true := by
  refine ⟨fun p => confined, fun p q => VirtualPath.isWithin_iff, fun p => ?_, fun p q r => ?_,
    fun p q hp hq => ?_, ?_⟩
  · exact VirtualPath.isWithin_iff.2 (prefix_refl _)
  · rw [VirtualPath.isWithin_iff, VirtualPath.isWithin_iff, VirtualPath.isWithin_iff]
    exact fun hqp hrq => hrq.trans hqp
  · rw [VirtualPath.isWithin_iff, VirtualPath.isWithin_iff]
    intro hqp hpq
    exact hp.eq_of_componentList hq (hpq.eq_of_length_le hqp.length_le)
  · intro grant features limits s₀ s seen hnew hrun hbounds frame accepted effect hclassify fid path
      hmem
    have hreached := reached hnew hrun
    have hpaths := reach_pathsObtained hnew hrun
    have hsession : s.bounds = bounds := by
      rw [hreached.sound.bounds, hreached.past.limits_eq, hbounds]
    obtain ⟨state, names, hstate, hjoin⟩ := classify_destinations hclassify hmem
    have horigin := hpaths.fids fid state hstate
    obtain ⟨hpath, hcomponents⟩ := joinPaths_ok horigin hjoin
    rw [hsession] at horigin hpath
    refine ⟨state, hstate, horigin, hpath, VirtualPath.isWithin_iff.2 ?_⟩
    rw [hcomponents]
    exact prefix_append _ _

theorem paths_confined_walk : ∃ seen s state path,
    Trace.Reach Call.next granted seen s ∧ s.fids[(0 : UInt32)]? = some state ∧
      path = VirtualPath.ofComponents ["a", "b"] ∧ path.isWithin state.path = true := by
  have hrun : (Trace.replay Call.next granted attachRoot).map (fun run =>
      (run.2.classify ⟨2, .twalk 0 1 ["a", "b"]⟩).map fun result =>
        result.1.paths == .walk VirtualPath.root (VirtualPath.ofComponents ["a", "b"])) =
      some (.ok true) := by decide +kernel
  obtain ⟨⟨seen, s⟩, hreplay, hclassified⟩ := Option.map_eq_some_iff.1 hrun
  obtain ⟨⟨accepted, effect⟩, hclassify, hpaths⟩ := except_map_eq_ok.1 hclassified
  have hreach := Trace.reach_of_replay hreplay
  obtain ⟨state, hstate, _, _, hwithin⟩ := (paths_confined _).2.2.2.2.2 _ _ _ _ _ _ new_granted
    hreach rfl _ accepted effect hclassify 0 (VirtualPath.ofComponents ["a", "b"]) (by
      rw [eq_of_beq hpaths]
      exact mem_singleton_self _)
  exact ⟨seen, s, state, _, hreach, hstate, rfl, hwithin⟩

/-- A text with a separator in it is not a component, but extends a path to one that parses. -/
theorem join_refuses_what_parse_accepts :
    (VirtualPath.root.join "a/b" Fs.Limits.profileDefault.pathBounds).toOption = none ∧
      (VirtualPath.parse (VirtualPath.root.extended "a/b")
        Fs.Limits.profileDefault.pathBounds).toOption =
          some (VirtualPath.ofComponents ["a", "b"]) := by
  decide +kernel

end Session

end AgentUplink.NineP
