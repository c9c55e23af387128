import AgentUplink.Sequence.Replay

/-!
# Two endpoints and a network

A `Link` is the two endpoints of one stream with everything each has put on the
wire. The network may lose, duplicate and reorder: any frame ever sent may be
received any number of times, in any order, or never. Snapshots travel the same
way, so an endpoint may reconcile against any snapshot its peer has taken.

`log`, `entered` and `handed` are history: the sequenced frames an endpoint has
emitted, the frames that have entered its ready queue, and the frames that left
it. The last two are read off the ready queue before and after each action.
-/

namespace AgentUplink

open Machine Fallible Std List KeyedMap Function

inductive Endpoint where
  | relay
  | connector
deriving DecidableEq

def Endpoint.peer : Endpoint → Endpoint
  | .relay => .connector
  | .connector => .relay

@[simp] theorem Endpoint.peer_peer (e : Endpoint) : e.peer.peer = e := by
  cases e <;> rfl

theorem Endpoint.peer_ne (e : Endpoint) : e.peer ≠ e := by
  cases e <;> decide

theorem Endpoint.eq_or_eq_peer (e e' : Endpoint) : e' = e ∨ e' = e.peer := by
  cases e <;> cases e' <;> decide

structure Link where
  state : Endpoint → StreamState
  log : Endpoint → Direction → List Frame
  net : Endpoint → Direction → List Frame
  snapshots : Endpoint → List StreamSnapshot
  entered : Endpoint → Direction → List Frame
  handed : Endpoint → Direction → List Frame

/-- How the two endpoints of a stream are opened. -/
structure LinkConfig where
  streamId : UInt64
  sendCredit : Endpoint → Nat
  receiveCredit : Endpoint → Nat
  limits : Endpoint → SequenceLimits

inductive Action where
  | send (e : Endpoint) (d : Direction) (f : Frame)
  | receive (e : Endpoint) (d : Direction) (f : Frame)
  | deliver (e : Endpoint) (d : Direction) (through : Nat)
  | snapshot (e : Endpoint)
  | retainedReplay (e : Endpoint) (d : Direction) (first through : Nat)
  | replayFrames (e : Endpoint) (d : Direction) (first through : Nat) (epoch generation : UInt64)
  | replayMissing (e : Endpoint) (d : Direction) (cursor : Nat) (epoch generation : UInt64)
  | reconcile (e : Endpoint) (peer : StreamSnapshot)
  | reconcileForCarrier (e : Endpoint) (peer : StreamSnapshot) (epoch generation : UInt64)
  | reconcileAndApply (e : Endpoint) (peer : StreamSnapshot)

def Action.actor : Action → Endpoint
  | .send e _ _ | .receive e _ _ | .deliver e _ _ | .snapshot e | .retainedReplay e _ _ _
  | .replayFrames e _ _ _ _ _ | .replayMissing e _ _ _ _ | .reconcile e _
  | .reconcileForCarrier e _ _ _ | .reconcileAndApply e _ => e

/-- Calls that take the stream by shared reference. -/
def Action.reads : Action → Bool
  | .send _ _ _ | .receive _ _ _ | .deliver _ _ _ | .reconcileAndApply _ _ => false
  | .snapshot _ | .retainedReplay _ _ _ _ | .replayFrames _ _ _ _ _ _ | .replayMissing _ _ _ _ _
  | .reconcile _ _ | .reconcileForCarrier _ _ _ _ => true

namespace Link

def extend {α : Type} (lists : Endpoint → Direction → List α) (e : Endpoint) (d : Direction)
    (more : List α) : Endpoint → Direction → List α :=
  fun e' d' => if e' = e ∧ d' = d then lists e' d' ++ more else lists e' d'

section

variable (l : Link)

def ready (e : Endpoint) (d : Direction) : ExtTreeMap Nat Frame :=
  ((l.state e).direction d).ready

/-- Endpoint `e` moves to state `s`; what its ready queues gain and lose is recorded. -/
def become (e : Endpoint) (s : StreamState) : Link :=
  { l with
    state := update l.state e s
    entered := fun e' d =>
      if e' = e then l.entered e d ++ gained (l.ready e d) (s.direction d).ready
      else l.entered e' d
    handed := fun e' d =>
      if e' = e then l.handed e d ++ gained (s.direction d).ready (l.ready e d)
      else l.handed e' d }

def carry (e : Endpoint) (d : Direction) (frames : List Frame) : Link :=
  { l with net := extend l.net e d frames }

def record (e : Endpoint) (d : Direction) (frames : List Frame) : Link :=
  { l with log := extend l.log e d frames }

def resend (e : Endpoint) (d : Direction) :
    Except SequenceError (List Frame) → Link
  | .ok frames => l.carry e d frames
  | .error _ => l

def resendPlan (e : Endpoint) : Except SequenceError RecoveryPlan → Link
  | .ok plan =>
    (l.carry e .relayToConnector plan.replay.relayToConnector).carry e .connectorToRelay
      plan.replay.connectorToRelay
  | .error _ => l

/-- A frame that was sent goes on the wire, and on record if it has a sequence number. -/
def afterSend (e : Endpoint) (d : Direction) (f : Frame) :
    EStateM.Result SequenceError StreamState Unit → Link
  | .ok _ s => ((l.become e s).record e d (if f.kind.sequenced then [f] else [])).carry e d [f]
  | .error _ s => l.become e s

def afterApply (e : Endpoint) :
    EStateM.Result SequenceError StreamState RecoveryPlan → Link
  | .ok plan s => (l.become e s).resendPlan e (.ok plan)
  | .error _ s => l.become e s

end

def exec [Sha256] (l : Link) : Action → Link
  | .send e d f => l.afterSend e d f ((StreamState.sendFrame d f).run (l.state e))
  | .receive e d f =>
    if f ∈ l.net e.peer d then
      l.become e (stateOf ((StreamState.receiveFrame d f).run (l.state e)))
    else l
  | .deliver e d through =>
    l.become e (stateOf ((StreamState.markDelivered d through).run (l.state e)))
  | .snapshot e =>
    { l with
      snapshots := update l.snapshots e (l.snapshots e ++ [(l.state e).snapshot]) }
  | .retainedReplay e d first through =>
    l.resend e d ((l.state e).retainedReplay d first through)
  | .replayFrames e d first through epoch generation =>
    l.resend e d ((l.state e).replayFrames d first through epoch generation)
  | .replayMissing e d cursor epoch generation =>
    l.resend e d ((l.state e).replayMissing d cursor epoch generation)
  | .reconcile e peer =>
    if peer ∈ l.snapshots e.peer then l.resendPlan e ((l.state e).reconcile peer) else l
  | .reconcileForCarrier e peer epoch generation =>
    if peer ∈ l.snapshots e.peer then
      l.resendPlan e ((l.state e).reconcileForCarrier peer epoch generation)
    else l
  | .reconcileAndApply e peer =>
    if peer ∈ l.snapshots e.peer then
      l.afterApply e ((StreamState.reconcileAndApply peer).run (l.state e))
    else l

def run [Sha256] (l : Link) (actions : List Action) : Link := actions.foldl exec l

def connect (config : LinkConfig) : Except SequenceError Link := do
  let relay ← StreamState.withCreditsAndLimits config.streamId (config.sendCredit .relay)
    (config.receiveCredit .relay) (config.limits .relay)
  let connector ← StreamState.withCreditsAndLimits config.streamId (config.sendCredit .connector)
    (config.receiveCredit .connector) (config.limits .connector)
  return { state := fun | .relay => relay | .connector => connector
           log := fun _ _ => []
           net := fun _ _ => []
           snapshots := fun _ => []
           entered := fun _ _ => []
           handed := fun _ _ => [] }

/-! ## How the parts of a link change -/

variable {α : Type}

theorem extend_self (lists : Endpoint → Direction → List α) (e : Endpoint) (d : Direction)
    (more : List α) : extend lists e d more e d = lists e d ++ more := if_pos ⟨rfl, rfl⟩

variable {e' : Endpoint} {d d' : Direction} {snapshot : StreamSnapshot}

theorem extend_other (lists : Endpoint → Direction → List α) {e : Endpoint}
    (h : ¬ (e' = e ∧ d' = d)) (more : List α) : extend lists e d more e' d' = lists e' d' :=
  if_neg h

theorem extend_nil (lists : Endpoint → Direction → List α) (e : Endpoint) (d : Direction) :
    extend lists e d [] = lists := by
  funext e' d'
  unfold extend
  rw [append_nil, ite_self]

theorem mem_extend {lists : Endpoint → Direction → List α} {e : Endpoint} {more : List α} {a : α}
    (h : a ∈ extend lists e d more e' d') : a ∈ lists e' d' ∨ (e' = e ∧ d' = d ∧ a ∈ more) := by
  unfold extend at h
  split at h
  next heq =>
    rcases mem_append.1 h with h | h
    · exact .inl h
    · exact .inr ⟨heq.1, heq.2, h⟩
  · exact .inl h

theorem extend_exists (lists : Endpoint → Direction → List α) (e e' : Endpoint)
    (d d' : Direction) (more : List α) : ∃ m, extend lists e d more e' d' = lists e' d' ++ m := by
  unfold extend
  split
  · exact ⟨more, rfl⟩
  · exact ⟨[], by rw [append_nil]⟩

variable (l : Link) (e : Endpoint) (s : StreamState)

theorem resend_keeps (d : Direction) (r : Except SequenceError (List Frame)) :
    (l.resend e d r).snapshots = l.snapshots ∧ (l.resend e d r).state = l.state ∧
      (l.resend e d r).log = l.log := by
  cases r <;> exact ⟨rfl, rfl, rfl⟩

theorem resendPlan_keeps (r : Except SequenceError RecoveryPlan) :
    (l.resendPlan e r).snapshots = l.snapshots ∧ (l.resendPlan e r).state = l.state ∧
      (l.resendPlan e r).log = l.log := by
  cases r <;> exact ⟨rfl, rfl, rfl⟩

/-- A call that only reads puts frames or a snapshot on the wire, and that is all. -/
theorem exec_of_reads [Sha256] {a : Action} (h : a.reads = true) :
    (l.exec a).state = l.state ∧ (l.exec a).log = l.log := by
  cases a with
  | send _ _ _ | receive _ _ _ | deliver _ _ _ | reconcileAndApply _ _ => cases h
  | snapshot e => exact ⟨rfl, rfl⟩
  | retainedReplay e d first through | replayFrames e d first through epoch generation
  | replayMissing e d cursor epoch generation => exact (resend_keeps ..).2
  | reconcile e peer | reconcileForCarrier e peer epoch generation =>
    show (if peer ∈ l.snapshots e.peer then _ else l).state = _ ∧
      (if peer ∈ l.snapshots e.peer then _ else l).log = _
    split
    · exact (resendPlan_keeps ..).2
    · exact ⟨rfl, rfl⟩

theorem snapshot_mem_exec [Sha256] : (l.state e).snapshot ∈ (l.exec (.snapshot e)).snapshots e := by
  show _ ∈ update l.snapshots e (l.snapshots e ++ [(l.state e).snapshot]) e
  rw [update_self]
  exact mem_append_right _ (mem_singleton.2 rfl)

theorem mem_snapshots_exec [Sha256] (h : snapshot ∈ l.snapshots e) (a : Action) :
    snapshot ∈ (l.exec a).snapshots e := by
  cases a with
  | send e' d f =>
    have hsend : ∀ r, (l.afterSend e' d f r).snapshots = l.snapshots := by
      intro r
      cases r <;> rfl
    exact (hsend _).symm ▸ h
  | receive e' d f =>
    show snapshot ∈ (if f ∈ l.net e'.peer d then _ else l).snapshots e
    split <;> exact h
  | deliver e' d through => exact h
  | snapshot e' =>
    show snapshot ∈ update l.snapshots e' (l.snapshots e' ++ [(l.state e').snapshot]) e
    by_cases he : e = e'
    · subst he
      rw [update_self]
      exact mem_append_left _ h
    · rwa [update_of_ne he]
  | retainedReplay e' d first through | replayFrames e' d first through epoch generation
  | replayMissing e' d cursor epoch generation => exact (resend_keeps ..).1.symm ▸ h
  | reconcile e' peer | reconcileForCarrier e' peer epoch generation =>
    show snapshot ∈ (if peer ∈ l.snapshots e'.peer then _ else l).snapshots e
    split
    · exact (resendPlan_keeps ..).1.symm ▸ h
    · exact h
  | reconcileAndApply e' peer =>
    have happly : ∀ r, (l.afterApply e' r).snapshots = l.snapshots := by
      intro r
      cases r <;> rfl
    show snapshot ∈ (if peer ∈ l.snapshots e'.peer then _ else l).snapshots e
    split
    · exact (happly _).symm ▸ h
    · exact h

theorem mem_snapshots_run [Sha256] (h : snapshot ∈ l.snapshots e) (actions : List Action) :
    snapshot ∈ (l.run actions).snapshots e := by
  induction actions generalizing l with
  | nil => exact h
  | cons a actions ih => exact ih _ (l.mem_snapshots_exec e h a)

theorem mem_resendPlan {plan : RecoveryPlan} {f : Frame} (h : f ∈ plan.replay.get d) :
    f ∈ (l.resendPlan e (.ok plan)).net e d := by
  show f ∈ extend (extend l.net e .relayToConnector plan.replay.relayToConnector) e
    .connectorToRelay plan.replay.connectorToRelay e d
  cases d with
  | relayToConnector =>
    rw [extend_other _ (by simp), extend_self]
    exact mem_append_right _ h
  | connectorToRelay =>
    rw [extend_self]
    exact mem_append_right _ h

theorem become_state_self : (l.become e s).state e = s := by
  simp [become]

theorem become_state_other (h : e' ≠ e) : (l.become e s).state e' = l.state e' := by
  simp [become, h]

theorem become_entered_self (d : Direction) :
    (l.become e s).entered e d =
      l.entered e d ++ gained ((l.state e).direction d).ready (s.direction d).ready :=
  if_pos rfl

theorem become_entered_other (h : e' ≠ e) (d : Direction) :
    (l.become e s).entered e' d = l.entered e' d := if_neg h

theorem become_handed_self (d : Direction) :
    (l.become e s).handed e d =
      l.handed e d ++ gained (s.direction d).ready ((l.state e).direction d).ready :=
  if_pos rfl

theorem become_handed_other (h : e' ≠ e) (d : Direction) :
    (l.become e s).handed e' d = l.handed e' d := if_neg h

theorem become_same : l.become e (l.state e) = l := by
  have hentered : (l.become e (l.state e)).entered = l.entered := by
    funext e' d
    by_cases he : e' = e
    · subst he
      rw [become_entered_self, gained_self, append_nil]
    · rw [become_entered_other _ _ _ he]
  have hhanded : (l.become e (l.state e)).handed = l.handed := by
    funext e' d
    by_cases he : e' = e
    · subst he
      rw [become_handed_self, gained_self, append_nil]
    · rw [become_handed_other _ _ _ he]
  have hstate : (l.become e (l.state e)).state = l.state := update_eq_self e l.state
  calc l.become e (l.state e)
      = { l with
          state := (l.become e (l.state e)).state
          entered := (l.become e (l.state e)).entered
          handed := (l.become e (l.state e)).handed } := rfl
    _ = l := by rw [hentered, hhanded, hstate]

end Link

end AgentUplink
