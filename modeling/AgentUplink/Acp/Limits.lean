import AgentUplink.Acp.Bridge

/-!
# The connection limits under concurrency

The room for a connection is checked when its request arrives, and the connection enters
the table when its agent has answered. What matters for the limits is therefore not the
table alone but the names *pledged*: those in the table and those promised to requests
whose agent has not answered yet. Only the arrival of a request pledges a name.
-/

namespace AgentUplink.Acp

open List

open JsonText (Value)
open Ledger Std Trace

/-! ## Pledged names -/

/-- The name a request in flight will enter into the table. -/
def Request.promised (who : Option String → Bool) (request : Request) : Option String :=
  match request.phase with
  | .initializing id _ => if who request.binding then some id else none
  | _ => none

theorem Request.promised_eq_some {who : Option String → Bool} {request : Request} {id : String} :
    request.promised who = some id ↔
      (∃ messageId, request.phase = .initializing id messageId) ∧ who request.binding = true := by
  unfold promised
  cases request.phase with
  | initializing name messageId =>
    by_cases hwho : who request.binding = true
    · simp [hwho]
    · simp [hwho]
  | draining response | answered response | dropped => simp

namespace AcpExport

variable {who : Option String → Bool} {s : AcpExport} {id : String}

section

variable (who : Option String → Bool)

/-- The names in the table, of the principals in question. -/
def tracked (s : AcpExport) : Finset String :=
  keysWhere (fun connection => who connection.principal) s.connections

def promised (s : AcpExport) : Finset String :=
  (s.requests.filterMap (Request.promised who)).toFinset

def pledged (s : AcpExport) : Finset String :=
  s.tracked who ∪ s.promised who

end

def everyone : Option String → Bool := fun _ => true

def only (principal : Option String) : Option String → Bool := fun binding => binding = principal

theorem mem_tracked :
    id ∈ s.tracked who ↔ ∃ c, s.connections[id]? = some c ∧ who c.principal = true :=
  mem_keysWhere

theorem mem_promised :
    id ∈ s.promised who ↔ ∃ request ∈ s.requests, request.promised who = some id := by
  simp [promised]

theorem mem_pledged : id ∈ s.pledged who ↔ id ∈ s.tracked who ∨ id ∈ s.promised who :=
  Finset.mem_union

theorem card_tracked_everyone : (s.tracked everyone).card = s.live :=
  card_keysWhere_true s.connections

theorem card_tracked_only (principal : Option String) :
    (s.tracked (only principal)).card = s.heldBy principal :=
  card_keysWhere _ s.connections

def Capped (s : AcpExport) : Prop :=
  s.live ≤ maxTrackedConnections ∧ ∀ principal, s.heldBy principal ≤ maxConnectionsPerBinding

/-- Both limits hold of the pledged names. -/
def Provided (s : AcpExport) : Prop :=
  (s.pledged everyone).card ≤ maxTrackedConnections ∧
    ∀ principal, (s.pledged (only principal)).card ≤ maxConnectionsPerBinding

theorem Provided.capped (h : s.Provided) : s.Capped := by
  have hle : ∀ who, (s.tracked who).card ≤ (s.pledged who).card := fun who =>
    Finset.card_le_card Finset.subset_union_left
  constructor
  · rw [← card_tracked_everyone]
    exact (hle everyone).trans h.1
  · intro principal
    rw [← card_tracked_only]
    exact (hle (only principal)).trans (h.2 principal)

theorem Provided.mono {t : AcpExport} (h : s.Provided)
    (hsub : ∀ who, t.pledged who ⊆ s.pledged who) : t.Provided :=
  ⟨(Finset.card_le_card (hsub everyone)).trans h.1, fun principal =>
    (Finset.card_le_card (hsub (only principal))).trans (h.2 principal)⟩

/-! ## What a step does -/

/-- An accepted answer enters the connection, whatever the table holds by then. -/
def enter (s : AcpExport) (i : Nat) (request : Request) (id : String) (response : Response) :
    AcpExport :=
  { s with connections := s.connections.insert id ⟨id, request.binding⟩ }.setPhase i request
    (.answered response)

/-- What the events other than an arrival can do. -/
inductive Moves (s : AcpExport) : AcpExport → Prop
  | idle : Moves s s
  | setPhase {i : Nat} {request : Request} {phase : Phase}
      (hrequest : s.requests[i]? = some request)
      (hphase : ∀ name messageId, phase ≠ .initializing name messageId)
      (hresponse : phase.response = some .atConnectionLimit →
        request.phase.response = some .atConnectionLimit) : Moves s (s.setPhase i request phase)
  | enter {i : Nat} {request : Request} {id : String} {messageId : Option Value}
      {result : Value} (hrequest : s.requests[i]? = some request)
      (hphase : request.phase = .initializing id messageId) :
      Moves s (s.enter i request id (.opened id (messageId.getD .null) result))
  | leave {connections : ExtTreeMap String Connection}
      (hsub : ∀ (id : String) c, connections[id]? = some c → s.connections[id]? = some c) :
      Moves s { s with connections }

variable {i : Nat} {request : Request} {phase : Phase} {event : Event} {messageId : Option Value}
  {requests : List Nat}

theorem moves_step (h : event.isRequest = false) : s.Moves (step event s) := by
  cases event with
  | initializeRequest binding messageId spawned => cases h
  | agentAnswered i answer =>
    show s.Moves (s.agentAnswered i answer)
    fun_cases agentAnswered s i answer with
    | case1 request hrequest =>
      exact .setPhase hrequest (by simp)
        (by simp [Phase.response, Response.agentNotInitialized, Response.atConnectionLimit])
    | case2 request hrequest =>
      exact .setPhase hrequest (by simp) (by simp [Phase.response, Response.atConnectionLimit])
    | case3 request hrequest id messageId hphase => exact .enter hrequest hphase
    | case4 | case5 => exact .idle
  | drained i =>
    show s.Moves (s.drained i)
    fun_cases drained s i with
    | case1 request hrequest response hphase =>
      exact .setPhase hrequest (by simp) (by rw [hphase]; exact id)
    | case2 | case3 => exact .idle
  | drop i =>
    show s.Moves (s.drop i)
    fun_cases drop s i with
    | case1 request hrequest | case2 request hrequest =>
      exact .setPhase hrequest (by simp) (by simp [Phase.response])
    | case3 | case4 => exact .idle
  | remove name => exact .leave fun _ _ hc => (get_erase_eq_some.1 hc).2
  | shutdown => exact .leave (by simp)

theorem pledged_receive (request : Request) :
    (s.receive request).pledged who = s.pledged who ∪ (request.promised who).toFinset := by
  ext id
  simp only [mem_pledged, mem_tracked, mem_promised, Finset.mem_union, Option.mem_toFinset,
    Option.mem_def, receive, mem_append, mem_singleton, or_and_right, exists_or,
    exists_eq_left, or_assoc]

theorem pledged_setPhase (hphase : ∀ name messageId, phase ≠ .initializing name messageId) :
    (s.setPhase i request phase).pledged who ⊆ s.pledged who := by
  refine Finset.union_subset_union_right fun id hid => ?_
  obtain ⟨other, hmem, hother⟩ := mem_promised.1 hid
  rcases mem_or_eq_of_mem_set hmem with hold | rfl
  · exact mem_promised.2 ⟨other, hold, hother⟩
  · obtain ⟨⟨messageId, hinit⟩, -⟩ := Request.promised_eq_some.1 hother
    exact absurd hinit (hphase id messageId)

theorem pledged_insert (hrequest : s.requests[i]? = some request)
    (hphase : request.phase = .initializing id messageId) :
    { s with connections := s.connections.insert id ⟨id, request.binding⟩ }.pledged who ⊆
      s.pledged who := by
  intro name hname
  rcases mem_pledged.1 hname with htracked | hpromised
  · obtain ⟨c, hc, hwho⟩ := mem_tracked.1 htracked
    rcases get_insert_eq_some.1 hc with ⟨rfl, rfl⟩ | ⟨-, hc⟩
    · exact mem_pledged.2 (.inr (mem_promised.2 ⟨request, mem_of_getElem? hrequest,
        Request.promised_eq_some.2 ⟨⟨messageId, hphase⟩, hwho⟩⟩))
    · exact mem_pledged.2 (.inl (mem_tracked.2 ⟨c, hc, hwho⟩))
  · exact mem_pledged.2 (.inr hpromised)

/-- Only the arrival of a request pledges a name. -/
theorem pledged_step (h : event.isRequest = false) :
    (step event s).pledged who ⊆ s.pledged who := by
  have hmoves := moves_step (s := s) h
  generalize step event s = t at hmoves ⊢
  cases hmoves with
  | idle => exact Finset.Subset.refl _
  | setPhase hrequest hphase => exact pledged_setPhase hphase
  | enter hrequest hphase =>
    exact (pledged_setPhase (by simp)).trans (pledged_insert hrequest hphase)
  | leave hsub =>
    refine Finset.union_subset_union_left fun id hid => ?_
    obtain ⟨c, hc, hwho⟩ := mem_tracked.1 hid
    exact mem_tracked.2 ⟨c, hsub id c hc, hwho⟩

theorem pledged_run {events : List Event} (h : ∀ event ∈ events, event.isRequest = false) :
    (run step s events).pledged who ⊆ s.pledged who := by
  induction events generalizing s with
  | nil => exact Finset.Subset.refl _
  | cons event events ih =>
    exact (ih fun e he => h e (mem_cons_of_mem _ he)).trans
      (pledged_step (h event mem_cons_self))

theorem pledged_initializeRequest (binding : Option String) (messageId : Option Value)
    (spawned : Bool) :
    (s.initializeRequest binding messageId spawned).pledged who =
      if s.hasRoomFor binding = true ∧ spawned = true ∧ who binding = true then
        insert (connectionId s.epoch s.next) (s.pledged who)
      else s.pledged who := by
  have hpledged : { s with next := s.next + 1 }.pledged who = s.pledged who := rfl
  unfold initializeRequest
  by_cases hroom : s.hasRoomFor binding = true
  · cases spawned with
    | true =>
      by_cases hwho : who binding = true
      · simp [hroom, hwho, pledged_receive, Request.promised, hpledged]
      · simp [hroom, hwho, pledged_receive, Request.promised, hpledged]
    | false => simp [hroom, pledged_receive, Request.promised, hpledged]
  · simp [hroom, pledged_receive, Request.promised]

/-! ## Every agent answers -/

/-- An agent's result that the pinned profile accepts. -/
def acceptedResult : Value := .object [("protocolVersion", .number "1")]

theorem checkResultVersion_acceptedResult : checkResultVersion acceptedResult = .ok () := rfl

theorem agentAnswered_of_accepted {result : Value} (hrequest : s.requests[i]? = some request)
    (hphase : request.phase = .initializing id messageId)
    (hversion : checkResultVersion result = .ok ()) :
    s.agentAnswered i (.ok result) =
      s.enter i request id (.opened id (messageId.getD .null) result) := by
  simp only [agentAnswered, hrequest, hphase, hversion, enter]

/-- An accepted answer enters the connection of a request that waits for it. -/
theorem agentAnswered_cases (i : Nat) :
    s.agentAnswered i (.ok acceptedResult) = s ∨
      ∃ request id response, s.requests[i]? = some request ∧
        s.agentAnswered i (.ok acceptedResult) = s.enter i request id response := by
  cases hrequest : s.requests[i]? with
  | none => exact .inl (by simp [agentAnswered, hrequest])
  | some request =>
    cases hphase : request.phase with
    | initializing id messageId =>
      exact .inr ⟨request, id, _, rfl, agentAnswered_of_accepted hrequest hphase
        checkResultVersion_acceptedResult⟩
    | _ => exact .inl (by simp [agentAnswered, hrequest, hphase])

def answers (requests : List Nat) : List Event :=
  requests.map fun i => .agentAnswered i (.ok acceptedResult)

theorem requests_agentAnswered {j : Nat} (hj : i ≠ j) :
    (s.agentAnswered i (.ok acceptedResult)).requests[j]? = s.requests[j]? := by
  rcases agentAnswered_cases i with hsame | ⟨request, id, response, -, heq⟩
  · rw [hsame]
  · rw [heq]
    exact List.getElem?_set_ne hj

theorem bindings_agentAnswered (i : Nat) :
    (s.agentAnswered i (.ok acceptedResult)).requests.map Request.binding =
      s.requests.map Request.binding := by
  rcases agentAnswered_cases i with hsame | ⟨request, id, response, hrequest, heq⟩
  · rw [hsame]
  · obtain ⟨hi, rfl⟩ := List.getElem?_eq_some_iff.1 hrequest
    rw [heq]
    simp only [enter, setPhase, map_set]
    refine ext_getElem? fun j => ?_
    by_cases hj : i = j
    · subst hj
      simp [hi]
    · rw [List.getElem?_set_ne hj]

/-- An accepted answer to a request of the principals in question only adds to their
names. -/
theorem tracked_agentAnswered
    (hwho : ∀ binding, (s.requests.map Request.binding)[i]? = some binding → who binding = true) :
    s.tracked who ⊆ (s.agentAnswered i (.ok acceptedResult)).tracked who := by
  intro id hid
  rcases agentAnswered_cases i with hsame | ⟨request, name, response, hrequest, heq⟩
  · rwa [hsame]
  obtain ⟨c, hc, hprincipal⟩ := mem_tracked.1 hid
  rw [heq, mem_tracked]
  simp only [enter, setPhase, get_insert]
  by_cases hname : name = id
  · refine ⟨⟨name, request.binding⟩, if_pos hname, hwho _ ?_⟩
    rw [List.getElem?_map, hrequest]
    rfl
  · exact ⟨c, (if_neg hname).trans hc, hprincipal⟩

/-- When the agents of requests of the principals in question have answered, every name
these requests were promised is in the table. -/
theorem tracked_answers
    (hwho : ∀ i ∈ requests, ∀ binding, (s.requests.map Request.binding)[i]? = some binding →
      who binding = true)
    (hid : id ∈ s.tracked who ∨
      ∃ i ∈ requests, ∃ request, s.requests[i]? = some request ∧ request.promised who = some id) :
    id ∈ (run step s (answers requests)).tracked who := by
  induction requests generalizing s with
  | nil =>
    rcases hid with hid | ⟨i, hi, -⟩
    · exact hid
    · exact absurd hi not_mem_nil
  | cons i requests ih =>
    have hhead := hwho i mem_cons_self
    have htracked := tracked_agentAnswered hhead
    refine ih (s := s.agentAnswered i (.ok acceptedResult)) ?_ ?_
    · intro j hj binding hbinding
      rw [bindings_agentAnswered] at hbinding
      exact hwho j (mem_cons_of_mem _ hj) binding hbinding
    · rcases hid with hid | ⟨j, hj, request, hrequest, hpromised⟩
      · exact .inl (htracked hid)
      · by_cases hij : i = j
        · subst hij
          obtain ⟨⟨messageId, hphase⟩, hbinding⟩ := Request.promised_eq_some.1 hpromised
          rw [agentAnswered_of_accepted hrequest hphase checkResultVersion_acceptedResult]
          exact .inl (mem_tracked.2 ⟨⟨id, request.binding⟩, by simp [enter, setPhase], hbinding⟩)
        · have htail := (mem_cons.1 hj).resolve_left (Ne.symm hij)
          refine .inr ⟨j, htail, request, ?_, hpromised⟩
          rw [requests_agentAnswered hij]
          exact hrequest

def requestsOf (who : Option String → Bool) (s : AcpExport) : List Nat :=
  (List.range s.requests.length).filter fun i => (s.requests[i]?).any fun r => who r.binding

theorem pledged_subset_tracked :
    s.pledged who ⊆ (run step s (answers (s.requestsOf who))).tracked who := by
  intro id hid
  refine tracked_answers ?_ ?_
  · intro i hi binding hbinding
    rw [List.getElem?_map, Option.map_eq_some_iff] at hbinding
    obtain ⟨request, hrequest, rfl⟩ := hbinding
    have hany := (mem_filter.1 hi).2
    rw [hrequest] at hany
    exact hany
  · refine (mem_pledged.1 hid).imp_right fun hpromised => ?_
    obtain ⟨request, hmem, hrequest⟩ := mem_promised.1 hpromised
    obtain ⟨i, hi⟩ := mem_iff_getElem?.1 hmem
    refine ⟨i, mem_filter.2 ⟨mem_range.2 (List.getElem?_eq_some_iff.1 hi).1, ?_⟩,
      request, hi, hrequest⟩
    rw [hi]
    exact (Request.promised_eq_some.1 hrequest).2

theorem isRequest_answers : ∀ event ∈ answers requests, event.isRequest = false := by
  intro event hevent
  obtain ⟨i, -, rfl⟩ := mem_map.1 hevent
  rfl

/-- If the table keeps to the limits however the requests in flight go on, the pledged
names do. -/
theorem provided_of_capped
    (h : ∀ rest, (∀ event ∈ rest, event.isRequest = false) → (run step s rest).Capped) :
    s.Provided := by
  have hle : ∀ who, (s.pledged who).card ≤
      ((run step s (answers (s.requestsOf who))).tracked who).card := fun who =>
    Finset.card_le_card pledged_subset_tracked
  constructor
  · refine (hle everyone).trans ?_
    rw [card_tracked_everyone]
    exact (h _ isRequest_answers).1
  · intro principal
    refine (hle (only principal)).trans ?_
    rw [card_tracked_only]
    exact (h _ isRequest_answers).2 principal

end AcpExport

/-! ## The limits -/

/-- A request that is let in finds room also beside the requests in flight. -/
def Event.Fits (s : AcpExport) : Event → Prop
  | initializeRequest binding _ spawned =>
    s.hasRoomFor binding = true → spawned = true →
      (insert (connectionId s.epoch s.next) (s.pledged AcpExport.everyone)).card
          ≤ maxTrackedConnections ∧
        (insert (connectionId s.epoch s.next) (s.pledged (AcpExport.only binding))).card
          ≤ maxConnectionsPerBinding
  | _ => True

namespace AcpExport

variable {s : AcpExport}

theorem provided_step {event : Event} (h : s.Provided) :
    (step event s).Provided ↔ event.Fits s := by
  cases event with
  | initializeRequest binding messageId spawned =>
    simp only [step, Provided, Event.Fits, pledged_initializeRequest]
    by_cases hin : s.hasRoomFor binding = true ∧ spawned = true
    · obtain ⟨hroom, rfl⟩ := hin
      simp only [hroom, everyone, only, decide_eq_true_eq, true_and, and_true, if_true,
        forall_const]
      refine and_congr_right fun _ => ⟨fun hall => ?_, fun hone principal => ?_⟩
      · have := hall binding
        rwa [if_pos rfl] at this
      · by_cases hbinding : binding = principal
        · rw [if_pos hbinding]
          subst hbinding
          exact hone
        · rw [if_neg hbinding]
          exact h.2 principal
    · have hout : ∀ P : Prop, ¬ (s.hasRoomFor binding = true ∧ spawned = true ∧ P) :=
        fun P hP => hin ⟨hP.1, hP.2.1⟩
      simp only [if_neg (hout _)]
      exact ⟨fun _ hroom hspawned => absurd ⟨hroom, hspawned⟩ hin, fun _ => h⟩
  | _ => exact iff_of_true (h.mono fun _ => pledged_step rfl) trivial

variable (epoch : UInt64)

theorem provided_fromConfig : (fromConfig epoch).Provided := by
  have hnone : ∀ who, (fromConfig epoch).pledged who = ∅ := by
    intro who
    ext id
    simp [mem_pledged, mem_tracked, mem_promised, fromConfig]
  simp [Provided, hnone]

theorem after_append_singleton (earlier : List Event) (event : Event) :
    after epoch (earlier ++ [event]) = step event (after epoch earlier) := by
  rw [after, run_append]
  rfl

theorem after_append (earlier rest : List Event) :
    after epoch (earlier ++ rest) = run step (after epoch earlier) rest :=
  run_append ..

/-- As long as every request that is let in finds room beside those in flight, the pledged
names keep to the limits. -/
theorem provided_after {epoch : UInt64} {events : List Event}
    (h : ∀ earlier event, earlier ++ [event] <+: events → event.Fits (after epoch earlier))
    {earlier : List Event} (hearlier : earlier <+: events) : (after epoch earlier).Provided := by
  induction earlier using List.reverseRecOn with
  | nil => exact provided_fromConfig epoch
  | append_singleton earlier event ih =>
    rw [after_append_singleton]
    exact (provided_step (ih ((prefix_append ..).trans hearlier))).2 (h _ _ hearlier)

/-- An agent is never started for a request that is refused for lack of room. -/
def RefusedUnstarted (s : AcpExport) : Prop :=
  ∀ request ∈ s.requests, request.phase.response = some .atConnectionLimit → request.started = false

theorem RefusedUnstarted.setPhase {t : AcpExport} {i : Nat} {request : Request} {phase : Phase}
    (h : s.RefusedUnstarted) (hsame : t.requests = s.requests)
    (hphase : phase.response = some .atConnectionLimit → request.started = false) :
    (t.setPhase i request phase).RefusedUnstarted := by
  intro other hmem hother
  rcases mem_or_eq_of_mem_set hmem with hold | rfl
  · exact h other (hsame ▸ hold) hother
  · exact hphase hother

theorem RefusedUnstarted.receive {t : AcpExport} {request : Request} (h : s.RefusedUnstarted)
    (hsame : t.requests = s.requests)
    (hrequest : request.phase.response = some .atConnectionLimit → request.started = false) :
    (t.receive request).RefusedUnstarted := by
  unfold RefusedUnstarted AcpExport.receive
  rw [hsame]
  exact forall_mem_append.2 ⟨h, forall_mem_singleton.2 hrequest⟩

theorem refusedUnstarted_step (event : Event) (s : AcpExport) (h : s.RefusedUnstarted) :
    (step event s).RefusedUnstarted := by
  by_cases hevent : event.isRequest = true
  · cases event with
    | initializeRequest binding messageId spawned =>
      show (s.initializeRequest binding messageId spawned).RefusedUnstarted
      fun_cases initializeRequest s binding messageId spawned with
      | case1 => exact h.receive rfl (by simp [Phase.response])
      | case2 | case3 => exact h.receive rfl fun _ => rfl
    | _ => cases hevent
  · have hmoves := moves_step (s := s) (Bool.of_not_eq_true hevent)
    generalize step event s = t at hmoves ⊢
    cases hmoves with
    | idle | leave => exact h
    | setPhase hrequest _ hresponse =>
      exact h.setPhase rfl fun hphase => h _ (mem_of_getElem? hrequest) (hresponse hphase)
    | enter => exact h.setPhase rfl (by simp [Phase.response, Response.atConnectionLimit])

theorem refusedUnstarted_after (events : List Event) : (after epoch events).RefusedUnstarted :=
  run_invariant refusedUnstarted_step (fun _ hmem => absurd hmem not_mem_nil) events

/-- An export's table keeps to both limits at every moment of a run, however the requests
in flight go on, if and only if every request whose agent was started had room beside the
connections and the requests in flight. In every run an agent is started only for a
request that is not refused for lack of room, and a connection whose agent was accepted
is tracked. -/
theorem connection_limits_hold_iff (epoch : UInt64) (events : List Event) :
    ((∀ earlier, earlier <+: events → ∀ rest, (∀ event ∈ rest, event.isRequest = false) →
        (after epoch (earlier ++ rest)).Capped) ↔
      ∀ earlier event, earlier ++ [event] <+: events → event.Fits (after epoch earlier)) ∧
    (∀ request ∈ (after epoch events).requests,
      request.phase.response = some .atConnectionLimit → request.started = false) ∧
    ∀ i request id messageId result, (after epoch events).requests[i]? = some request →
      request.phase = .initializing id messageId → checkResultVersion result = .ok () →
        (after epoch (events ++ [.agentAnswered i (.ok result)])).connections[id]? =
          some ⟨id, request.binding⟩ := by
  refine ⟨⟨fun hcapped earlier event hearlier => ?_, fun hfits earlier hearlier rest hrest => ?_⟩,
    refusedUnstarted_after epoch events, fun i request id messageId result hrequest hphase
      hversion => ?_⟩
  · have hprovided : ∀ before, before <+: events → (after epoch before).Provided := by
      intro before hbefore
      refine provided_of_capped fun rest hrest => ?_
      rw [← after_append]
      exact hcapped before hbefore rest hrest
    have hbefore := hprovided earlier ((prefix_append ..).trans hearlier)
    refine (provided_step hbefore).1 ?_
    rw [← after_append_singleton]
    exact hprovided _ hearlier
  · rw [after_append]
    exact ((provided_after hfits hearlier).mono fun _ => pledged_run hrest).capped
  · rw [after_append_singleton]
    show ((after epoch events).agentAnswered i (.ok result)).connections[id]? = _
    rw [agentAnswered_of_accepted hrequest hphase hversion]
    simp [enter, setPhase]

/-- Thirty-three requests of one principal arrive before any of their agents answers. -/
theorem thirty_three_at_once :
    ¬ (after 0 (List.replicate 33 (.initializeRequest (some "p") none true) ++
        answers (List.range 33))).Capped := by
  intro h
  have hheld : (after 0 (List.replicate 33 (.initializeRequest (some "p") none true) ++
      answers (List.range 33))).heldBy (some "p") = 33 := by decide +kernel
  have := h.2 (some "p")
  rw [hheld] at this
  exact absurd this (by decide)

end AcpExport

end AgentUplink.Acp
