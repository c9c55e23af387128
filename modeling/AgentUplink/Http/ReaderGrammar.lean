import AgentUplink.Http.ReaderBytes

/-!
# The streams a reader completes

A direction completes exactly when its bytes are one head record that parses, body records
that add up to the declared length within the limit, and one end record.
-/

open Incremental Incremental.Outcome

namespace AgentUplink.Http

open List RecordHeader

/-- One direction of an exchange, record by record. -/
structure Profile.Spells {H : Type} (profile : Profile H) (bytes payload : List UInt8) (head : H)
    (bodies : List (List UInt8)) : Prop where
  records : bytes = recordBytes profile.direction.headKind payload ++
    (bodies.flatMap (recordBytes .body) ++ endRecord)
  headLength : checkLength profile.direction.headKind payload.length = .ok ()
  bodyLengths : ∀ data ∈ bodies, checkLength .body data.length = .ok ()
  parses : profile.parseHead payload = .ok head
  declared : ∀ length ∈ profile.bodyLength head, bodies.flatten.length = length.toNat
  limit : bodies.flatten.length ≤ profile.limit
  zeroBody : profile.zeroBody head = true → bodies.flatten.length = 0

namespace Profile

variable {H : Type} {profile : Profile H} {core : Core}

theorem run_encode (h : Receiving core) (hdecoder : core.decoder = .header [])
    (header : RecordHeader) : run profile.absorb core header.encode = announce core header := by
  rw [run_header_full h hdecoder (by decide) (by simp), nil_append, readHeader,
    decode_eq_ok.2 rfl]

variable {header : RecordHeader} {core' : Core} {bytes : List UInt8} {out : List (Symbol H)}

theorem announce_of_onHeader {raw : Option Raw}
    (h : (behind core header).onHeader header = (.ok raw, core')) :
    (announce core header : Outcome (Symbol H) CodecError Core)
      = ⟨if raw.isSome then [.finished] else [], .ok core'⟩ := by
  unfold announce
  rw [h]
  cases raw <;> rfl

/-! ## Records -/

theorem endRecord_eq : endRecord = RecordHeader.encode ⟨.finished, 0, rfl⟩ := by
  decide

variable {data payload : List UInt8} {bodies : List (List UInt8)}

theorem run_record_body (hphase : core.phase = .body) (hdecoder : core.decoder = .header [])
    (hkind : header.kind = .body) (hdata : data.length = header.payloadLen)
    (hcheck : core.checkBodyRecord header = .ok ()) :
    run profile.absorb core (header.encode ++ data)
      = ⟨data.map .octet, .ok { core with received := core.received + data.length }⟩ := by
  have hpos : 0 < data.length := by
    rw [hdata]
    exact header.payloadLen_pos (by rw [hkind]; decide)
  have hon : (behind core header).onHeader header = (.ok none, behind core header) := by
    have hcheck' : (behind core header).checkBodyRecord header = .ok () := hcheck
    have hphase' : (behind core header).phase = .body := hphase
    simp only [Core.onHeader, hphase', hkind, hcheck']
    rfl
  have hafter : (behind core header).decoder = .body header data.length := by
    rw [hdata]
    exact afterHeader_of_body hkind
  have hreceiving : Receiving (behind core header) := .inr hphase
  have hbody : run profile.absorb (behind core header) data = _ :=
    run_body hreceiving hafter hpos (le_refl _)
  rw [run_append, run_encode (.inr hphase) hdecoder, announce_of_onHeader hon]
  simp only [Option.isSome_none, Bool.false_eq_true, if_false, andThen_ok, nil_append, hbody,
    if_true]
  simp only [behind, ← hdecoder]

theorem run_endRecord (hphase : core.phase = .body) (hdecoder : core.decoder = .header [])
    (hcheck : core.checkEnd = .ok ()) :
    run profile.absorb core endRecord
      = ⟨[.finished], .ok { core with phase := .awaitFin }⟩ := by
  have hon : (behind core ⟨.finished, 0, rfl⟩).onHeader ⟨.finished, 0, rfl⟩
      = (.ok (some .finished), { behind core ⟨.finished, 0, rfl⟩ with phase := .awaitFin }) := by
    have hcheck' : (behind core ⟨.finished, 0, rfl⟩).checkEnd = .ok () := hcheck
    have hphase' : (behind core ⟨.finished, 0, rfl⟩).phase = .body := hphase
    simp only [Core.onHeader, hphase', hcheck']
    rfl
  rw [endRecord_eq, run_encode (.inr hphase) hdecoder, announce_of_onHeader hon]
  simp only [behind, afterHeader_of_finished, Option.isSome_some, if_true, ← hdecoder]

/-- The head record, up to what its payload comes to. -/
theorem run_record_head (hphase : core.phase = .awaitHead) (hdecoder : core.decoder = .header [])
    (hkind : header.kind = core.direction.headKind)
    (hpayload : payload.length = header.payloadLen) :
    run profile.absorb core (header.encode ++ payload) = profile.deliver core payload := by
  have hpos : 0 < header.payloadLen := by
    refine header.payloadLen_pos ?_
    rw [hkind]
    exact headKind_ne_finished _
  have hon : (behind core header).onHeader header = (.ok none, behind core header) := by
    have hphase' : (behind core header).phase = .awaitHead := hphase
    have hkind' : header.kind = (behind core header).direction.headKind := hkind
    unfold Core.onHeader
    rw [if_neg (fun hwrong => hwrong.2 hkind'), hphase', hkind]
    cases core.direction <;> rfl
  have hreceiving : Receiving (behind core header) := .inl hphase
  have hrun : run profile.absorb (behind core header) payload = _ :=
    run_head_full hreceiving (afterHeader_of_headKind hkind) hpos (by simpa using hpayload)
  rw [run_append, run_encode (.inl hphase) hdecoder, announce_of_onHeader hon]
  simp only [Option.isSome_none, Bool.false_eq_true, if_false, andThen_ok, nil_append, hrun]
  simp only [behind, ← hdecoder]

/-! ## Accepted streams -/

theorem run_records (hs : Sound profile core) (hphase : core.phase = .body)
    (hdecoder : core.decoder = .header [])
    (hlengths : ∀ data ∈ bodies, checkLength .body data.length = .ok ())
    (hdeclared : ∀ length ∈ core.declared, core.received + bodies.flatten.length ≤ length.toNat)
    (hlimit : core.received + bodies.flatten.length ≤ core.limit)
    (hzero : core.zeroBody = true → bodies.flatten.length = 0) :
    run profile.absorb core (bodies.flatMap (recordBytes .body))
      = ⟨bodies.flatten.map .octet, .ok { core with
          received := core.received + bodies.flatten.length }⟩ := by
  induction bodies generalizing core with
  | nil => rfl
  | cons data bodies ih =>
    have hlen := hlengths data (mem_cons_self ..)
    simp only [flatten_cons, length_append] at hdeclared hlimit hzero
    have hpos : 0 < data.length := payloadLen_pos ⟨.body, data.length, hlen⟩ nofun
    have hcheck : core.checkBodyRecord ⟨.body, data.length, hlen⟩ = .ok () := by
      refine Core.checkBodyRecord_eq_ok.2 ⟨?_, hs.wordBound ?_, fun length hlength => ?_, ?_⟩
      · rw [Bool.eq_false_iff]
        intro hyes
        have := hzero hyes
        omega
      · show core.received + data.length ≤ core.limit
        omega
      · have := hdeclared length hlength
        show core.received + data.length ≤ length.toNat
        omega
      · show core.received + data.length ≤ core.limit
        omega
    have hrecord : run profile.absorb core (recordBytes .body data)
        = ⟨data.map .octet, .ok { core with received := core.received + data.length }⟩ := by
      exact run_record_body hphase hdecoder rfl rfl hcheck
    have hih := ih (run_sound hs hrecord) hphase hdecoder
      (fun d hd => hlengths d (mem_cons_of_mem _ hd))
      (fun length hlength => by
        have := hdeclared length hlength
        show core.received + data.length + bodies.flatten.length ≤ _
        omega)
      (by
        show core.received + data.length + bodies.flatten.length ≤ core.limit
        omega)
      (fun hyes => by
        have := hzero hyes
        omega)
    rw [flatMap_cons, run_append, hrecord, andThen_ok, hih]
    simp only [flatten_cons, map_append, length_append, add_assoc]

theorem run_head_record (hlength : checkLength profile.direction.headKind payload.length = .ok ()) :
    run profile.absorb profile.new (recordBytes profile.direction.headKind payload)
      = profile.deliver profile.new payload := by
  rw [recordBytes_eq ⟨profile.direction.headKind, payload.length, hlength⟩ rfl]
  exact run_record_head rfl rfl rfl rfl

theorem run_spells {head : H} (h : profile.Spells bytes payload head bodies) :
    ∃ core', run profile.absorb profile.new bytes
        = ⟨.head head :: (bodies.flatten.map .octet ++ [.finished]), .ok core'⟩ ∧
      core'.phase = .awaitFin := by
  have hlimit := h.limit
  rcases deliver_cases (new_sound profile) rfl rfl payload with ⟨error, -, hlarge⟩ |
    ⟨head', hparse, hdeliver, hs⟩
  · obtain ⟨length, hlength, hgt⟩ := hlarge head h.parses
    have hdeclared := h.declared length hlength
    omega
  · cases h.parses.symm.trans hparse
    have hbodies := run_records hs rfl rfl h.bodyLengths
      (fun length hlength => by
        have := h.declared length hlength
        show 0 + _ ≤ _
        omega)
      (by
        show 0 + _ ≤ profile.limit
        omega)
      h.zeroBody
    have hcheck := fun length hlength => (zero_add _).trans (h.declared length hlength)
    rw [h.records, run_append, run_head_record h.headLength, hdeliver, andThen_ok, run_append,
      hbodies, andThen_ok, run_endRecord rfl rfl (Core.checkEnd_eq_ok.2 hcheck)]
    exact ⟨_, rfl, rfl⟩

/-! ## Only those streams -/

theorem run_awaitFin (hphase : core.phase = .awaitFin)
    (hrun : run profile.absorb core bytes = ⟨out, .ok core'⟩) : bytes = [] := by
  cases bytes with
  | nil => rfl
  | cons byte bytes =>
    rw [run_cons, absorb, hphase] at hrun
    cases hrun

/-- The first record of a stream that is read to its end: its header is complete and accepted. -/
theorem run_first_header (hreceiving : Receiving core) (hdecoder : core.decoder = .header [])
    (hrun : run profile.absorb core bytes = ⟨out, .ok core'⟩) (hfin : core'.phase = .awaitFin) :
    ∃ header rest, bytes = header.encode ++ rest ∧
      (announce core header).andThen (fun core => run profile.absorb core rest)
        = ⟨out, .ok core'⟩ := by
  by_cases hlen : bytes.length < recordHeaderLen
  · -- The bytes before a record is complete leave the phase as it is.
    rw [run_header_short hreceiving hdecoder (by simpa using hlen)] at hrun
    cases hrun
    rcases hreceiving with h | h <;> cases h.symm.trans hfin
  · have hsplit := (take_append_drop recordHeaderLen bytes).symm
    have hfull : (bytes.take recordHeaderLen).length = recordHeaderLen := by
      rw [length_take]
      omega
    generalize bytes.take recordHeaderLen = first at hsplit hfull
    generalize bytes.drop recordHeaderLen = rest at hsplit
    rw [hsplit, run_append, run_header_full hreceiving hdecoder (by decide) (by simpa using hfull),
      nil_append, readHeader] at hrun
    cases hdecode : RecordHeader.decode first with
    | error error =>
      rw [hdecode] at hrun
      cases hrun
    | ok header =>
      rw [hdecode] at hrun
      rw [decode_eq_ok] at hdecode
      subst hdecode
      exact ⟨header, rest, hsplit, hrun⟩

/-- A body that is read to its end is body records and one end record. -/
theorem bodies_of_run (hs : Sound profile core) (hphase : core.phase = .body)
    (hdecoder : core.decoder = .header []) (hrun : run profile.absorb core bytes = ⟨out, .ok core'⟩)
    (hfin : core'.phase = .awaitFin) :
    ∃ bodies : List (List UInt8),
      bytes = bodies.flatMap (recordBytes .body) ++ endRecord ∧
      (∀ data ∈ bodies, checkLength .body data.length = .ok ()) ∧
      (∀ length ∈ core.declared, core.received + bodies.flatten.length = length.toNat) ∧
      core.received + bodies.flatten.length ≤ core.limit ∧
      (core.zeroBody = true → bodies.flatten.length = 0) := by
  induction hn : bytes.length using Nat.strongRecOn generalizing core bytes out with
  | ind n ih =>
  obtain ⟨header, rest, rfl, hthen⟩ := run_first_header (.inr hphase) hdecoder hrun hfin
  unfold announce at hthen
  rcases Core.onHeader_cases (behind core header) header with ⟨error, hon⟩ | ⟨hawait, -, -⟩ |
    ⟨-, hkind, hcheck, hon⟩ | ⟨-, hkind, hcheck, hon⟩
  · rw [hon] at hthen
    cases hthen
  · cases hphase.symm.trans hawait
  · -- one more body record
    rw [hon] at hthen
    rw [quiet_andThen] at hthen
    have hafter : (behind core header).decoder = .body header header.payloadLen :=
      afterHeader_of_body hkind
    by_cases hshort : rest.length < header.payloadLen
    · have hreceiving : Receiving (behind core header) := .inr hphase
      cases rest with
      | nil =>
        cases hthen
        cases hphase.symm.trans hfin
      | cons byte rest =>
        rw [run_body hreceiving hafter (by simp) (le_of_lt hshort)] at hthen
        cases hthen
        cases hphase.symm.trans hfin
    · obtain ⟨data, rest', rfl, hdata⟩ : ∃ data rest', rest = data ++ rest' ∧
          data.length = header.payloadLen := by
        refine ⟨_, _, (take_append_drop header.payloadLen rest).symm, ?_⟩
        rw [length_take]
        omega
      have hrecord : run profile.absorb core (header.encode ++ data) = _ :=
        run_record_body hphase hdecoder hkind hdata hcheck
      rw [← append_assoc, run_append, hrecord, andThen_ok] at hrun
      obtain ⟨hzero, -, -, -⟩ := Core.checkBodyRecord_eq_ok.1 hcheck
      have hlen : checkLength .body data.length = .ok () := by
        rw [hdata, ← hkind]
        exact header.checked
      have hlt : rest'.length < n := by
        rw [← hn]
        simp only [length_append, length_encode, recordHeaderLen]
        omega
      have hresult := congrArg Outcome.result hrun
      obtain ⟨bodies, hbytes, hlengths, hdeclared, hlimit, hnone⟩ :=
        @ih rest'.length hlt _ rest' _ (run_sound hs hrecord) hphase hdecoder
          (Outcome.ext rfl hresult) rfl
      refine ⟨data :: bodies, ?_, ?_, ?_, ?_, ?_⟩
      · rw [hbytes, flatMap_cons, ← hkind, recordBytes_eq header hdata]
        simp
      · exact forall_mem_cons.2 ⟨hlen, hlengths⟩
      · intro length hlength
        have hsum : core.received + data.length + bodies.flatten.length = length.toNat :=
          hdeclared length hlength
        simp only [flatten_cons, length_append]
        omega
      · simp only [flatten_cons, length_append]
        have : core.received + data.length + bodies.flatten.length ≤ core.limit := hlimit
        omega
      · intro hyes
        cases hyes.symm.trans hzero
  · -- the end record
    rw [hon] at hthen
    obtain ⟨first, core₁, last, hfirst, hlast, -⟩ := andThen_eq_ok.1 hthen
    cases hfirst
    have hrest := run_awaitFin rfl hlast
    subst hrest
    have hend : header.encode = endRecord := by
      have hlen := header.payloadLen_of_finished hkind
      rw [endRecord_eq, RecordHeader.encode, RecordHeader.encode, hkind, hlen]
    have hdeclared := Core.checkEnd_eq_ok.1 hcheck
    refine ⟨[], ?_, forall_mem_nil _, hdeclared, ?_, fun _ => rfl⟩
    · rw [hend]
      simp
    · rw [hs.limit]
      exact hs.received

theorem spells_of_run (hrun : run profile.absorb profile.new bytes = ⟨out, .ok core'⟩)
    (hfin : core'.phase = .awaitFin) :
    ∃ payload head bodies, profile.Spells bytes payload head bodies := by
  have hs := new_sound profile
  have hphase : profile.new.phase = .awaitHead := rfl
  obtain ⟨header, rest, rfl, hthen⟩ := run_first_header (.inl hphase) rfl hrun hfin
  unfold announce at hthen
  rcases Core.onHeader_cases (behind profile.new header) header with ⟨error, hon⟩ |
    ⟨-, hkind, hon⟩ | ⟨hbody, -, -, -⟩ | ⟨hbody, -, -, -⟩
  · rw [hon] at hthen
    cases hthen
  · have hkind : header.kind = profile.direction.headKind := hkind
    rw [hon] at hthen
    rw [quiet_andThen] at hthen
    by_cases hshort : rest.length < header.payloadLen
    · have hreceiving : Receiving (behind profile.new header) := .inl hphase
      rw [run_head_short hreceiving (afterHeader_of_headKind hkind) (by simpa using hshort)]
        at hthen
      cases hthen
      cases hfin
    · obtain ⟨payload, rest', rfl, hpayload⟩ : ∃ payload rest', rest = payload ++ rest' ∧
          payload.length = header.payloadLen := by
        refine ⟨_, _, (take_append_drop header.payloadLen rest).symm, ?_⟩
        rw [length_take]
        omega
      have hrecord : run profile.absorb profile.new (header.encode ++ payload) = _ :=
        run_record_head rfl rfl hkind hpayload
      rw [← append_assoc, run_append, hrecord] at hrun
      rcases deliver_cases hs rfl rfl payload with ⟨error, hdeliver, -⟩ |
        ⟨head, hparse, hdeliver, hs'⟩
      · rw [hdeliver] at hrun
        cases hrun
      · rw [hdeliver, andThen_ok] at hrun
        have hresult := congrArg Outcome.result hrun
        obtain ⟨bodies, hbytes, hlengths, hdeclared, hlimit, hzero⟩ :=
          bodies_of_run hs' rfl rfl (Outcome.ext rfl hresult) hfin
        refine ⟨payload, head, bodies, ?_, ?_, hlengths, hparse, ?_, ?_, hzero⟩
        · rw [hbytes, ← hkind, recordBytes_eq header hpayload, append_assoc]
        · rw [hpayload, ← hkind]
          exact header.checked
        · intro length hlength
          have hsum : 0 + bodies.flatten.length = length.toNat := hdeclared length hlength
          omega
        · have hsum : 0 + bodies.flatten.length ≤ profile.limit := hlimit
          omega
  · cases hbody
  · cases hbody

/-! ## Every call of a reader -/

variable (profile) in
/-- The readers that some calls lead to, whatever the calls answered. -/
inductive Reaches : Core → Prop
  | new : Reaches profile.new
  | read {core : Core} (h : Reaches core) (input : List UInt8) :
      Reaches (profile.read core input).2.1
  | fin {core : Core} (h : Reaches core) : Reaches core.fin.2
  | reset {core : Core} (h : Reaches core) : Reaches core.reset
  | abort {core : Core} (h : Reaches core) (error : CodecError) : Reaches (core.abort error)

/-- Past its last record, one way or the other. -/
def Over (core : Core) : Prop :=
  core.phase = .complete ∨ core.phase = .interrupted ∨ ∃ error, core.phase = .failed error

theorem read_over (h : Over core) (input : List UInt8) : (profile.read core input).2.1 = core := by
  rcases h with h | h | ⟨error, h⟩
  · by_cases hinput : input = [] <;> simp [read, Core.next, h, hinput]
  · by_cases hinput : input = [] <;> simp [read, Core.next, h, hinput]
  · simp [read, Core.next, h]

theorem Reaches.bounded_or_over (h : Reaches profile core) :
    Sound profile core ∨ (Bounded profile core ∧ Over core) := by
  have hlast {core core' : Core} (h : Sound profile core ∨ (Bounded profile core ∧ Over core))
      (hlimit : core'.limit = core.limit) (hreceived : core'.received = core.received)
      (hdeclared : core'.declared = core.declared) (hover : Over core') :
      Sound profile core' ∨ (Bounded profile core' ∧ Over core') := by
    obtain ⟨hl, hr, hd⟩ : Bounded profile core := h.elim (·.toBounded) (·.1)
    refine .inr ⟨⟨hlimit.trans hl, hreceived ▸ hr, ?_⟩, hover⟩
    rwa [hdeclared, hreceived]
  induction h with
  | new => exact .inl (new_sound profile)
  | @read core _ input ih =>
    rcases ih with hs | ⟨hbounded, hover⟩
    · have htook := read_took hs input
      generalize profile.read core input = result at htook ⊢
      obtain ⟨answer, core', rest⟩ := result
      match answer, htook with
      | .error error, ⟨_, hphase, hbounded⟩ =>
        exact .inr ⟨hbounded, .inr (.inr ⟨error, hphase⟩)⟩
      | .ok none, ⟨_, hrun⟩ => exact .inl (run_sound hs hrun)
      | .ok (some event), ⟨bytes, _, _, hrun⟩ => exact .inl (run_sound hs hrun)
    · rw [read_over hover]
      exact .inr ⟨hbounded, hover⟩
  | @fin core _ ih =>
    unfold Core.fin
    split
    · exact hlast ih rfl rfl rfl (.inl rfl)
    · exact hlast ih rfl rfl rfl (.inr (.inr ⟨_, rfl⟩))
    · exact hlast ih rfl rfl rfl (.inr (.inr ⟨_, rfl⟩))
    · next h => exact hlast ih rfl rfl rfl (.inl h)
    · next h => exact hlast ih rfl rfl rfl (.inr (.inl h))
    · next h => exact hlast ih rfl rfl rfl (.inr (.inr ⟨_, h⟩))
  | @reset core _ ih =>
    unfold Core.reset
    cases hphase : core.phase with
    | awaitHead | body | awaitFin => exact hlast ih rfl rfl rfl (.inr (.inl rfl))
    | complete => exact hlast ih rfl rfl rfl (.inl hphase)
    | interrupted => exact hlast ih rfl rfl rfl (.inr (.inl hphase))
    | failed error => exact hlast ih rfl rfl rfl (.inr (.inr ⟨error, hphase⟩))
  | @abort core _ error ih =>
    unfold Core.abort
    cases hphase : core.phase with
    | awaitHead | body | awaitFin => exact hlast ih rfl rfl rfl (.inr (.inr ⟨error, rfl⟩))
    | complete => exact hlast ih rfl rfl rfl (.inl hphase)
    | interrupted => exact hlast ih rfl rfl rfl (.inr (.inl hphase))
    | failed error' => exact hlast ih rfl rfl rfl (.inr (.inr ⟨error', hphase⟩))

theorem Reaches.bounded (h : Reaches profile core) : Bounded profile core :=
  h.bounded_or_over.elim (·.toBounded) (·.1)

/-! ## Complete directions -/

theorem fin_eq_ok : core.fin.1 = .ok () ↔ core.phase = .awaitFin := by
  unfold Core.fin
  cases core.phase <;> simp

/-- The pieces were read without an error and the end of the stream completed the direction;
the events are those of `symbols`. -/
def Completes (profile : Profile H) (chunks : List (List UInt8)) (symbols : List (Symbol H)) :
    Prop :=
  ∃ out core, profile.feedAll chunks = ⟨out, .ok core⟩ ∧ out.flatMap Event.symbols = symbols ∧
    core.fin.1 = .ok () ∧ core.fin.2.phase = .complete

theorem completes_iff_run (chunks : List (List UInt8)) (symbols : List (Symbol H)) :
    Completes profile chunks symbols ↔
      ∃ core', run profile.absorb profile.new chunks.flatten = ⟨symbols, .ok core'⟩ ∧
        core'.phase = .awaitFin := by
  have hexpand := feedAll_expand profile chunks
  constructor
  · rintro ⟨out, core', hfeed, rfl, hfin, -⟩
    rw [hfeed] at hexpand
    exact ⟨core', hexpand.symm, fin_eq_ok.1 hfin⟩
  · rintro ⟨core', hrun, hphase⟩
    rw [hrun] at hexpand
    have hresult := congrArg Outcome.result hexpand
    exact ⟨(profile.feedAll chunks).out, core', Outcome.ext rfl hresult,
      congrArg Outcome.out hexpand, fin_eq_ok.2 hphase, by simp [Core.fin, hphase]⟩

/-- A direction completes exactly on the streams of the grammar, with their events. -/
theorem completes_iff (chunks : List (List UInt8)) (symbols : List (Symbol H)) :
    Completes profile chunks symbols ↔
      ∃ payload head bodies, profile.Spells chunks.flatten payload head bodies ∧
        symbols = .head head :: (bodies.flatten.map .octet ++ [.finished]) := by
  rw [completes_iff_run]
  constructor
  · rintro ⟨core', hrun, hphase⟩
    obtain ⟨payload, head, bodies, hspells⟩ := spells_of_run hrun hphase
    obtain ⟨core₁, hrun', -⟩ := run_spells hspells
    rw [hrun'] at hrun
    exact ⟨payload, head, bodies, hspells, (congrArg Outcome.out hrun).symm⟩
  · rintro ⟨payload, head, bodies, hspells, rfl⟩
    exact run_spells hspells

/-- What a reader is for: it does not depend on how the stream is cut, completes exactly on
the streams of the grammar, and never counts more than the limit or the declared length. -/
structure Exact (profile : Profile H) : Prop where
  split : ∀ chunks chunks' : List (List UInt8), chunks.flatten = chunks'.flatten →
    (profile.feedAll chunks).out.flatMap Event.symbols
        = (profile.feedAll chunks').out.flatMap Event.symbols ∧
      (profile.feedAll chunks).result = (profile.feedAll chunks').result
  complete : ∀ (chunks : List (List UInt8)) (symbols : List (Symbol H)),
    Completes profile chunks symbols ↔
      ∃ payload head bodies, profile.Spells chunks.flatten payload head bodies ∧
        symbols = .head head :: (bodies.flatten.map .octet ++ [.finished])
  bounded : ∀ core, Reaches profile core →
    core.received ≤ profile.limit ∧ ∀ length ∈ core.declared, core.received ≤ length.toNat

theorem isExact (profile : Profile H) : Exact profile where
  split chunks chunks' h := by
    have hexpand := feedAll_expand profile chunks
    rw [h, ← feedAll_expand profile chunks'] at hexpand
    have hresult := congrArg Outcome.result hexpand
    exact ⟨congrArg Outcome.out hexpand, hresult⟩
  complete := completes_iff
  bounded core h := ⟨h.bounded.received, h.bounded.declared⟩

end Profile

/-- The readers of both directions, under every policy. -/
theorem readers_exact :
    (∀ policy : RequestPolicy, (RequestReader.profile policy).Exact) ∧
      ∀ (policy : ResponsePolicy) (requestMethod : Method),
        (ResponseReader.profile policy requestMethod).Exact :=
  ⟨fun _ => Profile.isExact _, fun _ _ => Profile.isExact _⟩

end AgentUplink.Http
