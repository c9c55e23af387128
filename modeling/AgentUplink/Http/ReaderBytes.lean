import AgentUplink.Http.Reader

/-!
# The reader byte by byte

`absorb` takes one byte at a time and never looks at where the input was cut. A call of
`read` takes some bytes off the input and does what `absorb` does with them, so that every
way of cutting a stream gives the same events, octet by octet, and the same first error.
-/

open Machine Incremental Incremental.Outcome Fallible

namespace AgentUplink.Http

open List

/-- What a reader yields, with body data taken apart. -/
inductive Symbol (H : Type)
  | head (head : H)
  | octet (byte : UInt8)
  | finished

def Event.symbols {H : Type} : Event H → List (Symbol H)
  | .head h => [.head h]
  | .body data => data.map .octet
  | .finished => [.finished]

/-! ## What a header can do -/

namespace Core

theorem checkBodyRecord_eq_ok {core : Core} {header : RecordHeader} :
    core.checkBodyRecord header = .ok () ↔ core.zeroBody = false ∧
      core.received + header.payloadLen < wordBound ∧
      (∀ length ∈ core.declared, core.received + header.payloadLen ≤ length.toNat) ∧
      core.received + header.payloadLen ≤ core.limit := by
  unfold checkBodyRecord
  cases core.zeroBody with
  | true => simp
  | false =>
    unfold checkedAdd
    by_cases hword : core.received + header.payloadLen < wordBound
    · simp only [Bool.false_eq_true, if_false, hword, if_true, true_and]
      rw [ite_error_eq_ok, ite_error_ok]
      simp [Option.any_eq_true]
    · simp [hword]

theorem checkEnd_eq_ok {core : Core} :
    core.checkEnd = .ok () ↔ ∀ length ∈ core.declared, core.received = length.toNat := by
  unfold checkEnd
  cases core.declared with
  | none => simp
  | some length =>
    rw [ite_error_eq_ok, ite_error_ok]
    simp only [Option.mem_some_iff, forall_eq', and_true]
    omega

theorem onHeader_cases (core : Core) (header : RecordHeader) :
    (∃ error, core.onHeader header = (.error error, core.fail error)) ∨
    (core.phase = .awaitHead ∧ header.kind = core.direction.headKind ∧
      core.onHeader header = (.ok none, core)) ∨
    (core.phase = .body ∧ header.kind = .body ∧ core.checkBodyRecord header = .ok () ∧
      core.onHeader header = (.ok none, core)) ∨
    (core.phase = .body ∧ header.kind = .finished ∧ core.checkEnd = .ok () ∧
      core.onHeader header = (.ok (some .finished), { core with phase := .awaitFin })) := by
  unfold onHeader
  split_ifs with hwrong
  · exact .inl ⟨_, rfl⟩
  · split
    · exact .inl ⟨_, rfl⟩
    · exact .inl ⟨_, rfl⟩
    · next hphase hbody hfinished =>
      refine .inr (.inl ⟨hphase, ?_, rfl⟩)
      by_contra hne
      refine hwrong ⟨?_, hne⟩
      cases hkind : header.kind with
      | requestHead => exact .inl rfl
      | responseHead => exact .inr rfl
      | body => exact absurd hkind hbody
      | finished => exact absurd hkind hfinished
    · next hphase hkind =>
      split
      · next hcheck => exact .inr (.inr (.inl ⟨hphase, hkind, hcheck, rfl⟩))
      · exact .inl ⟨_, rfl⟩
    · next hphase hkind =>
      split
      · next hcheck => exact .inr (.inr (.inr ⟨hphase, hkind, hcheck, rfl⟩))
      · exact .inl ⟨_, rfl⟩
    · exact .inl ⟨_, rfl⟩
    · exact .inl ⟨_, rfl⟩

theorem acceptHead_cases (core : Core) (declared : Option UInt64) (zeroBody : Bool) :
    (∃ error, (∃ length ∈ declared, core.limit < length.toNat) ∧
      core.acceptHead declared zeroBody = (.error error, core.fail error)) ∨
    ((∀ length ∈ declared, length.toNat ≤ core.limit) ∧
      core.acceptHead declared zeroBody
        = (.ok (), { core with declared, zeroBody, phase := .body })) := by
  unfold acceptHead
  split_ifs with hlarge
  · refine .inl ⟨_, ?_, rfl⟩
    simpa [Option.any_eq_true] using hlarge
  · refine .inr ⟨?_, rfl⟩
    simpa [Option.any_eq_true] using hlarge

end Core

namespace Profile

variable {H : Type} (profile : Profile H)

section

variable (core : Core)

/-- The payload of a head is complete. -/
def deliver (payload : List UInt8) : Outcome (Symbol H) CodecError Core :=
  match profile.parseHead payload with
  | .error error => ⟨[], .error error⟩
  | .ok head =>
    match core.acceptHead (profile.bodyLength head) (profile.zeroBody head) with
    | (.error error, _) => ⟨[], .error error⟩
    | (.ok (), core) => ⟨[.head head], .ok core⟩

def behind (header : RecordHeader) : Core :=
  { core with decoder := RecordDecoder.afterHeader header }

def announce (header : RecordHeader) : Outcome (Symbol H) CodecError Core :=
  match (behind core header).onHeader header with
  | (.error error, _) => ⟨[], .error error⟩
  | (.ok none, core) => quiet core
  | (.ok (some _), core) => ⟨[.finished], .ok core⟩

def readHeader (bytes : List UInt8) : Outcome (Symbol H) CodecError Core :=
  match RecordHeader.decode bytes with
  | .error error => ⟨[], .error error⟩
  | .ok header => announce core header

def absorb (byte : UInt8) : Outcome (Symbol H) CodecError Core :=
  match core.phase with
  | .failed error => ⟨[], .error error⟩
  | .complete | .interrupted => ⟨[], .error .afterTerminal⟩
  | .awaitFin => ⟨[], .error (core.afterEnd byte)⟩
  | .awaitHead | .body =>
    match core.decoder with
    | .failed error => ⟨[], .error error⟩
    | .header buf =>
      if buf.length + 1 < recordHeaderLen then
        quiet { core with decoder := .header (buf ++ [byte]) }
      else readHeader core (buf ++ [byte])
    | .head header buf =>
      if buf.length + 1 < header.payloadLen then
        quiet { core with decoder := .head header (buf ++ [byte]) }
      else profile.deliver { core with decoder := .header [] } (buf ++ [byte])
    | .body header remaining =>
      ⟨[.octet byte], .ok { core with
        received := core.received + 1
        decoder := if remaining = 1 then .header [] else .body header (remaining - 1) }⟩

/-! ## What a reader keeps -/

def Receiving : Prop := core.phase = .awaitHead ∨ core.phase = .body

end

/-- The counters are within what the policy and the head allow. -/
structure Bounded (core : Core) : Prop where
  limit : core.limit = profile.limit
  received : core.received ≤ profile.limit
  declared : ∀ length ∈ core.declared, core.received ≤ length.toNat

/-- What the decoder holds is an unfinished part of a record that may come now. -/
def Held (core : Core) : DecoderState → Prop
  | .header buf => buf.length < recordHeaderLen
  | .head header buf => buf.length < header.payloadLen ∧ core.phase = .awaitHead
  | .body _ remaining => 0 < remaining ∧ core.phase = .body ∧ core.zeroBody = false ∧
      core.received + remaining ≤ core.limit ∧
      ∀ length ∈ core.declared, core.received + remaining ≤ length.toNat
  | .failed _ => False

structure Sound (core : Core) : Prop extends Bounded profile core where
  direction : core.direction = profile.direction
  phase : Receiving core ∨ core.phase = .awaitFin
  held : Held core core.decoder
  fresh : core.phase = .awaitHead → core.received = 0 ∧ core.declared = none
  zero : core.zeroBody = true → core.received = 0

theorem new_sound : Sound profile profile.new where
  limit := rfl
  received := Nat.zero_le _
  declared := by
    intro length h
    cases h
  direction := rfl
  phase := .inl (.inl rfl)
  held := Nat.zero_lt_succ 7
  fresh := fun _ => ⟨rfl, rfl⟩
  zero := fun _ => rfl

variable {profile} {core : Core}

/-! ## One byte -/

variable {buf bytes : List UInt8} {remaining fuel : Nat} {header : RecordHeader}

theorem absorb_header (h : Receiving core) (hdecoder : core.decoder = .header buf) (byte : UInt8) :
    profile.absorb core byte =
      if buf.length + 1 < recordHeaderLen then
        quiet { core with decoder := .header (buf ++ [byte]) }
      else readHeader core (buf ++ [byte]) := by
  rcases h with h | h <;> simp only [absorb, h, hdecoder]

theorem absorb_head (h : Receiving core)
    (hdecoder : core.decoder = .head header buf) (byte : UInt8) :
    profile.absorb core byte =
      if buf.length + 1 < header.payloadLen then
        quiet { core with decoder := .head header (buf ++ [byte]) }
      else profile.deliver { core with decoder := .header [] } (buf ++ [byte]) := by
  rcases h with h | h <;> simp only [absorb, h, hdecoder]

theorem absorb_body (h : Receiving core)
    (hdecoder : core.decoder = .body header remaining) (byte : UInt8) :
    profile.absorb core byte =
      ⟨[.octet byte], .ok { core with
        received := core.received + 1
        decoder := if remaining = 1 then .header [] else .body header (remaining - 1) }⟩ := by
  rcases h with h | h <;> simp only [absorb, h, hdecoder]

theorem afterHeader_of_headKind {direction : Direction} (h : header.kind = direction.headKind) :
    RecordDecoder.afterHeader header = .head header [] := by
  unfold RecordDecoder.afterHeader
  cases direction <;> rw [h] <;> rfl

theorem afterHeader_of_body (h : header.kind = .body) :
    RecordDecoder.afterHeader header = .body header header.payloadLen := by
  simp only [RecordDecoder.afterHeader, h]

theorem afterHeader_of_finished (h : header.kind = .finished) :
    RecordDecoder.afterHeader header = .header [] := by
  simp only [RecordDecoder.afterHeader, h]

theorem headKind_ne_finished (direction : Direction) : direction.headKind ≠ .finished := by
  cases direction <;> decide

section

variable (h : Sound profile core)
include h

theorem Sound.setDecoder {decoder : DecoderState}
    (hheld : Held core decoder) : Sound profile { core with decoder } :=
  ⟨⟨h.limit, h.received, h.declared⟩, h.direction, h.phase, hheld, h.fresh, h.zero⟩

theorem Sound.begun (hheader : (core.phase = .awaitHead ∧ header.kind = core.direction.headKind) ∨
      (core.phase = .body ∧ header.kind = .body ∧ core.checkBodyRecord header = .ok ())) :
    Sound profile (behind core header) := by
  refine h.setDecoder ?_
  rcases hheader with ⟨hphase, hkind⟩ | ⟨hphase, hkind, hcheck⟩
  · have hpos : 0 < header.payloadLen := by
      refine header.payloadLen_pos ?_
      rw [hkind]
      exact headKind_ne_finished _
    rw [afterHeader_of_headKind hkind]
    exact ⟨hpos, hphase⟩
  · obtain ⟨hzero, -, hdeclared, hlimit⟩ := Core.checkBodyRecord_eq_ok.1 hcheck
    have hpos : 0 < header.payloadLen := header.payloadLen_pos (by rw [hkind]; decide)
    rw [afterHeader_of_body hkind]
    exact ⟨hpos, hphase, hzero, hlimit, hdeclared⟩

theorem Sound.ended (hkind : header.kind = .finished) :
    Sound profile { behind core header with phase := .awaitFin } := by
  refine ⟨⟨h.limit, h.received, h.declared⟩, h.direction, .inr rfl, ?_, nofun, h.zero⟩
  show Held _ (RecordDecoder.afterHeader header)
  rw [afterHeader_of_finished hkind]
  exact Nat.zero_lt_succ 7

theorem announce_cases (header : RecordHeader) :
    (∃ error, announce core header = (⟨[], .error error⟩ : Outcome (Symbol H) CodecError Core) ∧
      (behind core header).onHeader header = (.error error, (behind core header).fail error)) ∨
    (Sound profile (behind core header) ∧
      announce core header = (quiet (behind core header) : Outcome (Symbol H) CodecError Core) ∧
      (behind core header).onHeader header = (.ok none, behind core header)) ∨
    (Sound profile { behind core header with phase := .awaitFin } ∧
      announce core header = (⟨[.finished], .ok { behind core header with phase := .awaitFin }⟩ :
        Outcome (Symbol H) CodecError Core) ∧
      (behind core header).onHeader header
        = (.ok (some .finished), { behind core header with phase := .awaitFin })) := by
  unfold announce
  rcases Core.onHeader_cases (behind core header) header with ⟨error, hon⟩ |
    ⟨hphase, hkind, hon⟩ | ⟨hphase, hkind, hcheck, hon⟩ | ⟨-, hkind, -, hon⟩
  · exact .inl ⟨error, by rw [hon], hon⟩
  · exact .inr (.inl ⟨h.begun (.inl ⟨hphase, hkind⟩), by rw [hon], hon⟩)
  · exact .inr (.inl ⟨h.begun (.inr ⟨hphase, hkind, hcheck⟩), by rw [hon], hon⟩)
  · exact .inr (.inr ⟨h.ended hkind, by rw [hon], hon⟩)

theorem deliver_cases (hphase : core.phase = .awaitHead)
    (hdecoder : core.decoder = .header []) (payload : List UInt8) :
    (∃ error, profile.deliver core payload = ⟨[], .error error⟩ ∧
      ∀ head, profile.parseHead payload = .ok head →
        ∃ length ∈ profile.bodyLength head, profile.limit < length.toNat) ∨
    (∃ head, profile.parseHead payload = .ok head ∧
      profile.deliver core payload = ⟨[.head head], .ok
        { core with
          declared := profile.bodyLength head
          zeroBody := profile.zeroBody head
          phase := .body }⟩ ∧
      Sound profile { core with
        declared := profile.bodyLength head
        zeroBody := profile.zeroBody head
        phase := .body }) := by
  unfold deliver
  cases hparse : profile.parseHead payload with
  | error error => exact .inl ⟨error, rfl, nofun⟩
  | ok head =>
    dsimp only
    rcases core.acceptHead_cases (profile.bodyLength head) (profile.zeroBody head) with
      ⟨error, hlarge, haccept⟩ | ⟨-, haccept⟩
    · rw [h.limit] at hlarge
      refine .inl ⟨error, by rw [haccept], fun head' hhead => ?_⟩
      cases hhead
      exact hlarge
    · obtain ⟨hreceived, -⟩ := h.fresh hphase
      refine .inr ⟨head, rfl, by rw [haccept], ?_⟩
      refine ⟨⟨h.limit, h.received, fun length _ => ?_⟩, h.direction, .inl (.inr rfl), ?_, nofun,
        fun _ => hreceived⟩
      · rw [hreceived]
        exact Nat.zero_le _
      · rw [hdecoder]
        exact Nat.zero_lt_succ 7

end

variable {input : List UInt8} {n : Nat} {out : List (Symbol H)} {core' : Core}

theorem Sound.wordBound (h : Sound profile core) (hn : n ≤ core.limit) : n < wordBound := by
  have hbounded := profile.bounded
  have hlimit := h.limit
  have hmax : maxBodyLimit < Machine.wordBound := by decide
  omega

theorem Sound.octets (h : Sound profile core)
    (hdecoder : core.decoder = .body header remaining) (hn : n ≤ remaining) :
    Sound profile { core with
      received := core.received + n
      decoder := if n = remaining then .header [] else .body header (remaining - n) } := by
  have hheld := h.held
  rw [hdecoder] at hheld
  obtain ⟨hpos, hphase, hzero, hlimit, hdeclared⟩ := hheld
  refine ⟨⟨h.limit, ?_, fun length hlength => ?_⟩, h.direction, h.phase, ?_, ?_, ?_⟩
  · have := h.limit
    show core.received + n ≤ _
    omega
  · have := hdeclared length hlength
    show core.received + n ≤ _
    omega
  · split_ifs with hdone
    · exact Nat.zero_lt_succ 7
    · refine ⟨by omega, hphase, hzero, ?_, fun length hlength => ?_⟩
      · show core.received + n + (remaining - n) ≤ core.limit
        omega
      · have := hdeclared length hlength
        show core.received + n + (remaining - n) ≤ _
        omega
  · intro hawait
    cases hphase.symm.trans hawait
  · intro hyes
    cases hzero.symm.trans hyes

theorem absorb_sound {byte : UInt8} (h : Sound profile core)
    (habsorb : profile.absorb core byte = ⟨out, .ok core'⟩) : Sound profile core' := by
  rcases h.phase with hreceiving | hfin
  · have hheld := h.held
    cases hdecoder : core.decoder with
    | failed error =>
      rw [hdecoder] at hheld
      exact hheld.elim
    | header buf =>
      rw [absorb_header hreceiving hdecoder] at habsorb
      split_ifs at habsorb with hshort
      · cases habsorb
        refine h.setDecoder ?_
        show (buf ++ [byte]).length < recordHeaderLen
        simpa using hshort
      · unfold readHeader at habsorb
        split at habsorb
        · cases habsorb
        · next header _ =>
          rcases announce_cases h header with ⟨error, ha, -⟩ | ⟨hs, ha, -⟩ | ⟨hs, ha, -⟩
          · cases ha.symm.trans habsorb
          · cases ha.symm.trans habsorb
            exact hs
          · cases ha.symm.trans habsorb
            exact hs
    | head header buf =>
      rw [hdecoder] at hheld
      obtain ⟨hlen, hphase⟩ := hheld
      rw [absorb_head hreceiving hdecoder] at habsorb
      split_ifs at habsorb with hshort
      · cases habsorb
        refine h.setDecoder ⟨?_, hphase⟩
        simpa using hshort
      · have hidle : Sound profile { core with decoder := .header [] } :=
          h.setDecoder (Nat.zero_lt_succ 7)
        rcases deliver_cases hidle hphase rfl (buf ++ [byte]) with ⟨error, hd, -⟩ |
          ⟨head, -, hd, hs⟩
        · cases hd.symm.trans habsorb
        · cases hd.symm.trans habsorb
          exact hs
    | body header remaining =>
      have hpos : 0 < remaining := by
        rw [hdecoder] at hheld
        exact hheld.1
      rw [absorb_body hreceiving hdecoder] at habsorb
      have hs := h.octets hdecoder hpos
      cases habsorb
      have hswap : (if 1 = remaining then DecoderState.header []
          else .body header (remaining - 1))
          = if remaining = 1 then .header [] else .body header (remaining - 1) := by
        simp only [eq_comm]
      rwa [hswap] at hs
  · rw [absorb, hfin] at habsorb
    cases habsorb

/-! ## Whole parts of a record -/

theorem setDecoder_self {decoder : DecoderState} (h : core.decoder = decoder) :
    { core with decoder } = core := by
  rw [← h]

section

variable (h : Receiving core)
include h

theorem Receiving.setDecoder (decoder : DecoderState) : Receiving { core with decoder } := h

theorem run_header_short (hdecoder : core.decoder = .header buf)
    (hlen : buf.length + bytes.length < recordHeaderLen) :
    run profile.absorb core bytes = quiet { core with decoder := .header (buf ++ bytes) } := by
  rw [← setDecoder_self hdecoder]
  refine run_fill_short (f := fun buf => { core with decoder := .header buf }) ?_ hlen
  intro buf byte hbuf
  rw [absorb_header (h.setDecoder _) rfl, if_pos hbuf]

/-- A header that is complete is announced, if it can be decoded. -/
theorem run_header_full (hdecoder : core.decoder = .header buf)
    (hbuf : buf.length < recordHeaderLen) (hlen : buf.length + bytes.length = recordHeaderLen) :
    run profile.absorb core bytes = readHeader core (buf ++ bytes) := by
  rw [← setDecoder_self hdecoder]
  refine run_fill_full (f := fun buf => { core with decoder := .header buf })
    (g := readHeader core) ?_ ?_ hbuf hlen
  · intro buf byte hbuf
    rw [absorb_header (h.setDecoder _) rfl, if_pos hbuf]
  · intro buf byte hbuf
    rw [absorb_header (h.setDecoder _) rfl, if_neg (by omega)]
    rfl

theorem run_head_short (hdecoder : core.decoder = .head header buf)
    (hlen : buf.length + bytes.length < header.payloadLen) :
    run profile.absorb core bytes = quiet { core with decoder := .head header (buf ++ bytes) } := by
  rw [← setDecoder_self hdecoder]
  refine run_fill_short (f := fun buf => { core with decoder := .head header buf }) ?_ hlen
  intro buf byte hbuf
  rw [absorb_head (h.setDecoder _) rfl, if_pos hbuf]

theorem run_head_full (hdecoder : core.decoder = .head header buf)
    (hbuf : buf.length < header.payloadLen) (hlen : buf.length + bytes.length = header.payloadLen) :
    run profile.absorb core bytes
      = profile.deliver { core with decoder := .header [] } (buf ++ bytes) := by
  rw [← setDecoder_self hdecoder]
  refine run_fill_full (f := fun buf => { core with decoder := .head header buf })
    (g := profile.deliver { core with decoder := .header [] }) ?_ ?_ hbuf hlen
  · intro buf byte hbuf
    rw [absorb_head (h.setDecoder _) rfl, if_pos hbuf]
  · intro buf byte hbuf
    rw [absorb_head (h.setDecoder _) rfl, if_neg (by omega)]

theorem run_body {data : List UInt8}
    (hdecoder : core.decoder = .body header remaining) (hpos : 0 < data.length)
    (hlen : data.length ≤ remaining) :
    run profile.absorb core data
      = ⟨data.map .octet, .ok { core with
          received := core.received + data.length
          decoder := if data.length = remaining then .header []
            else .body header (remaining - data.length) }⟩ := by
  induction data generalizing core remaining with
  | nil => cases hpos
  | cons byte data ih =>
    rw [length_cons] at hlen
    rw [run_cons, absorb_body h hdecoder, andThen_ok]
    cases data with
    | nil =>
      simp only [run_nil, quiet, map_cons, map_nil, append_nil, length_cons,
        length_nil, zero_add, eq_comm]
    | cons byte' data =>
      have hmore : remaining ≠ 1 := by
        rw [length_cons] at hlen
        omega
      rw [if_neg hmore, ih (by exact h) rfl (Nat.succ_pos _) (by omega)]
      have hif : ((byte' :: data).length = remaining - 1)
          = ((byte :: byte' :: data).length = remaining) := by
        simp only [length_cons, eq_iff_iff]
        omega
      have hsub : remaining - 1 - (byte' :: data).length
          = remaining - (byte :: byte' :: data).length := by
        simp only [length_cons]
        omega
      have hsum : core.received + 1 + (byte' :: data).length
          = core.received + (byte :: byte' :: data).length := by
        simp only [length_cons]
        omega
      simp only [hif, hsub, hsum]
      rfl

end

/-! ## One call -/

variable (profile) in
/-- The call refused the input with `error`, at one of its bytes. -/
def Refused (core : Core) (input : List UInt8) (error : CodecError) (core' : Core) : Prop :=
  (∃ bytes rest, input = bytes ++ rest ∧ run profile.absorb core bytes = ⟨[], .error error⟩) ∧
    core'.phase = .failed error ∧ Bounded profile core'

variable (profile) in
/-- What a call did, in terms of the bytes it took off the input; `yields` says what an answer
stands for. -/
def TookAs {α : Type} (yields : α → Core → Outcome (Symbol H) CodecError Core → Prop)
    (core : Core) (input : List UInt8) : Except CodecError (Option α) × Core × List UInt8 → Prop
  | (.error error, core', _) => Refused profile core input error core'
  | (.ok none, core', rest) => rest = [] ∧ run profile.absorb core input = quiet core'
  | (.ok (some answer), core', rest) =>
    ∃ bytes, bytes ≠ [] ∧ input = bytes ++ rest ∧
      yields answer core' (run profile.absorb core bytes)

variable (profile) in
def Yields : Raw → Core → Outcome (Symbol H) CodecError Core → Prop
  | .head payload, core', o => o = profile.deliver core' payload ∧ Sound profile core'
  | .body data, core', o => o = ⟨data.map .octet, .ok core'⟩
  | .finished, core', o => o = ⟨[.finished], .ok core'⟩

variable (profile) in
abbrev Took := TookAs profile (Yields profile)

theorem Took.after {core₁ : Core} {result : Except CodecError (Option Raw) × Core × List UInt8}
    (hquiet : run profile.absorb core bytes = quiet core₁) (h : Took profile core₁ input result) :
    Took profile core (bytes ++ input) result := by
  obtain ⟨answer, core', rest⟩ := result
  have hrun : ∀ more, run profile.absorb core (bytes ++ more) = run profile.absorb core₁ more := by
    intro more
    rw [run_append, hquiet, quiet_andThen]
  match answer, h with
  | .error error, ⟨⟨taken, left, hinput, hrefused⟩, hkept⟩ =>
    refine ⟨⟨bytes ++ taken, left, by rw [hinput, append_assoc], ?_⟩, hkept⟩
    rw [hrun, hrefused]
  | .ok none, ⟨hrest, hall⟩ => exact ⟨hrest, by rw [hrun, hall]⟩
  | .ok (some raw), ⟨taken, hne, hinput, htaken⟩ =>
    refine ⟨bytes ++ taken, by simp [hne], by rw [hinput, append_assoc], ?_⟩
    rwa [hrun]

theorem Sound.fail_bounded (h : Sound profile core) (decoder : DecoderState) (error : CodecError) :
    Bounded profile (({ core with decoder } : Core).fail error) :=
  ⟨h.limit, h.received, h.declared⟩

/-- A buffer of `n` bytes takes all of the input, or is filled by the first bytes of it. -/
theorem fill_cases {n : Nat} (hbuf : buf.length < n) (input : List UInt8) :
    (buf.length + input.length < n ∧
        input.take (min (n - buf.length) input.length) = input ∧
        input.drop (min (n - buf.length) input.length) = []) ∨
      ∃ bytes rest, input = bytes ++ rest ∧ bytes ≠ [] ∧ buf.length + bytes.length = n ∧
        input.take (min (n - buf.length) input.length) = bytes ∧
        input.drop (min (n - buf.length) input.length) = rest := by
  by_cases hshort : buf.length + input.length < n
  · rw [min_eq_right (by omega)]
    exact .inl ⟨hshort, take_length, drop_length⟩
  · rw [min_eq_left (by omega)]
    have hlen : (input.take (n - buf.length)).length = n - buf.length :=
      length_take_of_le (by omega)
    exact .inr ⟨_, _, (take_append_drop _ input).symm,
      length_pos_iff.1 (by omega), by omega, rfl, rfl⟩

section

variable (h : Sound profile core)
include h

theorem nextFor_nil_took (fuel : Nat) : Took profile core [] (Core.nextFor (fuel + 1) core []) := by
  have hheld := h.held
  cases hdecoder : core.decoder with
  | failed error =>
    rw [hdecoder] at hheld
    exact hheld.elim
  | header buf | head header buf | body header remaining =>
    simp only [Core.nextFor, hdecoder, RecordDecoder.decode, if_true]
    exact ⟨rfl, by rw [setDecoder_self hdecoder]; rfl⟩

section

variable (hreceiving : Receiving core)
include hreceiving

theorem nextFor_header_took (hdecoder : core.decoder = .header buf) (hinput : input ≠ [])
    (ih : ∀ core' input', Sound profile core' → Receiving core' → input'.length < input.length →
      Took profile core' input' (Core.nextFor fuel core' input')) :
    Took profile core input (Core.nextFor (fuel + 1) core input) := by
  have hbuf : buf.length < recordHeaderLen := by
    have hheld := h.held
    rwa [hdecoder] at hheld
  simp only [Core.nextFor, hdecoder, RecordDecoder.decode, if_neg hinput]
  rcases fill_cases hbuf input with ⟨hshort, htake, hdrop⟩ |
    ⟨bytes, rest, hsplit, hne, hlen, htake, hdrop⟩
  · rw [htake, hdrop, if_pos (by rwa [length_append])]
    exact ⟨rfl, run_header_short hreceiving hdecoder hshort⟩
  · have hrun : run profile.absorb core bytes = _ := run_header_full hreceiving hdecoder hbuf hlen
    rw [htake, hdrop, if_neg (by rw [length_append]; omega)]
    cases hdecode : RecordHeader.decode (buf ++ bytes) with
    | error error =>
      rw [readHeader, hdecode] at hrun
      exact ⟨⟨bytes, rest, hsplit, hrun⟩, rfl, h.fail_bounded core.decoder error⟩
    | ok header =>
      rw [readHeader, hdecode] at hrun
      dsimp only at hrun ⊢
      rw [show ({ core with decoder := RecordDecoder.afterHeader header } : Core)
        = behind core header from rfl]
      rcases announce_cases h header with ⟨error, ha, hon⟩ | ⟨hs, ha, hon⟩ | ⟨hs, ha, hon⟩
      · rw [hon]
        exact ⟨⟨bytes, rest, hsplit, by rw [hrun, ha]⟩, rfl, h.fail_bounded _ error⟩
      · have hrest : rest.length < input.length := by
          rw [hsplit, length_append]
          omega
        rw [hon, hsplit]
        exact (ih _ rest hs hreceiving hrest).after (by rw [hrun, ha])
      · rw [hon]
        exact ⟨bytes, hne, hsplit, hrun.trans ha⟩

theorem nextFor_head_took (hdecoder : core.decoder = .head header buf)
    (hinput : input ≠ []) : Took profile core input (Core.nextFor (fuel + 1) core input) := by
  have hheld := h.held
  rw [hdecoder] at hheld
  have hbuf := hheld.1
  simp only [Core.nextFor, hdecoder, RecordDecoder.decode, if_neg hinput]
  rcases fill_cases hbuf input with ⟨hshort, htake, hdrop⟩ |
    ⟨bytes, rest, hsplit, hne, hlen, htake, hdrop⟩
  · rw [htake, hdrop, if_pos (by rwa [length_append])]
    exact ⟨rfl, run_head_short hreceiving hdecoder hshort⟩
  · rw [htake, hdrop, if_neg (by rw [length_append]; omega)]
    exact ⟨bytes, hne, hsplit, run_head_full hreceiving hdecoder hbuf hlen,
      h.setDecoder (Nat.zero_lt_succ 7)⟩

theorem nextFor_body_took (hdecoder : core.decoder = .body header remaining)
    (hinput : input ≠ []) : Took profile core input (Core.nextFor (fuel + 1) core input) := by
  have hheld := h.held
  rw [hdecoder] at hheld
  obtain ⟨hpos, -, -, hlimit, -⟩ := hheld
  have hinput' : 0 < input.length := length_pos_iff.2 hinput
  have hsplit := (take_append_drop (min remaining input.length) input).symm
  have hdata : (input.take (min remaining input.length)).length = min remaining input.length := by
    rw [length_take]
    omega
  simp only [Core.nextFor, hdecoder, RecordDecoder.decode, if_neg hinput]
  generalize input.take (min remaining input.length) = data at hsplit hdata ⊢
  generalize input.drop (min remaining input.length) = rest at hsplit ⊢
  have hrun : run profile.absorb core data = _ := run_body hreceiving hdecoder (by omega) (by omega)
  have hadd : checkedAdd core.received data.length = some (core.received + data.length) :=
    checkedAdd_of_lt (h.wordBound (by omega))
  have hdone : (remaining - data.length = 0) = (data.length = remaining) := by
    rw [eq_iff_iff]
    omega
  simp only [hadd, ← hdata, hdone]
  refine ⟨data, ?_, hsplit, hrun⟩
  intro hnil
  rw [hnil, length_nil] at hdata
  omega

theorem nextFor_took (hfuel : input.length < fuel) :
    Took profile core input (Core.nextFor fuel core input) := by
  induction fuel generalizing core input with
  | zero => exact absurd hfuel (Nat.not_lt_zero _)
  | succ fuel ih =>
    by_cases hinput : input = []
    · subst hinput
      exact nextFor_nil_took h fuel
    cases hdecoder : core.decoder with
    | failed error =>
      have hheld := h.held
      rw [hdecoder] at hheld
      exact hheld.elim
    | header buf =>
      refine nextFor_header_took h hreceiving hdecoder hinput ?_
      intro core' input' hs hr hlen
      exact ih hs hr (by omega)
    | head header buf => exact nextFor_head_took h hreceiving hdecoder hinput
    | body header remaining => exact nextFor_body_took h hreceiving hdecoder hinput

end

theorem next_took (input : List UInt8) : Took profile core input (core.next input) := by
  rcases h.phase with hreceiving | hfin
  · have hnext : core.next input = Core.nextFor (input.length + 1) core input := by
      rcases hreceiving with hphase | hphase <;> simp only [Core.next, hphase]
    rw [hnext]
    exact nextFor_took h hreceiving (Nat.lt_succ_self _)
  · cases input with
    | nil =>
      simp only [Core.next, hfin]
      exact ⟨rfl, rfl⟩
    | cons byte rest =>
      simp only [Core.next, hfin]
      refine ⟨⟨[byte], rest, rfl, ?_⟩, rfl, h.fail_bounded core.decoder _⟩
      rw [run_singleton, absorb, hfin]

end

variable (profile) in
abbrev TookEvent := TookAs profile fun (event : Event H) core' o => o = ⟨event.symbols, .ok core'⟩

section

variable (h : Sound profile core)
include h

theorem read_took (input : List UInt8) :
    TookEvent profile core input (profile.read core input) := by
  have htook := next_took h input
  unfold read
  generalize core.next input = result at htook ⊢
  obtain ⟨answer, core', rest⟩ := result
  match answer, htook with
  | .error error, htook => exact htook
  | .ok none, htook => exact htook
  | .ok (some (.body data)), htook => exact htook
  | .ok (some .finished), htook => exact htook
  | .ok (some (.head payload)), ⟨bytes, hne, hinput, hrun, hs⟩ =>
    dsimp only
    unfold deliver at hrun
    cases hparse : profile.parseHead payload with
    | error error =>
      rw [hparse] at hrun
      exact ⟨⟨bytes, rest, hinput, hrun⟩, rfl, hs.fail_bounded core'.decoder error⟩
    | ok head =>
      rw [hparse] at hrun
      dsimp only at hrun ⊢
      rcases core'.acceptHead_cases (profile.bodyLength head) (profile.zeroBody head) with
        ⟨error, -, haccept⟩ | ⟨-, haccept⟩
      · rw [haccept] at hrun ⊢
        exact ⟨⟨bytes, rest, hinput, hrun⟩, rfl, hs.fail_bounded core'.decoder error⟩
      · rw [haccept] at hrun ⊢
        exact ⟨bytes, hne, hinput, hrun⟩

/-! ## Whole streams -/

theorem run_sound (hrun : run profile.absorb core bytes = ⟨out, .ok core'⟩) : Sound profile core' :=
  run_keeps (fun _ _ _ _ hs habsorb => absorb_sound hs habsorb) h hrun

theorem drain_expand (hfuel : input.length < fuel) :
    (profile.drain fuel core input).expand Event.symbols = run profile.absorb core input := by
  induction fuel generalizing core input with
  | zero => exact absurd hfuel (Nat.not_lt_zero _)
  | succ fuel ih =>
    have htook := read_took h input
    rw [drain]
    generalize profile.read core input = result at htook ⊢
    obtain ⟨answer, core', rest⟩ := result
    match answer, htook with
    | .error error, ⟨⟨bytes, left, hinput, hrun⟩, _⟩ =>
      rw [hinput, run_append, hrun]
      rfl
    | .ok none, ⟨_, hrun⟩ =>
      rw [hrun]
      rfl
    | .ok (some event), ⟨bytes, hne, hinput, hrun⟩ =>
      have hpos : 0 < bytes.length := length_pos_iff.2 hne
      have hrest : rest.length < fuel := by
        rw [hinput, length_append] at hfuel
        omega
      rw [expand_andThen, hinput, run_append, hrun]
      have hih := ih (run_sound h hrun) hrest
      simp only [expand, flatMap_cons, flatMap_nil, append_nil, andThen_ok] at hih ⊢
      rw [← hih]

theorem run_feed_expand (chunks : List (List UInt8)) :
    (run profile.feed core chunks).expand Event.symbols
      = run profile.absorb core chunks.flatten := by
  induction chunks generalizing core with
  | nil => rfl
  | cons chunk chunks ih =>
    have hfeed : (profile.feed core chunk).expand Event.symbols = run profile.absorb core chunk :=
      drain_expand h (Nat.lt_succ_self _)
    rw [run_cons, expand_andThen, hfeed, flatten_cons, run_append]
    cases hrun : run profile.absorb core chunk with
    | mk out result =>
      cases result with
      | error error => rfl
      | ok core' =>
        rw [andThen_ok, andThen_ok, ih (run_sound h hrun)]

end

theorem feedAll_expand (profile : Profile H) (chunks : List (List UInt8)) :
    (profile.feedAll chunks).expand Event.symbols
      = run profile.absorb profile.new chunks.flatten :=
  run_feed_expand (new_sound profile) chunks

end Profile

end AgentUplink.Http
