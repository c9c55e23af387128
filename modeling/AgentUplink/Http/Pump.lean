import AgentUplink.Http.HeadRoundTrip
import AgentUplink.Http.ReaderGrammar
import AgentUplink.Lib.Weakest

/-!
# Sending a local body

The pump cuts the frames of a local body into records and puts them into the queue of its
direction. Other tasks of the exchange run whenever it waits.
-/

open Fallible Machine Incremental

namespace AgentUplink.Http

open List RecordHeader

inductive HttpErrorCode
  | badRecord
  | invalidHead
  | bodyLimit
  | lengthMismatch
  | unsupportedFeature
  | streamInterrupted
  | cancelled
  | deadlineExceeded

inductive ProgressKind
  | firstHead
  | record
  | creditStall
  | finAfterEnd

inductive PumpError
  | stopped
  | source (code : HttpErrorCode)
  | sink (code : HttpErrorCode)
  | progress (kind : ProgressKind)

inductive SendError
  | closed
  | terminated

def SendError.toPumpError : SendError → PumpError
  | closed => .sink .streamInterrupted
  | terminated => .stopped

inductive SenderState
  | opened
  | fin
  | reset
  deriving DecidableEq

inductive Frame
  | data (bytes : List UInt8)
  | fin
  | reset

/-- What happens elsewhere while the pump waits: the direction is reset, the receiver is gone,
the exchange is stopped, or the stall budget is spent. -/
structure Turn where
  reset : Bool
  closed : Bool
  stop : Bool
  expired : Bool

structure FrameSender where
  capacity : Nat
  positive : 0 < capacity
  state : SenderState
  queue : List Frame
  /-- What is still to happen elsewhere; nothing, once the list is used up. -/
  turns : List Turn

namespace FrameSender

variable (sender : FrameSender)

def reset : FrameSender :=
  if sender.state = .reset then sender
  else { sender with state := .reset, queue := sender.queue ++ [.reset] }

def push (frame : Frame) : FrameSender := { sender with queue := sender.queue ++ [frame] }

def turned : FrameSender :=
  match sender.turns with
  | [] => sender
  | turn :: turns => { (if turn.reset then sender.reset else sender) with turns }

end FrameSender

abbrev Pump := EStateM PumpError FrameSender

/-- The other tasks run. -/
def turn : Pump Turn :=
  modifyGet fun sender => (sender.turns.headD ⟨false, false, false, false⟩, sender.turned)

/-- Wait, unless the exchange is stopped first. -/
def wait : Pump Turn := do
  let next ← turn
  failIf next.stop .stopped
  return next

def requireOpen : Pump Unit := do
  let sender ← get
  failIf (sender.state ≠ .opened) SendError.terminated.toPumpError

/-- Queue a frame, unless the receiver is gone. -/
def enqueue (frame : Frame) : Pump Unit := do
  let next ← turn
  failIf next.closed SendError.closed.toPumpError
  modify fun sender => sender.push frame

/-- One round of the loop of `send_data`. `send` gives the wait for credit up when the
exchange is stopped or the stall budget is spent. -/
def sendPiece (chunk : List UInt8) : Pump Unit := do
  requireOpen
  let next ← wait
  failIf next.expired (.progress .creditStall)
  requireOpen
  enqueue (.data chunk)

/-- `rest`, `size` bytes at a time. -/
def split (size : Nat) : Nat → List UInt8 → List (List UInt8)
  | 0, _ => []
  | fuel + 1, rest =>
    if rest = [] then [] else rest.take size :: split size fuel (rest.drop size)

def pieces (size : Nat) (data : List UInt8) : List (List UInt8) := split size data.length data

def send (data : List UInt8) : Pump Unit := do
  let sender ← get
  (pieces sender.capacity data).forM sendPiece

def finish : Pump Unit := do
  let _ ← turn
  requireOpen
  modify fun sender => { sender with state := .fin }
  enqueue .fin

def sendBodyRecord (payload : List UInt8) : Pump Unit := do
  let len := min payload.length (2 ^ 32 - 1)
  let header ← check ((RecordHeader.new .body len).mapError fun _ => .source .badRecord)
  send header.encode
  send payload

def sendBodyRecords (data : List UInt8) : Pump Unit :=
  (pieces maxBodyPayloadLen data).forM sendBodyRecord

/-- A frame of a local body. -/
inductive BodyFrame
  | data (bytes : List UInt8)
  | trailers (fields : List HeaderField)

/-- The loop of `pump_body`: each poll of the body gives a frame or an error. -/
def pumpFrames (declared : Option UInt64) (limit : Nat) :
    Nat → List (Except Unit BodyFrame) → Pump Nat
  | sent, frames => do
    let _ ← wait
    match frames with
    | [] => return sent
    | .error _ :: _ => throw (.source .streamInterrupted)
    | .ok (.trailers fields) :: frames => do
      failIf (fields ≠ []) (.source .unsupportedFeature)
      pumpFrames declared limit sent frames
    | .ok (.data []) :: frames => pumpFrames declared limit sent frames
    | .ok (.data data) :: frames => do
      let total ← orFail (checkedAdd sent data.length) (.source .bodyLimit)
      failIf (declared.any fun length => total > length.toNat) (.source .lengthMismatch)
      failIf (total > limit) (.source .bodyLimit)
      sendBodyRecords data
      pumpFrames declared limit total frames

def pumpBody (frames : List (Except Unit BodyFrame)) (declared : Option UInt64) (limit : Nat) :
    Pump Unit := do
  let sent ← pumpFrames declared limit 0 frames
  failIf (declared.any fun length => length.toNat ≠ sent) (.source .lengthMismatch)
  send endRecord
  finish

/-! ## Pieces -/

theorem flatten_pieces {size : Nat} (h : 0 < size) (data : List UInt8) :
    (pieces size data).flatten = data := by
  have hsplit : ∀ fuel (rest : List UInt8), rest.length ≤ fuel →
      (split size fuel rest).flatten = rest := by
    intro fuel
    induction fuel with
    | zero =>
      intro rest hrest
      exact (length_eq_zero_iff.1 (Nat.le_zero.1 hrest)).symm
    | succ fuel ih =>
      intro rest hrest
      unfold split
      split_ifs with hnil
      · exact hnil.symm
      · rw [flatten_cons, ih _ (by rw [length_drop]; omega), take_append_drop]
  exact hsplit _ _ (le_refl _)

theorem checkLength_of_mem_pieces {data piece : List UInt8}
    (h : piece ∈ pieces maxBodyPayloadLen data) : checkLength .body piece.length = .ok () := by
  have hsplit : ∀ fuel (rest : List UInt8), piece ∈ split maxBodyPayloadLen fuel rest →
      checkLength .body piece.length = .ok () := by
    intro fuel
    induction fuel with
    | zero => exact fun rest h => nomatch h
    | succ fuel ih =>
      intro rest h
      unfold split at h
      split_ifs at h with hnil
      · cases h
      · rcases mem_cons.1 h with rfl | h
        · have hpos := length_pos_iff.2 hnil
          have hmax : 0 < maxBodyPayloadLen := by decide
          rw [length_take, checkLength, if_neg (by omega), if_neg (by omega)]
        · exact ih _ h
  exact hsplit _ _ h

/-! ## What is queued -/

def Frame.payload : Frame → List UInt8
  | data bytes => bytes
  | _ => []

/-- From `s` to `t` the bytes were queued, with a FIN only if `ended`. -/
def Queued (ended : Prop) (bytes : List UInt8) (s t : FrameSender) : Prop :=
  ∃ added, t.queue = s.queue ++ added ∧ added.flatMap Frame.payload = bytes ∧ (.fin ∈ added ↔ ended)

variable {s t u : FrameSender} {bytes bytes' : List UInt8} {ended : Prop}

theorem Queued.refl (s : FrameSender) : Queued False [] s s := ⟨[], by simp, rfl, by simp⟩

theorem Queued.trans (h : Queued False bytes s t) (h' : Queued ended bytes' t u) :
    Queued ended (bytes ++ bytes') s u := by
  obtain ⟨added, hqueue, rfl, hfin⟩ := h
  obtain ⟨added', hqueue', rfl, hfin'⟩ := h'
  refine ⟨added ++ added', ?_, ?_, ?_⟩
  · rw [hqueue', hqueue, append_assoc]
  · rw [flatMap_append]
  · simp [hfin, hfin']

theorem queued_turned (s : FrameSender) : Queued False [] s s.turned := by
  unfold FrameSender.turned FrameSender.reset
  cases s.turns with
  | nil => exact .refl s
  | cons turn turns =>
    dsimp only
    split_ifs
    · exact .refl s
    · exact ⟨[.reset], rfl, rfl, by simp⟩
    · exact .refl s

/-- The bytes `x` queues when it returns. A send never fails for its source. -/
def Sends {α : Type} (ended : Prop) (bytes : List UInt8) (x : Pump α) : Prop :=
  ∀ s, wp x s (fun _ t => Queued ended bytes s t) fun e _ => ∀ code, e ≠ .source code

section

variable {α β : Type} {x : Pump α}

theorem Sends.bind {f : α → Pump β} (h : Sends False bytes x) (hf : ∀ a, Sends ended bytes' (f a)) :
    Sends ended (bytes ++ bytes') (x >>= f) := by
  intro s
  rw [wp_bind]
  refine wp_mono (h s) (fun a t ht => ?_) fun _ _ he => he
  exact wp_mono (hf a t) (fun _ _ hu => ht.trans hu) fun _ _ he => he

theorem Sends.after {f : α → Pump β} (h : Sends False [] x) (hf : ∀ a, Sends ended bytes (f a)) :
    Sends ended bytes (x >>= f) :=
  h.bind hf

theorem sends_failIf {c : Prop} [Decidable c] {e : PumpError} (h : ∀ code, e ≠ .source code) :
    Sends False [] (failIf c e) := by
  intro s
  rw [wp_failIf]
  exact ⟨fun _ => h, fun _ => .refl s⟩

theorem sends_turn : Sends False [] turn := queued_turned

theorem sends_wait : Sends False [] wait :=
  .after sends_turn fun _ => .after (sends_failIf nofun) fun _ s => .refl s

theorem sends_requireOpen : Sends False [] requireOpen :=
  .after (fun s => .refl s) fun _ => sends_failIf nofun

theorem sends_enqueue (frame : Frame) : Sends (frame = .fin) frame.payload (enqueue frame) :=
  .after sends_turn fun _ => .after (sends_failIf nofun) fun _ _ =>
    ⟨[frame], rfl, append_nil _, by simp [eq_comm]⟩

theorem sends_piece (chunk : List UInt8) : Sends False chunk (sendPiece chunk) := by
  have h := sends_enqueue (.data chunk)
  rw [eq_false (nofun : Frame.data chunk ≠ .fin)] at h
  exact .after sends_requireOpen fun _ => .after sends_wait fun _ =>
    .after (sends_failIf nofun) fun _ => .after sends_requireOpen fun _ => h

theorem sends_forM {ι : Type} {items : List ι} {f : ι → Pump PUnit} {g : ι → List UInt8}
    (h : ∀ i ∈ items, Sends False (g i) (f i)) :
    Sends False (items.flatMap g) (items.forM f) := by
  induction items with
  | nil => exact .refl
  | cons i items ih =>
    have hi := h i (mem_cons_self ..)
    exact hi.bind fun _ => ih fun j hj => h j (mem_cons_of_mem i hj)

theorem sends_send (data : List UInt8) : Sends False data (send data) := by
  intro s
  have h := sends_forM fun piece (_ : piece ∈ pieces s.capacity data) => sends_piece piece
  rw [flatMap_id', flatten_pieces s.positive] at h
  exact h s

theorem sends_finish : Sends True [] finish := by
  have h := sends_enqueue .fin
  rw [eq_self] at h
  exact .after sends_turn fun _ => .after sends_requireOpen fun _ =>
    .after (fun s => .refl s) fun _ => h

end

theorem sends_bodyRecord {payload : List UInt8} (h : checkLength .body payload.length = .ok ()) :
    Sends False (recordBytes .body payload) (sendBodyRecord payload) := by
  have hlen := payloadLen_le ⟨.body, payload.length, h⟩
  simp only [maxRecordLen] at hlen
  have hmin : min payload.length (2 ^ 32 - 1) = payload.length := min_eq_left (by omega)
  have hnew : RecordHeader.new .body payload.length = .ok ⟨.body, payload.length, h⟩ :=
    new_eq_ok.2 ⟨rfl, rfl⟩
  unfold sendBodyRecord
  dsimp only
  rw [hmin, hnew, recordBytes_eq ⟨.body, payload.length, h⟩ rfl]
  exact (sends_send _).bind fun _ => sends_send payload

/-! ## What is pumped -/

section

variable (declared : Option UInt64) (limit sent : Nat)

def Fits : Prop := sent ≤ limit ∧ ∀ length ∈ declared, sent ≤ length.toNat

/-- The records queued from `s` to `t`, after `sent` bytes of the body. -/
structure Pumped (bodies : List (List UInt8)) (s t : FrameSender) : Prop where
  queued : Queued False (bodies.flatMap (recordBytes .body)) s t
  lengths : ∀ data ∈ bodies, checkLength .body data.length = .ok ()
  fits : Fits declared limit (sent + bodies.flatten.length)

/-- `x` pumps `data`; if the source fails, it has queued whole records and no FIN. -/
def Pumps (data : List UInt8) (s : FrameSender) (x : Pump Nat) : Prop :=
  wp x s (fun total t => ∃ bodies, Pumped declared limit sent bodies s t ∧
      bodies.flatten = data ∧ total = sent + data.length)
    fun e t => ∀ code, e = .source code → ∃ bodies, Pumped declared limit sent bodies s t

end

variable {declared : Option UInt64} {limit sent : Nat} {bodies : List (List UInt8)}
  {data : List UInt8} {α : Type}

theorem Pumped.nil (h : Fits declared limit sent) (s : FrameSender) :
    Pumped declared limit sent [] s s :=
  ⟨.refl s, nofun, h⟩

theorem Pumped.cons {first : List (List UInt8)}
    (hqueued : Queued False (first.flatMap (recordBytes .body)) s t)
    (hlengths : ∀ data ∈ first, checkLength .body data.length = .ok ())
    (h : Pumped declared limit (sent + first.flatten.length) bodies t u) :
    Pumped declared limit sent (first ++ bodies) s u where
  queued := by
    rw [flatMap_append]
    exact hqueued.trans h.queued
  lengths := forall_mem_append.2 ⟨hlengths, h.lengths⟩
  fits := by
    rw [flatten_append, length_append, ← add_assoc]
    exact h.fits

theorem Pumps.bind (first : List (List UInt8)) {rest : List UInt8} {x : Pump α} {f : α → Pump Nat}
    (hx : Sends False (first.flatMap (recordBytes .body)) x)
    (hlengths : ∀ data ∈ first, checkLength .body data.length = .ok ())
    (hdata : first.flatten ++ rest = data)
    (hf : ∀ a t, Pumps declared limit (sent + first.flatten.length) rest t (f a)) :
    Pumps declared limit sent data s (x >>= f) := by
  subst hdata
  unfold Pumps
  rw [wp_bind]
  refine wp_mono (hx s) (fun a t ht => ?_) fun e _ he code hcode => absurd hcode (he code)
  refine wp_mono (hf a t) ?_ fun e u he code hcode => ?_
  · rintro total u ⟨bodies, hbodies, rfl, rfl⟩
    exact ⟨first ++ bodies, hbodies.cons ht hlengths, flatten_append,
      by rw [length_append, add_assoc]⟩
  · obtain ⟨bodies, hbodies⟩ := he code hcode
    exact ⟨first ++ bodies, hbodies.cons ht hlengths⟩

theorem Pumps.failIf {c : Prop} [Decidable c] {e : PumpError} {f : Unit → Pump Nat}
    (h : Fits declared limit sent) (hf : ¬ c → Pumps declared limit sent data s (f ())) :
    Pumps declared limit sent data s (Fallible.failIf c e >>= f) := by
  unfold Pumps
  rw [wp_bind, wp_failIf]
  exact ⟨fun _ _ _ => ⟨[], .nil h s⟩, hf⟩

section

variable (frames : List (Except Unit BodyFrame))

def dataOf : List UInt8 :=
  frames.flatMap fun
    | .ok (.data data) => data
    | _ => []

theorem pumps_pumpFrames (h : Fits declared limit sent) (s : FrameSender) :
    Pumps declared limit sent (dataOf frames) s (pumpFrames declared limit sent frames) := by
  induction frames generalizing sent s with
  | nil => exact .bind [] sends_wait nofun rfl fun _ t => ⟨[], .nil h t, rfl, rfl⟩
  | cons frame frames ih =>
    unfold pumpFrames
    refine .bind [] sends_wait nofun (nil_append _) fun _ t => ?_
    match frame with
    | .error _ => exact fun _ _ => ⟨[], .nil h t⟩
    | .ok (.trailers fields) => exact .failIf h fun _ => ih h t
    | .ok (.data []) => exact ih h t
    | .ok (.data (byte :: bytes)) =>
      have hsize : 0 < maxBodyPayloadLen := by decide
      have hflat := flatten_pieces hsize (byte :: bytes)
      unfold Pumps
      rw [wp_bind, wp_orFail]
      refine ⟨fun _ _ _ => ⟨[], .nil h t⟩, fun total htotal => ?_⟩
      obtain ⟨-, rfl⟩ := checkedAdd_eq_some.1 htotal
      refine Pumps.failIf h fun hdeclared => .failIf h fun hlimit =>
        .bind _ (sends_forM fun _ hpiece => sends_bodyRecord (checkLength_of_mem_pieces hpiece))
          (fun _ => checkLength_of_mem_pieces)
          (congrArg (· ++ dataOf frames) hflat) fun _ u => ?_
      · rw [hflat]
        refine ih ⟨not_lt.1 hlimit, fun length hlength => not_lt.1 fun hlt => ?_⟩ u
        exact hdeclared ((Option.any_eq_true _ _).2 ⟨length, hlength, decide_eq_true hlt⟩)

theorem wp_pumpBody (s : FrameSender) :
    wp (pumpBody frames declared limit) s
      (fun _ u => ∃ bodies t, Pumped declared limit 0 bodies s t ∧ Queued True endRecord t u ∧
        bodies.flatten = dataOf frames ∧ ∀ length ∈ declared, (dataOf frames).length = length.toNat)
      fun e t => ∀ code, e = .source code → ∃ bodies, Pumped declared limit 0 bodies s t := by
  have hlast : Sends True endRecord (send endRecord >>= fun _ => finish) :=
    (sends_send endRecord).bind fun _ => sends_finish
  unfold pumpBody
  rw [wp_bind]
  refine wp_mono (pumps_pumpFrames frames ⟨Nat.zero_le _, fun _ _ => Nat.zero_le _⟩ s) ?_
    fun e t he => he
  rintro total t ⟨bodies, hbodies, hdata, rfl⟩
  rw [wp_bind, wp_failIf]
  refine ⟨fun _ _ _ => ⟨bodies, hbodies⟩, fun hdeclared => ?_⟩
  refine wp_mono (hlast t) (fun _ u hu => ?_) fun e _ he code hcode => absurd hcode (he code)
  refine ⟨bodies, t, hbodies, hu, hdata, fun length hlength => ?_⟩
  by_contra hne
  exact hdeclared ((Option.any_eq_true _ _).2 ⟨length, hlength, decide_eq_true (by omega)⟩)

end

/-! ## What the reader makes of it -/

/-- The record of a head that the reader takes. -/
structure Profile.Opens {H : Type} (profile : Profile H) (record : List UInt8) (head : H) :
    Prop where
  payload : ∃ payload, record = recordBytes profile.direction.headKind payload ∧
    checkLength profile.direction.headKind payload.length = .ok () ∧
    profile.parseHead payload = .ok head
  zeroBody : profile.zeroBody head = true → profile.bodyLength head = some 0

namespace Profile

variable {H : Type} {profile : Profile H} {record : List UInt8} {head : H}

theorem Opens.zero (h : profile.Opens record head) {n : Nat}
    (hn : ∀ length ∈ profile.bodyLength head, n ≤ length.toNat)
    (hzero : profile.zeroBody head = true) : n = 0 :=
  Nat.le_zero.1 (hn 0 (h.zeroBody hzero))

/-- Without the end record no end is reported. -/
theorem Opens.unfinished (h : profile.Opens record head)
    (hpumped : Pumped (profile.bodyLength head) profile.limit 0 bodies s t) :
    .finished ∉ (run profile.absorb profile.new
      (record ++ bodies.flatMap (recordBytes .body))).out := by
  obtain ⟨payload, rfl, hlength, hparse⟩ := h.payload
  have hfits := hpumped.fits
  rw [run_append, run_head_record hlength]
  rcases deliver_cases (new_sound profile) rfl rfl payload with ⟨error, hdeliver, -⟩ |
    ⟨head', hparse', hdeliver, hs⟩
  · rw [hdeliver]
    simp
  · cases hparse.symm.trans hparse'
    have hzero := h.zero (Nat.zero_add _ ▸ hfits.2)
    rw [hdeliver, Outcome.andThen_ok, run_records hs rfl rfl hpumped.lengths hfits.2 hfits.1 hzero]
    simp

theorem not_completes_of_unfinished {bytes : List UInt8} {chunks : List (List UInt8)}
    (h : .finished ∉ (run profile.absorb profile.new bytes).out)
    (hchunks : chunks.flatten <+: bytes) :
    .finished ∉ (profile.feedAll chunks).out ∧ ∀ symbols, ¬ Completes profile chunks symbols := by
  obtain ⟨rest, rfl⟩ := hchunks
  have hread : .finished ∉ (run profile.absorb profile.new chunks.flatten).out := by
    intro hmem
    rw [run_append] at h
    unfold Outcome.andThen at h
    split at h
    · exact h (mem_append_left _ hmem)
    · exact h hmem
  constructor
  · intro hmem
    rw [← feedAll_expand] at hread
    exact hread (mem_flatMap.2 ⟨.finished, hmem, mem_singleton.2 rfl⟩)
  · intro symbols hcompletes
    obtain ⟨core, hrun, -⟩ := (completes_iff_run _ _).1 hcompletes
    obtain ⟨_, _, _, -, rfl⟩ := (completes_iff _ _).1 hcompletes
    rw [hrun] at hread
    simp at hread

/-- The reader gets the head, the data and the end if the pump succeeds, however the bytes are
cut. If the source fails, whole body records are queued and the reader reports no end. -/
structure Transparent (profile : Profile H) (record : List UInt8) (head : H) : Prop where
  delivers : ∀ (frames : List (Except Unit BodyFrame)) (s t : FrameSender),
    (pumpBody frames (profile.bodyLength head) profile.limit).run s = .ok () t →
    ∃ added, t.queue = s.queue ++ added ∧ .fin ∈ added ∧ ∀ chunks : List (List UInt8),
      chunks.flatten = record ++ added.flatMap Frame.payload →
        Completes profile chunks (.head head :: ((dataOf frames).map .octet ++ [.finished]))
  withholds : ∀ (frames : List (Except Unit BodyFrame)) (s t : FrameSender) (code : HttpErrorCode),
    (pumpBody frames (profile.bodyLength head) profile.limit).run s = .error (.source code) t →
    ∃ (added : List Frame) (bodies : List (List UInt8)), t.queue = s.queue ++ added ∧ .fin ∉ added ∧
      added.flatMap Frame.payload = bodies.flatMap (recordBytes .body) ∧
      (∀ data ∈ bodies, checkLength .body data.length = .ok ()) ∧ ∀ chunks : List (List UInt8),
        chunks.flatten <+: record ++ added.flatMap Frame.payload →
          .finished ∉ (profile.feedAll chunks).out ∧ ∀ symbols, ¬ Completes profile chunks symbols

theorem Opens.transparent (h : profile.Opens record head) : Transparent profile record head where
  delivers frames s u hrun := by
    obtain ⟨bodies, t, hpumped, hend, hdata, hdeclared⟩ := wp_of_ok (wp_pumpBody frames s) hrun
    obtain ⟨added, hqueue, hbytes, hfin⟩ := hpumped.queued.trans hend
    obtain ⟨payload, rfl, hlength, hparse⟩ := h.payload
    refine ⟨added, hqueue, hfin.2 trivial, fun chunks hchunks => ?_⟩
    rw [hbytes] at hchunks
    rw [← hdata] at hdeclared ⊢
    refine (completes_iff _ _).2 ⟨payload, head, bodies, ?_, rfl⟩
    exact
      { records := hchunks
        headLength := hlength
        bodyLengths := hpumped.lengths
        parses := hparse
        declared := hdeclared
        limit := (zero_add _).ge.trans hpumped.fits.1
        zeroBody := h.zero fun length hlength => (hdeclared length hlength).le }
  withholds frames s t code hrun := by
    obtain ⟨bodies, hpumped⟩ := wp_of_error (wp_pumpBody frames s) hrun code rfl
    obtain ⟨added, hqueue, hbytes, hfin⟩ := hpumped.queued
    refine ⟨added, bodies, hqueue, hfin.1, hbytes, hpumped.lengths, fun chunks hchunks => ?_⟩
    rw [hbytes] at hchunks
    exact not_completes_of_unfinished (h.unfinished hpumped) hchunks

end Profile

theorem encodeHead_eq_ok {H : Type} [DecidableEq H] {kind : RecordKind} {json : H → String}
    {parse : List UInt8 → Except CodecError H} {head : H} {record : List UInt8}
    (h : encodeHead kind json parse head [] = .ok record) :
    ∃ payload, record = recordBytes kind payload ∧ checkLength kind payload.length = .ok () ∧
      parse payload = .ok head := by
  unfold encodeHead encodeRecord at h
  simp only [ite_error_eq_ok, except_bind_eq_ok, not_not] at h
  obtain ⟨-, _, hparse, rfl, -, header, hnew, hrecord⟩ := h
  obtain ⟨rfl, hlen⟩ := new_eq_ok.1 hnew
  cases hrecord
  refine ⟨_, (header.recordBytes_eq hlen.symm).symm, ?_, hparse⟩
  rw [← hlen]
  exact header.checked

theorem zeroBody_of_parse {payload : List UInt8} {policy : ResponsePolicy} {requestMethod : Method}
    {head : ResponseHead} (h : parseResponseHead payload policy requestMethod = .ok head)
    (hzero : requiresZeroBody requestMethod head.status = true) : head.bodyLength = some 0 := by
  unfold parseResponseHead at h
  simp only [except_bind_eq_ok] at h
  obtain ⟨value, -, fields, -, h⟩ := h
  split at h
  · split at h
    · simp only [except_bind_eq_ok, ite_error_ok] at h
      obtain ⟨_, -, _, -, _, -, _, -, hbody, rfl⟩ := h
      exact by_contra fun hne => hbody ⟨hzero, hne⟩
    · cases h
  · cases h

/-- A body goes through the bridge unchanged, in both directions and under every policy. -/
theorem body_transport_transparent :
    (∀ (policy : RequestPolicy) (head : RequestHead) (record : List UInt8),
      encodeRequestHead head policy [] = .ok record →
        (RequestReader.profile policy).Transparent record head) ∧
    ∀ (policy : ResponsePolicy) (requestMethod : Method) (head : ResponseHead)
      (record : List UInt8), encodeResponseHead head policy requestMethod [] = .ok record →
        (ResponseReader.profile policy requestMethod).Transparent record head := by
  constructor
  · intro policy head record h
    exact Profile.Opens.transparent ⟨encodeHead_eq_ok h, nofun⟩
  · intro policy requestMethod head record h
    have hopens := encodeHead_eq_ok h
    obtain ⟨payload, -, -, hparse⟩ := hopens
    exact Profile.Opens.transparent ⟨encodeHead_eq_ok h, zeroBody_of_parse hparse⟩

/-- A sender whose frames hold four bytes, with nothing happening elsewhere. -/
def idleSender : FrameSender := ⟨4, by decide, .opened, [], []⟩

/-- A page of three bytes in two frames arrives; one whose source fails after the first frame
does not end. -/
theorem body_transport_transparent_page :
    ∃ record, encodeResponseHead pageHead pagePolicy .get [] = .ok record ∧
      (∃ t, (pumpBody [.ok (.data [65]), .ok (.data [66, 67])] (some 3) 1024).run idleSender =
          .ok () t ∧
        (ResponseReader.profile pagePolicy .get).Completes
          [record, t.queue.flatMap Frame.payload]
          [.head pageHead, .octet 65, .octet 66, .octet 67, .finished]) ∧
      ∃ t, (pumpBody [.ok (.data [65]), .error ()] (some 3) 1024).run idleSender =
          .error (.source .streamInterrupted) t ∧ t.queue ≠ [] ∧
        ∀ symbols, ¬ (ResponseReader.profile pagePolicy .get).Completes
          [record, t.queue.flatMap Frame.payload] symbols := by
  have hok : (encodeResponseHead pageHead pagePolicy .get []).map (fun _ => ()) = .ok () := by
    decide +kernel
  obtain ⟨record, h, -⟩ := except_map_eq_ok.1 hok
  obtain ⟨t, ht⟩ : ∃ t, (pumpBody [.ok (.data [65]), .ok (.data [66, 67])] (some 3) 1024).run
      idleSender = .ok () t := ⟨_, rfl⟩
  obtain ⟨u, hu, hsent⟩ : ∃ u, (pumpBody [.ok (.data [65]), .error ()] (some 3) 1024).run
      idleSender = .error (.source .streamInterrupted) u ∧ u.queue ≠ [] :=
    ⟨_, rfl, cons_ne_nil _ _⟩
  have htransparent := body_transport_transparent.2 _ _ _ _ h
  refine ⟨record, h, ⟨t, ht, ?_⟩, u, hu, hsent, ?_⟩
  · obtain ⟨added, hqueue, -, hchunks⟩ := htransparent.delivers _ _ _ ht
    exact hchunks _ (by simp [hqueue, idleSender])
  · obtain ⟨added, -, hqueue, -, -, -, hchunks⟩ := htransparent.withholds _ _ _ _ hu
    exact (hchunks _ ⟨[], by simp [hqueue, idleSender]⟩).2

end AgentUplink.Http
