import AgentUplink.Lib.Bytes
import AgentUplink.Lib.Reader
import AgentUplink.NineP.Message

/-!
# The primitive fields of a 9P message

Every integer is little-endian. A text is a 16-bit byte count and that many bytes of
UTF-8; a qid is thirteen bytes. Each reader takes its field from the front of a message
body, and is the inverse of the writer of the same name.
-/

open Bytes Reader

namespace AgentUplink.NineP

open Utf8

/-- The fixed header of a message: `size[4] type[1] tag[2]`. -/
def headerLen : Nat := 7

def maxWalkNames : Nat := 16

namespace QidKind

def bits : QidKind → UInt8
  | file => 0x00
  | directory => 0x80
  | symlink => 0x02

/-- Every bit outside the profile is refused. -/
def fromBits (bits : UInt8) : Except CodecError QidKind :=
  if bits = 0x00 then .ok file
  else if bits = 0x80 then .ok directory
  else if bits = 0x02 then .ok symlink
  else .error .qidTypeNotInProfile

theorem fromBits_eq_ok {bits : UInt8} {kind : QidKind} :
    fromBits bits = .ok kind ↔ bits = kind.bits := by
  unfold fromBits
  cases kind <;> split_ifs <;> simp_all [QidKind.bits]

end QidKind

/-! ## Writing -/

namespace Writer

def u8 (value : UInt8) : List UInt8 := [value]

def u16 (value : UInt16) : List UInt8 := toLeBytes 2 value.toNat

def u32 (value : UInt32) : List UInt8 := toLeBytes 4 value.toNat

def u64 (value : UInt64) : List UInt8 := toLeBytes 8 value.toNat

def text (value : String) : List UInt8 :=
  u16 (UInt16.ofNat (bytes value).length) ++ bytes value

/-- The only failure is a text too long for its 16-bit count. -/
def string (field : StringField) (value : String) : Except CodecError (List UInt8) :=
  if (bytes value).length < 2 ^ 16 then .ok (text value) else .error (.stringTooLong field)

def qid (qid : Qid) : List UInt8 := u8 qid.kind.bits ++ u32 qid.version ++ u64 qid.path

/-- A 32-bit count and the data. A count that does not fit is written as the largest one. -/
def counted (data : List UInt8) : List UInt8 :=
  u32 (UInt32.ofNat (min data.length (2 ^ 32 - 1))) ++ data

@[simp] theorem length_u8 (value : UInt8) : (u8 value).length = 1 := rfl

@[simp] theorem length_u16 (value : UInt16) : (u16 value).length = 2 := length_toLeBytes 2 _

@[simp] theorem length_u32 (value : UInt32) : (u32 value).length = 4 := length_toLeBytes 4 _

theorem string_eq_ok {field : StringField} {value : String} {bytes : List UInt8} :
    string field value = .ok bytes ↔ (Utf8.bytes value).length < 2 ^ 16 ∧ text value = bytes := by
  unfold string
  by_cases h : (Utf8.bytes value).length < 2 ^ 16
  · rw [if_pos h, Except.ok.injEq]
    exact (and_iff_right h).symm
  · rw [if_neg h]
    exact ⟨nofun, fun hboth => absurd hboth.1 h⟩

theorem string_of_fits {field : StringField} {value : String}
    (h : (bytes value).length < 2 ^ 16) : string field value = .ok (text value) :=
  string_eq_ok.2 ⟨h, rfl⟩

end Writer

/-! ## Reading -/

namespace Reader

abbrev FieldReader := StateT (List UInt8) (Except CodecError)

def u8 : FieldReader UInt8 := (fun bytes => UInt8.ofNat (ofLeBytes bytes)) <$> take .truncatedBody 1

def u16 : FieldReader UInt16 :=
  (fun bytes => UInt16.ofNat (ofLeBytes bytes)) <$> take .truncatedBody 2

def u32 : FieldReader UInt32 :=
  (fun bytes => UInt32.ofNat (ofLeBytes bytes)) <$> take .truncatedBody 4

def u64 : FieldReader UInt64 :=
  (fun bytes => UInt64.ofNat (ofLeBytes bytes)) <$> take .truncatedBody 8

/-- Bytes that are not UTF-8 are refused, never replaced. -/
def string (field : StringField) : FieldReader String := do
  let len ← u16
  let bytes ← take .truncatedBody len.toNat
  match ofBytes? bytes with
  | some text => pure text
  | none => throw (.stringNotUtf8 field)

def qid : FieldReader Qid := do
  let kind ← QidKind.fromBits (← u8)
  let version ← u32
  let path ← u64
  return { kind, version, path }

def readCounted : FieldReader (List UInt8) := do
  let count ← u32
  let remaining ← get
  if count.toNat > remaining.length then throw .truncatedBody
  else take .truncatedBody count.toNat

/-! ## Each reader inverts its writer -/

theorem inverts_u8 : Inverts u8 Writer.u8 fun _ => True := by
  apply inverts_fixed
  · exact Writer.length_u8
  · intro a
    simp [Writer.u8, ofLeBytes, ofBytes]
  · intro l hl
    obtain ⟨b, rfl⟩ := List.length_eq_one_iff.1 hl
    simp [Writer.u8, ofLeBytes, ofBytes]

theorem inverts_word {α : Type} {width : Nat} {toNat : α → Nat} {ofNat : Nat → α}
    (hlt : ∀ a, toNat a < 256 ^ width) (hto : ∀ a, ofNat (toNat a) = a)
    (hof : ∀ n < 256 ^ width, toNat (ofNat n) = n) :
    Inverts ((fun bytes => ofNat (ofLeBytes bytes)) <$> take CodecError.truncatedBody width)
      (fun a => toLeBytes width (toNat a)) fun _ => True := by
  apply inverts_fixed
  · exact fun _ => length_toLeBytes width _
  · intro a
    rw [ofLeBytes_toLeBytes (hlt a), hto]
  · intro l hl
    rw [hof _ (hl ▸ ofLeBytes_lt l), toLeBytes_ofLeBytes hl]

theorem inverts_u16 : Inverts u16 Writer.u16 fun _ => True :=
  inverts_word UInt16.toNat_lt (fun _ => UInt16.ofNat_toNat) fun _ => UInt16.toNat_ofNat_of_lt'

theorem inverts_u32 : Inverts u32 Writer.u32 fun _ => True :=
  inverts_word UInt32.toNat_lt (fun _ => UInt32.ofNat_toNat) fun _ => UInt32.toNat_ofNat_of_lt'

theorem inverts_u64 : Inverts u64 Writer.u64 fun _ => True :=
  inverts_word UInt64.toNat_lt (fun _ => UInt64.ofNat_toNat) fun _ => UInt64.toNat_ofNat_of_lt'

section

variable {input rest : List UInt8}

@[simp] theorem u8_eq_ok {value : UInt8} :
    u8.run input = .ok (value, rest) ↔ input = Writer.u8 value ++ rest := by
  rw [inverts_u8.run_eq_ok, true_and]

@[simp] theorem u16_eq_ok {value : UInt16} :
    u16.run input = .ok (value, rest) ↔ input = Writer.u16 value ++ rest := by
  rw [inverts_u16.run_eq_ok, true_and]

@[simp] theorem u32_eq_ok {value : UInt32} :
    u32.run input = .ok (value, rest) ↔ input = Writer.u32 value ++ rest := by
  rw [inverts_u32.run_eq_ok, true_and]

@[simp] theorem u64_eq_ok {value : UInt64} :
    u64.run input = .ok (value, rest) ↔ input = Writer.u64 value ++ rest := by
  rw [inverts_u64.run_eq_ok, true_and]

@[simp] theorem string_eq_ok {field : StringField} {value : String} :
    (string field).run input = .ok (value, rest) ↔
      (bytes value).length < 2 ^ 16 ∧ input = Writer.text value ++ rest := by
  unfold string
  simp only [run_bind_eq_ok, u16_eq_ok, take_eq_ok, Writer.text]
  constructor
  · rintro ⟨len, _, rfl, bytes, _, ⟨hlen, rfl⟩, htext⟩
    cases hbytes : ofBytes? bytes with
    | none =>
      rw [hbytes] at htext
      cases htext
    | some text =>
      rw [hbytes] at htext
      cases htext
      obtain rfl := ofBytes?_eq_some.1 hbytes
      have hlt : (bytes value).length < 2 ^ 16 := by
        rw [hlen]
        exact len.toNat_lt
      refine ⟨hlt, ?_⟩
      rw [hlen, UInt16.ofNat_toNat, List.append_assoc]
  · rintro ⟨hlt, rfl⟩
    have hlen : (UInt16.ofNat (bytes value).length).toNat = (bytes value).length :=
      UInt16.toNat_ofNat_of_lt' hlt
    refine ⟨_, _, List.append_assoc _ _ _, bytes value, rest, ⟨hlen.symm, rfl⟩, ?_⟩
    rw [ofBytes?_eq_some.2 rfl]
    rfl

@[simp] theorem qid_eq_ok {value : Qid} :
    qid.run input = .ok (value, rest) ↔ input = Writer.qid value ++ rest := by
  unfold qid
  simp only [run_bind_eq_ok, u8_eq_ok, u32_eq_ok, u64_eq_ok, run_lift_eq_ok, run_pure_eq_ok,
    QidKind.fromBits_eq_ok]
  constructor
  · rintro ⟨_, _, rfl, kind, _, ⟨rfl, rfl⟩, version, _, rfl, path, _, rfl, rfl, rfl⟩
    simp [Writer.qid]
  · rintro rfl
    exact ⟨_, _, by simp [Writer.qid], value.kind, _, ⟨rfl, rfl⟩, _, _, rfl, _, _, rfl, rfl, rfl⟩

@[simp] theorem readCounted_eq_ok {data : List UInt8} :
    readCounted.run input = .ok (data, rest) ↔
      data.length < 2 ^ 32 ∧ input = Writer.counted data ++ rest := by
  unfold readCounted
  simp only [run_bind_eq_ok, u32_eq_ok, run_get_eq_ok]
  constructor
  · rintro ⟨count, _, rfl, _, _, ⟨rfl, rfl⟩, hdata⟩
    split_ifs at hdata with hcount
    · cases hdata
    · obtain ⟨hlen, rfl⟩ := take_eq_ok.1 hdata
      have hlt : data.length < 2 ^ 32 := by
        rw [hlen]
        exact count.toNat_lt
      refine ⟨hlt, ?_⟩
      rw [Writer.counted, min_eq_left (by omega), hlen, UInt32.ofNat_toNat, List.append_assoc]
  · rintro ⟨hlt, rfl⟩
    have hcount : (UInt32.ofNat (min data.length (2 ^ 32 - 1))).toNat = data.length := by
      rw [min_eq_left (by omega), UInt32.toNat_ofNat_of_lt' hlt]
    refine ⟨_, _, List.append_assoc _ _ _, _, _, ⟨rfl, rfl⟩, ?_⟩
    rw [if_neg (by rw [hcount]; simp), take_eq_ok, hcount]
    exact ⟨rfl, rfl⟩

end

theorem inverts_string (field : StringField) :
    Inverts (string field) Writer.text fun value => (bytes value).length < 2 ^ 16 :=
  inverts_of_run fun _ _ _ => string_eq_ok

theorem inverts_readCounted : Inverts readCounted Writer.counted fun data => data.length < 2 ^ 32 :=
  inverts_of_run fun _ _ _ => readCounted_eq_ok

theorem inverts_qid : Inverts qid Writer.qid fun _ => True :=
  inverts_of_run fun _ _ _ => by rw [qid_eq_ok, true_and]

end Reader

end AgentUplink.NineP
