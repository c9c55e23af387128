import Mathlib

/-!
# The bytes of a text

A text is a list of characters and, through UTF-8, a list of bytes. A text without a
certain ASCII byte is one without that character.
-/

namespace Utf8

open List

def bytes (s : String) : List UInt8 := s.toByteArray.data.toList

theorem bytes_ofList (l : List Char) :
    bytes (String.ofList l) = l.flatMap String.utf8EncodeChar := by
  simp [bytes, String.toByteArray_ofList, List.utf8Encode]

theorem bytes_eq (s : String) : bytes s = s.toList.flatMap String.utf8EncodeChar := by
  rw [← bytes_ofList, String.ofList_toList]

theorem length_bytes (s : String) : (bytes s).length = s.utf8ByteSize := by
  simp [bytes]

theorem mem_bytes {s : String} {c : Char} (hc : c.val ≤ 127) (h : c ∈ s.toList) :
    c.val.toUInt8 ∈ bytes s := by
  rw [bytes_eq, mem_flatMap]
  refine ⟨c, h, ?_⟩
  rw [String.utf8EncodeChar_eq_singleton (Char.utf8Size_eq_one_iff.2 hc)]
  exact mem_singleton_self _

theorem le_of_mem_utf8EncodeChar {c : Char} {b : UInt8} (hc : ¬ c.val ≤ 127)
    (h : b ∈ String.utf8EncodeChar c) : 0x80 ≤ b.toNat := by
  have hlarge : ∀ n, b = UInt8.ofNat n → 0x80 ≤ n → n < 0x100 → 0x80 ≤ b.toNat := by
    intro n hn hle hlt
    rwa [hn, UInt8.toNat_ofNat_of_lt' hlt]
  rw [UInt32.le_iff_toNat_le] at hc
  unfold String.utf8EncodeChar at h
  dsimp only at h
  split_ifs at h with h₁ h₂ h₃ <;> simp only [mem_cons, not_mem_nil, or_false] at h
  · exact absurd h₁ hc
  · rcases h with h | h <;> exact hlarge _ h (by omega) (by omega)
  · rcases h with h | h | h <;> exact hlarge _ h (by omega) (by omega)
  · rcases h with h | h | h | h <;> exact hlarge _ h (by omega) (by omega)

theorem mem_of_mem_bytes {s : String} {b : UInt8} (hb : b.toNat < 0x80) (h : b ∈ bytes s) :
    Char.ofNat b.toNat ∈ s.toList := by
  rw [bytes_eq, mem_flatMap] at h
  obtain ⟨c, hc, hmem⟩ := h
  by_cases hascii : c.val ≤ 127
  · rw [String.utf8EncodeChar_eq_singleton (Char.utf8Size_eq_one_iff.2 hascii),
      mem_singleton] at hmem
    have hval : b.toNat = c.toNat := by
      rw [hmem]
      exact Nat.mod_eq_of_lt (Nat.lt_of_le_of_lt hascii (by decide))
    rwa [hval, Char.ofNat_toNat]
  · exact absurd hb (Nat.not_lt.2 (le_of_mem_utf8EncodeChar hascii hmem))

theorem utf8ByteSize_of_ascii {l : List Char} (h : ∀ c ∈ l, c.val ≤ 127) :
    (String.ofList l).utf8ByteSize = l.length := by
  rw [← length_bytes, bytes_ofList]
  induction l with
  | nil => rfl
  | cons c l ih =>
    have hc : c.val ≤ 127 := h c (mem_cons_self ..)
    rw [flatMap_cons, length_append, ih fun d hd => h d (mem_cons_of_mem _ hd),
      String.utf8EncodeChar_eq_singleton (Char.utf8Size_eq_one_iff.2 hc), length_singleton,
      length_cons, Nat.add_comm]

def ofBytes? (l : List UInt8) : Option String := String.fromUTF8? ⟨l.toArray⟩

theorem ofBytes?_eq_some {l : List UInt8} {s : String} : ofBytes? l = some s ↔ l = bytes s := by
  unfold ofBytes? String.fromUTF8?
  constructor
  · intro h
    split at h
    · cases h
      rfl
    · cases h
  · intro h
    subst h
    have hbytes : (⟨(bytes s).toArray⟩ : ByteArray) = s.toByteArray := by simp [bytes]
    rw [hbytes, dif_pos s.isValidUTF8]
    rfl

end Utf8
