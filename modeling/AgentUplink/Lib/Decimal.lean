import Mathlib

/-
Canonical decimal text.

A counter on the wire is a decimal string without a sign and without leading
zeros. `text` writes one and `value` reads it; the two are inverse on exactly
the canonical strings. The width of a number is the length of its text.
-/
namespace Decimal

def text (n : Nat) : List Char := Nat.toDigits 10 n

def value (cs : List Char) : Nat := Nat.ofDigitChars 10 cs 0

/-- Digits only, at least one, and no leading zero. -/
def Canonical (cs : List Char) : Prop :=
  cs ≠ [] ∧ ¬ (1 < cs.length ∧ cs.head? = some '0') ∧ ∀ c ∈ cs, c.isDigit = true

instance (cs : List Char) : Decidable (Canonical cs) := by
  unfold Canonical
  infer_instance

def width (n : Nat) : Nat := (text n).length

/-! ## Reading what was written -/

theorem value_text (n : Nat) : value (text n) = n := Nat.ofDigitChars_ten_toDigits

theorem text_ne_nil (n : Nat) : text n ≠ [] := Nat.toDigits_ne_nil

variable {n d k : Nat} {c : Char} {cs : List Char}

theorem isDigit_of_mem_text (h : c ∈ text n) : c.isDigit = true :=
  Nat.isDigit_of_mem_toDigits (by decide) (by decide) h

theorem text_of_lt (h : n < 10) : text n = [n.digitChar] := Nat.toDigits_of_lt_base h

theorem text_of_le (h : 10 ≤ n) : text n = text (n / 10) ++ [(n % 10).digitChar] :=
  Nat.toDigits_of_base_le (by decide) h

theorem digitChar_ne_zero (h : d < 10) (h0 : d ≠ 0) : d.digitChar ≠ '0' := by
  intro hzero
  have hnat := Nat.toNat_digitChar_of_lt_ten h
  rw [hzero] at hnat
  have h48 : '0'.toNat = 48 := rfl
  omega

theorem head_text (h : n ≠ 0) : (text n).head? ≠ some '0' := by
  induction n using Nat.strongRecOn with
  | ind n ih =>
    by_cases hlt : n < 10
    · rw [text_of_lt hlt]
      intro hzero
      exact digitChar_ne_zero hlt h (Option.some.inj hzero)
    · rw [text_of_le (by omega), List.head?_append_of_ne_nil _ (text_ne_nil _)]
      exact ih (n / 10) (by omega) (by omega)

theorem canonical_text (n : Nat) : Canonical (text n) := by
  refine ⟨text_ne_nil n, fun ⟨hlong, hhead⟩ => ?_, fun c hc => isDigit_of_mem_text hc⟩
  by_cases hn : n = 0
  · subst hn
    exact absurd hlong (by decide)
  · exact head_text hn hhead

/-! ## Writing what was read -/

theorem exists_digit (h : c.isDigit = true) : ∃ d < 10, d.digitChar = c := by
  obtain ⟨hlow, hhigh⟩ := Char.isDigit_iff_toNat.1 h
  have h48 : '0'.toNat = 48 := rfl
  have h57 : '9'.toNat = 57 := rfl
  refine ⟨c.toNat - 48, by omega, Char.toNat_inj.1 ?_⟩
  rw [Nat.toNat_digitChar_of_lt_ten (by omega)]
  omega

theorem value_concat (cs : List Char) (h : d < 10) :
    value (cs ++ [d.digitChar]) = 10 * value cs + d := by
  unfold value
  rw [Nat.ofDigitChars_append, Nat.ofDigitChars_cons_digitChar_of_lt_ten h, Nat.ofDigitChars_nil]

theorem Canonical.init (h : Canonical (cs ++ [c])) (hcs : cs ≠ []) :
    Canonical cs ∧ cs.head? ≠ some '0' := by
  obtain ⟨_, hhead, hdigits⟩ := h
  have hne : cs.head? ≠ some '0' := by
    intro hzero
    refine hhead ⟨?_, ?_⟩
    · have := List.length_pos_iff.2 hcs
      rw [List.length_append, List.length_singleton]
      omega
    · rw [List.head?_append, hzero]
      rfl
  exact ⟨⟨hcs, fun ⟨_, hzero⟩ => hne hzero,
    fun c' hc' => hdigits c' (List.mem_append_left _ hc')⟩, hne⟩

theorem text_value (h : Canonical cs) : text (value cs) = cs := by
  induction cs using List.reverseRecOn with
  | nil => exact absurd rfl h.1
  | append_singleton cs c ih =>
    obtain ⟨d, hd, rfl⟩ := exists_digit (h.2.2 c (by simp))
    rw [value_concat cs hd]
    by_cases hcs : cs = []
    · subst hcs
      rw [show 10 * value [] + d = d from zero_add d]
      exact text_of_lt hd
    · obtain ⟨hcanonical, hhead⟩ := h.init hcs
      have hih := ih hcanonical
      have hpos : value cs ≠ 0 := by
        intro hzero
        rw [hzero] at hih
        exact hhead (by rw [← hih]; rfl)
      rw [text_of_le (by omega), show (10 * value cs + d) / 10 = value cs by omega,
        show (10 * value cs + d) % 10 = d by omega, hih]

/-! ## Widths -/

theorem width_le_iff (h : 0 < k) : width n ≤ k ↔ n < 10 ^ k :=
  Nat.length_toDigits_le_iff (by decide) h

theorem width_eq (hk : 0 < k) (hlow : 10 ^ k ≤ n) (hhigh : n < 10 ^ (k + 1)) : width n = k + 1 := by
  have hle := (width_le_iff (n := n) (Nat.succ_pos k)).2 hhigh
  have hlt : ¬ width n ≤ k := fun h => not_lt.2 hlow ((width_le_iff hk).1 h)
  omega

end Decimal
