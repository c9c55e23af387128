/-
Machine integers as bounded naturals.

A 64-bit counter is a `Nat`, and the operations that can leave the 64-bit range
say so. A checked addition answers `none` where the machine word would
overflow, and a saturating addition stops at the largest word.
-/
import Mathlib

namespace Machine

/-- One more than the largest 64-bit word. -/
def wordBound : Nat := 2 ^ 64

def checkedAdd (a b : Nat) : Option Nat :=
  if a + b < wordBound then some (a + b) else none

def saturatingAdd (a b : Nat) : Nat := min (a + b) (wordBound - 1)

theorem checkedAdd_eq_some {a b c : Nat} :
    checkedAdd a b = some c ↔ a + b < wordBound ∧ c = a + b := by
  unfold checkedAdd
  by_cases h : a + b < wordBound
  · simp [h, eq_comm]
  · simp [h]

theorem checkedAdd_eq_none {a b : Nat} : checkedAdd a b = none ↔ wordBound ≤ a + b := by
  unfold checkedAdd
  by_cases h : a + b < wordBound
  · simp [h]
  · simp only [h, if_false, true_iff]
    omega

theorem checkedAdd_of_lt {a b : Nat} (h : a + b < wordBound) : checkedAdd a b = some (a + b) := by
  simp [checkedAdd, h]

theorem saturatingAdd_le (a b : Nat) : saturatingAdd a b ≤ a + b := by
  unfold saturatingAdd
  omega

theorem saturatingAdd_of_lt {a b : Nat} (h : a + b < wordBound) : saturatingAdd a b = a + b := by
  unfold saturatingAdd
  omega

theorem word_le_max_left (a b : UInt64) : a ≤ max a b := by
  show a ≤ if a ≤ b then b else a
  split
  · assumption
  · exact UInt64.le_refl a

theorem word_le_max_right (a b : UInt64) : b ≤ max a b := by
  show b ≤ if a ≤ b then b else a
  split
  · exact UInt64.le_refl b
  · next h => exact UInt64.le_of_lt (UInt64.not_le.1 h)

end Machine
