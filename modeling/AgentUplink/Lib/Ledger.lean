import Mathlib

/-!
# Ordered maps with weighted entries

What an insertion does to a lookup, to the listing and to the total weight of an
ordered map, for any lawful order on the keys. The weight of an entry may depend on
its key.
-/

namespace Ledger

open Std List ExtTreeMap

variable {κ α : Type} [Ord κ] [TransOrd κ] [LawfulEqOrd κ] [DecidableEq κ]

theorem get_insert (m : ExtTreeMap κ α) (k k' : κ) (v : α) :
    (m.insert k v)[k']? = if k = k' then some v else m[k']? := by
  rw [ExtTreeMap.getElem?_insert]
  by_cases h : k = k'
  · simp [h]
  · simp [h]

theorem get_erase (m : ExtTreeMap κ α) (k k' : κ) :
    (m.erase k)[k']? = if k = k' then none else m[k']? := by
  rw [ExtTreeMap.getElem?_erase]
  by_cases h : k = k'
  · simp [h]
  · simp [h]

theorem get_modify (m : ExtTreeMap κ α) (k k' : κ) (f : α → α) :
    (m.modify k f)[k']? = if k = k' then m[k]?.map f else m[k']? := by
  rw [ExtTreeMap.getElem?_modify]
  by_cases h : k = k'
  · simp [h]
  · simp [h]

variable {m : ExtTreeMap κ α} {k : κ} {v : α}

theorem get_insert_eq_some {k' : κ} {v' : α} :
    (m.insert k v)[k']? = some v' ↔ k = k' ∧ v = v' ∨ k ≠ k' ∧ m[k']? = some v' := by
  rw [get_insert]
  by_cases h : k = k'
  · simp [h]
  · simp [h]

theorem get_insert_of_none {k' : κ} {v' : α} (h : m[k]? = none) (h' : m[k']? = some v') :
    (m.insert k v)[k']? = some v' := by
  refine get_insert_eq_some.2 (.inr ⟨?_, h'⟩)
  rintro rfl
  cases h.symm.trans h'

theorem get_erase_eq_some {k' : κ} : (m.erase k)[k']? = some v ↔ k ≠ k' ∧ m[k']? = some v := by
  rw [get_erase]
  by_cases h : k = k'
  · simp [h]
  · simp [h]

omit [LawfulEqOrd κ] [DecidableEq κ] in
theorem toList_nodup (m : ExtTreeMap κ α) : m.toList.Nodup := by
  have hkeys : (m.toList.map Prod.fst).Nodup := by
    rw [map_fst_toList_eq_keys]
    exact nodup_keys
  exact hkeys.of_map Prod.fst

theorem toList_insert_perm (h : m[k]? = none) (v : α) :
    (m.insert k v).toList.Perm ((k, v) :: m.toList) := by
  refine (perm_ext_iff_of_nodup (toList_nodup _) ?_).2 ?_
  · refine nodup_cons.2 ⟨?_, toList_nodup m⟩
    rw [mem_toList_iff_getElem?_eq_some, h]
    simp
  · rintro ⟨k', v'⟩
    rw [mem_toList_iff_getElem?_eq_some, mem_cons, mem_toList_iff_getElem?_eq_some, get_insert]
    by_cases hk : k = k'
    · subst hk
      simp [h, eq_comm]
    · simp [hk, Ne.symm hk]

theorem size_insert_of_none (h : m[k]? = none) (v : α) : (m.insert k v).size = m.size + 1 := by
  rw [← length_toList, ← length_toList, (toList_insert_perm h v).length_eq, length_cons]

omit [DecidableEq κ] in
theorem size_le_of_keys {β : Type} {m' : ExtTreeMap κ β}
    (h : ∀ k : κ, m[k]? ≠ none → m'[k]? ≠ none) : m.size ≤ m'.size := by
  have hsub : m.keys ⊆ m'.keys := by
    intro k hk
    rw [ExtTreeMap.mem_keys, ExtTreeMap.mem_iff_isSome_getElem?] at hk ⊢
    have := h k (Option.ne_none_iff_isSome.2 hk)
    exact Option.ne_none_iff_isSome.1 this
  rw [← length_keys, ← length_keys]
  exact (subperm_of_subset nodup_keys hsub).length_le

/-- The keys of the entries whose values satisfy `p`. -/
def keysWhere (p : α → Bool) (m : ExtTreeMap κ α) : Finset κ :=
  ((m.toList.filter fun entry => p entry.2).map Prod.fst).toFinset

theorem mem_keysWhere {p : α → Bool} : k ∈ keysWhere p m ↔ ∃ v, m[k]? = some v ∧ p v = true := by
  simp only [keysWhere, mem_toFinset, mem_map, mem_filter, Prod.exists,
    mem_toList_iff_getElem?_eq_some]
  constructor
  · rintro ⟨_, v, hv, rfl⟩
    exact ⟨v, hv⟩
  · intro ⟨v, hv⟩
    exact ⟨k, v, hv, rfl⟩

omit [LawfulEqOrd κ] in
theorem card_keysWhere (p : α → Bool) (m : ExtTreeMap κ α) :
    (keysWhere p m).card = (m.toList.filter fun entry => p entry.2).length := by
  have hkeys : (m.toList.map Prod.fst).Nodup := by
    rw [map_fst_toList_eq_keys]
    exact nodup_keys
  rw [keysWhere, toFinset_card_of_nodup, length_map]
  exact hkeys.sublist (filter_sublist.map Prod.fst)

omit [LawfulEqOrd κ] in
theorem card_keysWhere_true (m : ExtTreeMap κ α) : (keysWhere (fun _ => true) m).card = m.size := by
  rw [card_keysWhere, filter_true, length_toList]

/-- The sum of the weights of the entries. -/
def total (w : κ → α → Nat) (m : ExtTreeMap κ α) : Nat :=
  (m.toList.map fun entry => w entry.1 entry.2).sum

omit [LawfulEqOrd κ] [DecidableEq κ] in
theorem total_empty (w : κ → α → Nat) : total w (∅ : ExtTreeMap κ α) = 0 := by
  rfl

theorem total_insert (h : m[k]? = none) (w : κ → α → Nat) (v : α) :
    total w (m.insert k v) = total w m + w k v := by
  unfold total
  rw [((toList_insert_perm h v).map _).sum_eq, map_cons, sum_cons, Nat.add_comm]

theorem insert_erase_insert (m : ExtTreeMap κ α) (k : κ) (v : α) :
    (m.erase k).insert k v = m.insert k v := by
  apply ExtTreeMap.ext_getElem?
  intro k'
  rw [get_insert, get_insert, get_erase]
  by_cases hk : k = k'
  · simp [hk]
  · simp [hk]

theorem insert_self (h : m[k]? = some v) : m.insert k v = m := by
  apply ExtTreeMap.ext_getElem?
  intro k'
  rw [get_insert]
  by_cases hk : k = k'
  · subst hk
    simp [h]
  · simp [hk]

theorem insert_erase_self (h : m[k]? = some v) : (m.erase k).insert k v = m := by
  rw [insert_erase_insert, insert_self h]

theorem get_erase_self (m : ExtTreeMap κ α) (k : κ) : (m.erase k)[k]? = none := by
  rw [get_erase, if_pos rfl]

theorem erase_eq_self (h : m[k]? = none) : m.erase k = m := by
  apply ExtTreeMap.ext_getElem?
  intro k'
  rw [get_erase]
  by_cases hk : k = k'
  · subst hk
    simp [h]
  · simp [hk]

section

variable (h : m[k]? = some v)
include h

theorem total_erase (w : κ → α → Nat) : total w m = total w (m.erase k) + w k v := by
  rw [← total_insert (get_erase_self m k), insert_erase_self h]

theorem total_replace (w : κ → α → Nat) (v' : α) :
    total w (m.insert k v') + w k v = total w m + w k v' := by
  have hnew := total_insert (get_erase_self m k) w v'
  have hold := total_erase h w
  rw [insert_erase_insert] at hnew
  omega

theorem size_erase_of_some : m.size = (m.erase k).size + 1 := by
  rw [← size_insert_of_none (get_erase_self m k) v, insert_erase_self h]

omit [LawfulEqOrd κ] [DecidableEq κ] in
theorem size_replace (v' : α) : (m.insert k v').size = m.size := by
  rw [size_insert, if_pos]
  exact mem_iff_isSome_getElem?.2 (by rw [h]; rfl)

end

end Ledger
