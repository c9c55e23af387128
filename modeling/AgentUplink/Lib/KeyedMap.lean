import AgentUplink.Lib.Ledger

/-!
# Maps from natural keys

An ordered map keyed by numbers, with the total weight of what it holds. The
results are the ones a bounded buffer needs: what an insertion and a removal do
to the weight, that a buffer filled from a list weighs no more than the list,
the listing of a gap-free interval of keys, and the run of consecutive keys
that starts at a given one.
-/

namespace KeyedMap

open Std Ledger List ExtTreeMap

variable {α β : Type}

/-- The sum of the weights of the values held. -/
def mass (w : α → Nat) (m : ExtTreeMap Nat α) : Nat :=
  (m.toList.map fun entry => w entry.2).sum

variable {m : ExtTreeMap Nat α} {k n a : Nat} {v : α} {l : List α}

theorem mass_insert (h : m[k]? = none) (w : α → Nat) (v : α) :
    mass w (m.insert k v) = mass w m + w v :=
  total_insert h (fun _ => w) v

theorem mass_erase (h : m[k]? = some v) (w : α → Nat) : mass w m = mass w (m.erase k) + w v :=
  total_erase h fun _ => w

theorem mass_empty (w : α → Nat) : mass w (∅ : ExtTreeMap Nat α) = 0 :=
  total_empty fun _ => w

theorem mass_map (w : β → Nat) (q : α → β) (m : ExtTreeMap Nat α) :
    mass w (m.map fun _ => q) = mass (fun v => w (q v)) m := by
  simp [mass, toList_map, Function.comp_def]

theorem mass_one (m : ExtTreeMap Nat α) : mass (fun _ => 1) m = m.size := by
  simp [mass, ← length_toList]

variable {w : α → Nat} {m' before after : ExtTreeMap Nat α}

/-- A map filled from the part of a list after position `a`, the value at key `k`
standing for the list's element `k - 1`, weighs at most what that part weighs. -/
theorem mass_le_sum_drop {u : β → Nat} {l : List β} :
    ∀ {a : Nat} {m : ExtTreeMap Nat α},
      (∀ k v, m[k]? = some v → a < k ∧ ∃ x, l[k - 1]? = some x ∧ w v ≤ u x) →
      mass w m ≤ ((l.drop a).map u).sum := by
  -- Induction on what is left of the list; a step removes key `a + 1` from the map.
  suffices h : ∀ n a (m : ExtTreeMap Nat α), l.length - a = n →
      (∀ k v, m[k]? = some v → a < k ∧ ∃ x, l[k - 1]? = some x ∧ w v ≤ u x) →
      mass w m ≤ ((l.drop a).map u).sum from fun {a m} hm => h _ a m rfl hm
  intro n
  induction n with
  | zero =>
    intro a m hlen hm
    have hempty : m = ∅ := by
      apply ExtTreeMap.ext_getElem?
      intro k
      rw [ExtTreeMap.getElem?_empty, Option.eq_none_iff_forall_ne_some]
      intro v hv
      obtain ⟨hak, x, hx, _⟩ := hm k v hv
      have := (List.getElem?_eq_some_iff.1 hx).1
      omega
    rw [hempty, mass_empty]
    exact Nat.zero_le _
  | succ n ih =>
    intro a m hlen hm
    have ha : a < l.length := by omega
    rw [drop_eq_getElem_cons ha, map_cons, sum_cons]
    have hstep : mass w (m.erase (a + 1)) ≤ ((l.drop (a + 1)).map u).sum := by
      apply ih (a + 1) (m.erase (a + 1)) (by omega)
      intro k v hv
      rw [get_erase] at hv
      by_cases hk : a + 1 = k
      · simp [hk] at hv
      · rw [if_neg hk] at hv
        obtain ⟨hak, hx⟩ := hm k v hv
        exact ⟨by omega, hx⟩
    cases hv : m[a + 1]? with
    | none =>
      rw [erase_eq_self hv] at hstep
      omega
    | some v =>
      obtain ⟨_, x, hx, hwx⟩ := hm (a + 1) v hv
      have hxa : x = l[a] := by
        rw [Nat.add_sub_cancel, List.getElem?_eq_getElem ha] at hx
        exact (Option.some.inj hx).symm
      rw [mass_erase hv, ← hxa]
      omega

theorem mass_le_of_get (h : ∀ (k : Nat) v, m[k]? = some v → m'[k]? = some v) :
    mass w m ≤ mass w m' := by
  have hsub : m.toList ⊆ m'.toList := by
    rintro ⟨k, v⟩ hv
    rw [mem_toList_iff_getElem?_eq_some] at hv ⊢
    exact h k v hv
  obtain ⟨l, hperm, hl⟩ := (subperm_of_subset (toList_nodup m) hsub)
  unfold mass
  rw [← (hperm.map _).sum_eq]
  exact (hl.map _).sum_le_sum (by simp)

section

variable (w : α → Nat)

/-- Whatever different entries are taken out one after the other, no subtraction of
their weights from the total goes below zero. -/
def Covers (m : ExtTreeMap Nat α) (total : Nat) : Prop :=
  ∀ keys : List Nat, keys.Nodup → ((keys.filterMap fun k => m[k]?).map w).sum ≤ total

theorem covers_mass (m : ExtTreeMap Nat α) : Covers w m (mass w m) := by
  intro keys hnodup
  induction keys generalizing m with
  | nil => exact Nat.zero_le _
  | cons k keys ih =>
    obtain ⟨hk, hnodup⟩ := nodup_cons.1 hnodup
    cases hv : m[k]? with
    | none =>
      rw [filterMap_cons_none hv]
      exact ih m hnodup
    | some v =>
      -- The other keys find the same values in the map without `k`.
      have hrest : keys.filterMap (fun j => m[j]?) = keys.filterMap fun j => (m.erase k)[j]? := by
        refine filterMap_congr fun j hj => ?_
        have hne : k ≠ j := by
          rintro rfl
          exact hk hj
        rw [get_erase, if_neg hne]
      have hle := ih (m.erase k) hnodup
      rw [filterMap_cons_some hv, map_cons, sum_cons, hrest, mass_erase hv w]
      omega

/-! ## Removing an initial interval of keys -/

/-- Remove the given keys, taking the weight of each removed value off a running
total. -/
def removeEach (w : α → Nat) : List Nat → ExtTreeMap Nat α → Nat → ExtTreeMap Nat α × Nat
  | [], m, total => (m, total)
  | k :: ks, m, total =>
    match m[k]? with
    | some v => removeEach w ks (m.erase k) (total - w v)
    | none => removeEach w ks m total

/-- Remove every key up to `last`. -/
def dropThrough (last : Nat) (m : ExtTreeMap Nat α) (total : Nat) :
    ExtTreeMap Nat α × Nat :=
  removeEach w (m.keys.filter (· ≤ last)) m total

theorem get_removeEach (ks : List Nat) (m : ExtTreeMap Nat α) (total k : Nat) :
    (removeEach w ks m total).1[k]? = if k ∈ ks then none else m[k]? := by
  induction ks generalizing m total with
  | nil => simp [removeEach]
  | cons k' ks ih =>
    unfold removeEach
    split
    next v hv =>
      rw [ih, get_erase]
      by_cases hk : k' = k
      · simp [hk]
      · simp [hk, Ne.symm hk]
    next hv =>
      rw [ih]
      by_cases hk : k = k'
      · simp [hk, hv]
      · simp [hk]

theorem removeEach_total (ks : List Nat) (m : ExtTreeMap Nat α) :
    (removeEach w ks m (mass w m)).2 = mass w (removeEach w ks m (mass w m)).1 := by
  induction ks generalizing m with
  | nil => rfl
  | cons k ks ih =>
    unfold removeEach
    split
    next v hv =>
      have htotal : mass w m - w v = mass w (m.erase k) := by
        have := mass_erase hv w
        omega
      rw [htotal]
      exact ih _
    next hv => exact ih m

theorem get_dropThrough (last : Nat) (m : ExtTreeMap Nat α) (total k : Nat) :
    (dropThrough w last m total).1[k]? = if k ≤ last then none else m[k]? := by
  unfold dropThrough
  rw [get_removeEach]
  by_cases hk : k ∈ m <;> simp [hk]

theorem dropThrough_total (last : Nat) (m : ExtTreeMap Nat α) :
    (dropThrough w last m (mass w m)).2 = mass w (dropThrough w last m (mass w m)).1 :=
  removeEach_total w _ m

end

/-! ## Consecutive keys -/

/-- The values at `k`, `k + 1`, ... up to the first key that is missing, at most `n`. -/
def chain (m : ExtTreeMap Nat α) : Nat → Nat → List α
  | 0, _ => []
  | n + 1, k =>
    match m[k]? with
    | some v => v :: chain m n (k + 1)
    | none => []

theorem chain_congr (h : ∀ j, k ≤ j → m[j]? = m'[j]?) : chain m n k = chain m' n k := by
  induction n generalizing k with
  | zero => rfl
  | succ n ih =>
    unfold chain
    rw [h k (Nat.le_refl k), ih fun j hj => h j (by omega)]

theorem get_of_chain {i : Nat} (h : (chain m n k)[i]? = some v) : m[k + i]? = some v := by
  induction n generalizing k i with
  | zero => simp [chain] at h
  | succ n ih =>
    unfold chain at h
    cases hk : m[k]? with
    | none => simp [hk] at h
    | some u =>
      rw [hk] at h
      cases i with
      | zero =>
        cases h
        exact hk
      | succ i =>
        rw [← ih (k := k + 1) (i := i) h]
        congr 1
        omega

/-- With as much fuel as the map has keys, the chain stops only at a missing key. -/
theorem chain_stops (h : m.size ≤ n) : m[k + (chain m n k).length]? = none := by
  induction n generalizing m k with
  | zero =>
    have hempty : m = ∅ := eq_empty_iff_size_eq_zero.2 (by omega)
    simp [hempty]
  | succ n ih =>
    unfold chain
    cases hv : m[k]? with
    | none => simp [hv]
    | some v =>
      -- Past `k` the map and the map without `k` agree, and the latter is smaller.
      have hagree : ∀ j, k + 1 ≤ j → m[j]? = (m.erase k)[j]? := by
        intro j hj
        rw [get_erase, if_neg (by omega)]
      have hsize : (m.erase k).size ≤ n := by
        have := mass_erase hv (fun _ => 1)
        rw [mass_one, mass_one] at this
        omega
      have := ih (k := k + 1) hsize
      rw [← chain_congr hagree, ← hagree _ (by omega)] at this
      rw [← this, length_cons]
      congr 1
      omega

/-- The list's elements under the keys that start at `k`. -/
def numbered : Nat → List α → List (Nat × α)
  | _, [] => []
  | k, v :: l => (k, v) :: numbered (k + 1) l

theorem mem_numbered {j : Nat} : (j, v) ∈ numbered k l ↔ k ≤ j ∧ l[j - k]? = some v := by
  induction l generalizing k with
  | nil => simp [numbered]
  | cons x l ih =>
    simp only [numbered, mem_cons, Prod.mk.injEq, ih]
    rcases Nat.lt_trichotomy j k with hj | hj | hj
    · constructor
      · rintro (h | h) <;> omega
      · intro h
        omega
    · subst hj
      simp [eq_comm]
    · obtain ⟨i, rfl⟩ : ∃ i, j = k + 1 + i := ⟨j - (k + 1), by omega⟩
      have h₁ : k + 1 + i - (k + 1) = i := by omega
      have h₂ : k + 1 + i - k = i + 1 := by omega
      rw [h₁, h₂, List.getElem?_cons_succ]
      constructor
      · rintro (h | h)
        · omega
        · exact ⟨by omega, h.2⟩
      · intro h
        exact .inr ⟨by omega, h.2⟩

theorem numbered_pairwise (k : Nat) (l : List α) :
    (numbered k l).Pairwise fun x y => x.1 < y.1 := by
  induction l generalizing k with
  | nil => exact List.Pairwise.nil
  | cons v l ih =>
    refine List.Pairwise.cons ?_ (ih (k + 1))
    rintro ⟨j, u⟩ hj
    have := (mem_numbered.1 hj).1
    omega

theorem map_snd_numbered (k : Nat) (l : List α) : (numbered k l).map Prod.snd = l := by
  induction l generalizing k with
  | nil => rfl
  | cons v l ih => rw [numbered, map_cons, ih]

/-- Entries in key order that are exactly the list's elements after position `a`
under their positions. -/
theorem eq_numbered {entries : List (Nat × α)} (hsorted : entries.Pairwise fun x y => x.1 < y.1)
    (hmem : ∀ k v, (k, v) ∈ entries ↔ a < k ∧ l[k - 1]? = some v) :
    entries = numbered (a + 1) (l.drop a) := by
  apply hsorted.eq_of_mem_iff (numbered_pairwise _ _)
  rintro ⟨k, v⟩
  rw [hmem, mem_numbered, List.getElem?_drop]
  constructor
  · rintro ⟨hk, hv⟩
    refine ⟨hk, ?_⟩
    rw [← hv]
    congr 1
    omega
  · rintro ⟨hk, hv⟩
    refine ⟨hk, ?_⟩
    rw [← hv]
    congr 1
    omega

theorem toList_pairwise (m : ExtTreeMap Nat α) : m.toList.Pairwise fun x y => x.1 < y.1 := by
  refine ordered_keys_toList.imp ?_
  intro x y hxy
  exact compare_eq_lt.1 hxy

/-- A map that holds a list's elements after position `a` lists them in order. -/
theorem toList_eq_numbered (h : ∀ k, m[k]? = if a < k then l[k - 1]? else none) :
    m.toList = numbered (a + 1) (l.drop a) := by
  apply eq_numbered (toList_pairwise m)
  intro k v
  rw [mem_toList_iff_getElem?_eq_some, h]
  by_cases hk : a < k <;> simp [hk]

/-! ## What a map gains -/

/-- The entries of `after` that `before` does not have, in key order. -/
def gained [DecidableEq α] (before after : ExtTreeMap Nat α) : List α :=
  (after.toList.filter fun entry => before[entry.1]? ≠ some entry.2).map Prod.snd

theorem gained_eq_nil [DecidableEq α]
    (h : ∀ (k : Nat) v, after[k]? = some v → before[k]? = some v) : gained before after = [] := by
  unfold gained
  rw [map_eq_nil_iff, filter_eq_nil_iff]
  rintro ⟨k, v⟩ hv
  rw [mem_toList_iff_getElem?_eq_some] at hv
  simpa using h k v hv

theorem gained_self [DecidableEq α] (m : ExtTreeMap Nat α) : gained m m = [] :=
  gained_eq_nil fun _ _ h => h

theorem gained_eq_drop [DecidableEq α]
    (h : ∀ (k : Nat) v, after[k]? = some v ∧ before[k]? ≠ some v ↔ a < k ∧ l[k - 1]? = some v) :
    gained before after = l.drop a := by
  unfold gained
  rw [eq_numbered ((toList_pairwise after).filter _) (l := l) (a := a), map_snd_numbered]
  intro k v
  rw [mem_filter, mem_toList_iff_getElem?_eq_some, decide_eq_true_eq]
  exact h k v

end KeyedMap
