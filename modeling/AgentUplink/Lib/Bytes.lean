import Mathlib

/-
Numbers as bytes, and records of fixed-width fields.

`toBytes w n` is the `w`-byte big-endian form of `n` and `ofBytes` reads one; the
two are inverse below `256 ^ w` and on lists of length `w`. `toLeBytes` and
`ofLeBytes` are the same in little-endian order. `cut` splits a list along a layout
of field widths.
-/
namespace Bytes

open List

def toBytes : Nat → Nat → List UInt8
  | 0, _ => []
  | w + 1, n => toBytes w (n / 256) ++ [UInt8.ofNat (n % 256)]

def ofBytes (bs : List UInt8) : Nat := bs.foldl (fun acc b => 256 * acc + b.toNat) 0

@[simp] theorem length_toBytes (w n : Nat) : (toBytes w n).length = w := by
  induction w generalizing n with
  | zero => rfl
  | succ w ih => rw [toBytes, length_append, ih, length_singleton]

theorem ofBytes_concat (bs : List UInt8) (b : UInt8) :
    ofBytes (bs ++ [b]) = 256 * ofBytes bs + b.toNat := by
  unfold ofBytes
  rw [foldl_append]
  rfl

theorem ofBytes_lt (bs : List UInt8) : ofBytes bs < 256 ^ bs.length := by
  induction bs using List.reverseRecOn with
  | nil => exact one_pos
  | append_singleton bs b ih =>
    have hb := b.toNat_lt
    rw [ofBytes_concat, length_append, length_singleton, pow_succ]
    omega

variable {w n : Nat} {bs : List UInt8}

theorem ofBytes_toBytes (h : n < 256 ^ w) : ofBytes (toBytes w n) = n := by
  induction w generalizing n with
  | zero =>
    have hzero : n = 0 := Nat.lt_one_iff.1 h
    subst hzero
    rfl
  | succ w ih =>
    have hdiv : n / 256 < 256 ^ w := Nat.div_lt_of_lt_mul (by rwa [Nat.mul_comm, ← Nat.pow_succ])
    have hbyte : (UInt8.ofNat (n % 256)).toNat = n % 256 :=
      UInt8.toNat_ofNat_of_lt' (Nat.mod_lt n (by decide))
    rw [toBytes, ofBytes_concat, ih hdiv, hbyte]
    omega

theorem toBytes_ofBytes (h : bs.length = w) : toBytes w (ofBytes bs) = bs := by
  induction bs using List.reverseRecOn generalizing w with
  | nil =>
    subst h
    rfl
  | append_singleton bs b ih =>
    have hb := b.toNat_lt
    rw [length_append, length_singleton] at h
    subst h
    rw [toBytes, ofBytes_concat, show (256 * ofBytes bs + b.toNat) / 256 = ofBytes bs by omega,
      show (256 * ofBytes bs + b.toNat) % 256 = b.toNat by omega, ih rfl, UInt8.ofNat_toNat]

/-! ## Little-endian order -/

def toLeBytes (w n : Nat) : List UInt8 := (toBytes w n).reverse

def ofLeBytes (bs : List UInt8) : Nat := ofBytes bs.reverse

@[simp] theorem length_toLeBytes (w n : Nat) : (toLeBytes w n).length = w := by
  simp [toLeBytes]

theorem ofLeBytes_lt (bs : List UInt8) : ofLeBytes bs < 256 ^ bs.length := by
  simpa [ofLeBytes] using ofBytes_lt bs.reverse

theorem ofLeBytes_toLeBytes (h : n < 256 ^ w) : ofLeBytes (toLeBytes w n) = n := by
  rw [ofLeBytes, toLeBytes, reverse_reverse, ofBytes_toBytes h]

theorem toLeBytes_ofLeBytes (h : bs.length = w) : toLeBytes w (ofLeBytes bs) = bs := by
  rw [toLeBytes, ofLeBytes, toBytes_ofBytes (by simpa using h), reverse_reverse]

/-! ## Layouts -/

variable {α : Type}

/-- The elements from `first` up to, but not including, `last`. -/
def slice (first last : Nat) (l : List α) : List α := (l.drop first).take (last - first)

theorem length_slice {first last : Nat} {l : List α} (h : last ≤ l.length) :
    (slice first last l).length = last - first := by
  unfold slice
  rw [length_take, length_drop]
  omega

/-- Fields of the given widths, one after the other. -/
def cut : List Nat → List α → List (List α)
  | [], _ => []
  | w :: ws, l => l.take w :: cut ws (l.drop w)

theorem flatten_cut (ws : List Nat) (l : List α) : (cut ws l).flatten ++ l.drop ws.sum = l := by
  induction ws generalizing l with
  | nil => rfl
  | cons w ws ih =>
    rw [cut, flatten_cons, sum_cons, append_assoc, ← drop_drop, ih, take_append_drop]

theorem cut_flatten {ws : List Nat} {fields : List (List α)} (h : fields.map List.length = ws)
    (rest : List α) : cut ws (fields.flatten ++ rest) = fields := by
  induction fields generalizing ws with
  | nil =>
    subst h
    rfl
  | cons field fields ih =>
    subst h
    rw [map_cons, cut, flatten_cons, append_assoc, take_left, drop_left, ih rfl]

end Bytes
