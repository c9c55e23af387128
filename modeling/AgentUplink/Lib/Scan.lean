import AgentUplink.Lib.Incremental

/-
Scanning a stream of self-delimiting items.

`front` looks at the front of what has arrived: it takes an item off, refuses the stream,
or waits for more. If its verdict does not change when more arrives, then scanning what
has arrived so far and going on later from what was left is the same as scanning the
whole stream at once, whatever the pieces were.
-/

namespace Scan

open Incremental Outcome

variable {β ω ε : Type}

/-- What the front of a stream holds. -/
inductive Front (β ω ε : Type)
  | waits
  | refused (error : ε)
  | item (value : ω) (rest : List β)

/-- A verdict on the front of a stream is final, and an item takes up some of it. -/
structure Stable (front : List β → Front β ω ε) : Prop where
  shorter : ∀ {l : List β} {a : ω} {rest : List β}, front l = .item a rest → rest.length < l.length
  item_append : ∀ {l : List β} {a : ω} {rest : List β} (m : List β),
    front l = .item a rest → front (l ++ m) = .item a (rest ++ m)
  refused_append : ∀ {l : List β} {e : ε} (m : List β),
    front l = .refused e → front (l ++ m) = .refused e

/-- Take items off, at most as many as the fuel allows. -/
def scanFor (front : List β → Front β ω ε) : Nat → List β → Outcome ω ε (List β)
  | 0, l => quiet l
  | fuel + 1, l =>
    match front l with
    | .waits => quiet l
    | .refused e => ⟨[], .error e⟩
    | .item a rest => ⟨a :: (scanFor front fuel rest).out, (scanFor front fuel rest).result⟩

def scan (front : List β → Front β ω ε) (l : List β) : Outcome ω ε (List β) :=
  scanFor front (l.length + 1) l

variable {front : List β → Front β ω ε}

theorem scanFor_eq_scanFor (hfront : Stable front) {l : List β} {fuel fuel' : Nat}
    (h : l.length < fuel) (h' : l.length < fuel') :
    scanFor front fuel l = scanFor front fuel' l := by
  induction fuel generalizing l fuel' with
  | zero => cases h
  | succ fuel ih =>
    cases fuel' with
    | zero => cases h'
    | succ fuel' =>
      rw [scanFor, scanFor]
      cases hl : front l with
      | waits | refused e => rfl
      | item a rest =>
        have hrest := hfront.shorter hl
        have hfuel : scanFor front fuel rest = scanFor front fuel' rest := ih (by omega) (by omega)
        simp only [hfuel]

theorem scan_of_waits {l : List β} (h : front l = .waits) : scan front l = quiet l := by
  rw [scan, scanFor, h]

theorem scan_of_refused {l : List β} {e : ε} (h : front l = .refused e) :
    scan front l = ⟨[], .error e⟩ := by
  rw [scan, scanFor, h]

theorem scan_of_item (hfront : Stable front) {l rest : List β} {a : ω}
    (h : front l = .item a rest) :
    scan front l = ⟨a :: (scan front rest).out, (scan front rest).result⟩ := by
  have hrest := hfront.shorter h
  have hfuel := scanFor_eq_scanFor hfront hrest (Nat.lt_succ_self rest.length)
  rw [scan, scanFor, h]
  simp only [hfuel, scan]

/-- More input is scanned from what was left. -/
theorem scan_append (hfront : Stable front) (l m : List β) :
    scan front (l ++ m) = (scan front l).andThen fun rest => scan front (rest ++ m) := by
  induction hlen : l.length using Nat.strongRecOn generalizing l with
  | ind n ih =>
    cases hl : front l with
    | waits => rw [scan_of_waits hl, quiet_andThen]
    | refused e =>
      rw [scan_of_refused hl, scan_of_refused (hfront.refused_append m hl), andThen_error]
    | item a rest =>
      have hrest := hfront.shorter hl
      rw [scan_of_item hfront hl, scan_of_item hfront (hfront.item_append m hl),
        ih rest.length (by omega) rest rfl]
      cases hresult : (scan front rest).result <;> simp [andThen, hresult]

end Scan
