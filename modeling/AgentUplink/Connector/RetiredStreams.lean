/-
The stream identifiers a connector session has retired.

They are kept as sorted inclusive ranges, found by binary search. When there are
too many ranges the lowest gap is closed.
-/
import AgentUplink.Connector.OpenJournal

namespace AgentUplink

open Machine

/-- The position a binary search narrows down to. The comparison says where a position
stands relative to what is looked for. The interval is at least halved in every round, so
as many rounds as it has positions are enough. -/
def binarySearchFrom (compare : Nat → Ordering) : Nat → Nat → Nat → Nat
  | 0, base, _ => base
  | rounds + 1, base, size =>
    if size > 1 then
      let half := size / 2
      let mid := base + half
      binarySearchFrom compare rounds (if compare mid = .gt then base else mid) (size - half)
    else base

/-- An item that is equal is found at its position; otherwise the answer is the position
where it would go. -/
def binarySearchBy {α : Type} (compare : α → Ordering) (items : List α) : Except Nat Nat :=
  if items.isEmpty then .error 0
  else
    let at? (i : Nat) : Ordering := (items[i]?.map compare).getD .lt
    let base := binarySearchFrom at? items.length 0 items.length
    match at? base with
    | .eq => .ok base
    | .lt => .error (base + 1)
    | .gt => .error base

def retiredStreamRanges : Nat := openJournalMaxEntries + 64

structure RetiredStreamIds where
  ranges : List (UInt64 × UInt64)
  coalescedGaps : Nat

namespace RetiredStreamIds

def empty : RetiredStreamIds := ⟨[], 0⟩

/-- One more, and one less, without leaving the 64-bit words. -/
def above (id : UInt64) : UInt64 := if id = UInt64.ofNat (wordBound - 1) then id else id + 1

def below (id : UInt64) : UInt64 := if id = 0 then id else id - 1

def contains (r : RetiredStreamIds) (streamId : UInt64) : Bool :=
  match binarySearchBy (fun range : UInt64 × UInt64 =>
      if range.2 < streamId then .lt else if range.1 > streamId then .gt else .eq) r.ranges with
  | .ok _ => true
  | .error _ => false

/-- Widen the range at a position, and join it to the neighbours it reaches. -/
def widen (ranges : List (UInt64 × UInt64)) (index : Nat) (streamId : UInt64) :
    List (UInt64 × UInt64) :=
  let ranges := ranges.modify index fun range => (min range.1 streamId, max range.2 streamId)
  let ranges :=
    match ranges[index]?, ranges[index + 1]? with
    | some range, some next =>
      if above range.2 ≥ next.1 then
        (ranges.eraseIdx (index + 1)).set index (range.1, max range.2 next.2)
      else ranges
    | _, _ => ranges
  if index = 0 then ranges
  else
    match ranges[index - 1]?, ranges[index]? with
    | some previous, some current =>
      if above previous.2 ≥ current.1 then
        (ranges.eraseIdx index).set (index - 1) (previous.1, max previous.2 current.2)
      else ranges
    | _, _ => ranges

/-- Close the lowest gap until the ranges are few enough. -/
def coalesce (first : UInt64 × UInt64) (coalescedGaps : Nat) :
    List (UInt64 × UInt64) → RetiredStreamIds
  | [] => ⟨[first], coalescedGaps⟩
  | absorbed :: rest =>
    if rest.length + 2 > retiredStreamRanges then
      coalesce (first.1, max first.2 absorbed.2) (saturatingAdd coalescedGaps 1) rest
    else ⟨first :: absorbed :: rest, coalescedGaps⟩

def insert (r : RetiredStreamIds) (streamId : UInt64) : RetiredStreamIds :=
  let position := binarySearchBy (fun range : UInt64 × UInt64 =>
    if above range.2 < streamId then .lt
    else if below range.1 > streamId then .gt
    else .eq) r.ranges
  let ranges :=
    match position with
    | .ok index => widen r.ranges index streamId
    | .error index => r.ranges.insertIdx index (streamId, streamId)
  match ranges with
  | [] => { r with ranges }
  | first :: rest => coalesce first r.coalescedGaps rest

/-- An identifier next to a range widens it, and one that fills a gap joins two. -/
example : (((empty.insert 5).insert 7).insert 6).ranges = [(5, 7)] := by decide +kernel

end RetiredStreamIds

end AgentUplink
