import Linewise.Script.Frontier

/-!
# The middle snake

A shortest path can be found in two halves, one searched forward from the origin
and one backward from the end, the latter as a forward search in the reversed
sequences. When the two frontiers overlap on a diagonal, the run of matches just
followed, a snake, lies on some shortest path, and what is before and after it
can be solved apart.
-/

namespace Linewise

/-- A run of matches from `(xStart, yStart)` to `(xStop, yStop)`; it may be empty. -/
structure Snake where
  xStart : Nat
  yStart : Nat
  xStop : Nat
  yStop : Nat
  deriving DecidableEq, Repr

namespace Snake

open Frontier

/-- Whether entry `i` of `row` overlaps with the row `other` of the opposite search on the same
diagonal, in sequences of `n` and `m` elements. Points outside the grid overlap with nothing. -/
def overlaps (n m : Nat) (row other : Row) (i : Nat) : Bool :=
  let d := row.size - 1
  let e := other.size - 1
  let x := row.getD i 0
  let j := (n + d + e - (m + 2 * i)) / 2
  x ≤ n && height d i x ≤ m && m + 2 * i ≤ n + d + e &&
    other[j]?.any fun reached => reached ≤ n && height e j reached ≤ m && n ≤ x + reached

/-- The first entry of `row` that overlaps with `other`. -/
def firstOverlap? (n m : Nat) (row other : Row) : Option Nat :=
  (List.range row.size).find? (overlaps n m row other)

/-- The snake at entry `i` of the row after `previous`. -/
def ofEntry (previous row : Row) (i : Nat) : Snake :=
  let x := entry previous i
  let reached := row.getD i 0
  ⟨x, height previous.size i x, reached, height previous.size i reached⟩

/-- The same snake, found in the reversed sequences. -/
def mirrored (n m : Nat) (s : Snake) : Snake :=
  ⟨n - s.xStop, m - s.yStop, n - s.xStart, m - s.yStart⟩

/-- Searches from both ends, one round forward and one backward at a time, for at most `fuel`
rounds. If the sizes differ by an odd number the halves of a shortest path differ by one edit, so
they meet after a forward round, and else after a backward one. -/
def search (a b : Array Nat) : (fuel : Nat) → (forward backward : Row) → Option Snake
  | 0, _, _ => none
  | fuel + 1, forward, backward =>
    let n := a.size
    let m := b.size
    let forward' := next a b forward
    let backward' := next a.reverse b.reverse backward
    if (n + m) % 2 = 1 then
      match firstOverlap? n m forward' backward with
      | some i => some (ofEntry forward forward' i)
      | none => search a b fuel forward' backward'
    else
      match firstOverlap? n m backward' forward' with
      | some i => some ((ofEntry backward backward' i).mirrored n m)
      | none => search a b fuel forward' backward'

/-- The snake in the middle of a shortest path between two sequences that are not empty and share
neither their first nor their last element. -/
def middle? (a b : Array Nat) : Option Snake :=
  search a b ((a.size + b.size + 1) / 2 + 1) #[] #[]

end Snake

end Linewise
