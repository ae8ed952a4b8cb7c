import Linewise.Script.Basic
import Linewise.Script.Frontier

/-!
# Direct search for a shortest script

Rounds of frontiers are computed, and kept, until one reaches the end of both
sequences. The rows are then walked back from the end to the origin, undoing on
each the one edit of its round and the matches after it.
-/

namespace Linewise.Script

open Frontier

/-- Whether some entry of a row reaches the end of sequences of `n` and `m` elements. -/
def reachesEnd (n m : Nat) (row : Row) : Bool :=
  (List.range row.size).any fun i =>
    n ≤ row.getD i 0 && m ≤ height (row.size - 1) i (row.getD i 0)

/-- Computes rows until one reaches the end, for at most `fuel` rounds. The answer holds the rows
before that one, the latest first. -/
def searchRows (a b : Array Nat) : (fuel : Nat) → (rows : List Row) → List Row
  | 0, rows => rows
  | fuel + 1, rows =>
    let row := next a b (rows.headD #[])
    if reachesEnd a.size b.size row then rows else searchRows a b fuel (row :: rows)

/-- Walks back from `(x, y)` over the rows before it, the latest first, and puts the edits in
front of `script`. -/
def walkBack : (rows : List Row) → (x y : Nat) → (script : Script) → Script
  | [], x, y, script => kept (min x y) ++ script
  | row :: rows, x, y, script =>
    let i := (x + row.size - y) / 2
    let start := entry row i
    let run := x - start
    let rest := kept run ++ script
    if stepsDown row i then walkBack rows start (y - run - 1) (.insert :: rest)
    else walkBack rows (start - 1) (y - run) (.delete :: rest)

/-- A shortest script from `a` to `b`. No script needs more than `a.size + b.size` edits, which
bounds the search. -/
def direct (a b : Array Nat) : Script :=
  if a.isEmpty || b.isEmpty then replaced a.size b.size
  else walkBack (searchRows a b (a.size + b.size + 1) []) a.size b.size []

end Linewise.Script
