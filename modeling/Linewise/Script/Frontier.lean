/-!
# Furthest-reaching frontiers

A shortest edit script is a path through a grid: a step right deletes an element
of the first sequence, a step down inserts one of the second, and a diagonal
step keeps a matching pair for free. After `d` edits a path stands on one of the
diagonals `-d`, `-d + 2`, …, `d`, where diagonal `k` holds the points with
`x - y = k`. A frontier row records, for each of these in order, the furthest
`x` reached there: entry `i` of the row of round `d` belongs to diagonal
`2 * i - d`. A row holds one entry more than the row of the round before, and a
point may lie outside the grid.
-/

namespace Linewise.Frontier

/-- The furthest `x` on each diagonal of one round. -/
abbrev Row := Array Nat

/-- Where the run of matching elements from `(x, y)` on ends, in the first sequence. -/
def follow (a b : Array Nat) (x y : Nat) : Nat :=
  if h : x < a.size ∧ y < b.size then
    if a[x] = b[y] then follow a b (x + 1) (y + 1) else x
  else x
termination_by a.size - x

/-- Whether entry `i` of the row after `previous` is reached by a step down: always on the lowest
diagonal, never on the highest, and else where the diagonal above reaches further than the one
below. At equal reach the step goes right. -/
def stepsDown (previous : Row) (i : Nat) : Bool :=
  i == 0 || (i != previous.size && previous.getD (i - 1) 0 < previous.getD i 0)

/-- Where entry `i` of the row after `previous` starts, before any match is followed. -/
def entry (previous : Row) (i : Nat) : Nat :=
  if stepsDown previous i then previous.getD i 0 else previous.getD (i - 1) 0 + 1

/-- The `y` that goes with `x` on the diagonal of entry `i` in round `d`. -/
def height (d i x : Nat) : Nat := x + d - 2 * i

/-- The row after `previous`; the row of round 0 comes after the empty row. -/
def next (a b : Array Nat) (previous : Row) : Row :=
  Array.ofFn (n := previous.size + 1) fun i =>
    let x := entry previous i
    follow a b x (height previous.size i x)

/-- Each row holds one entry more than the row before. -/
@[simp] theorem size_next (a b : Array Nat) (previous : Row) :
    (next a b previous).size = previous.size + 1 := by
  simp [next]

end Linewise.Frontier
