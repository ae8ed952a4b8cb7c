import Linewise.Text.Line
import Linewise.Patch.Fuse

/-!
# Sliding fragments

A pure insertion or deletion next to lines that equal its own can be moved along
them without changing the cost of the patch. Of all positions between its
neighbours, the preferred one is, in this order:

* the highest position, if it touches the fragment above,
* the lowest position, if it touches the fragment below,
* the highest one whose last changed line is blank,
* the highest one whose first changed line is blank,
* the one it has.

`Patch.settle` moves every fragment of a patch to its preferred position and
fuses those that then touch.
-/

namespace Linewise

namespace Fragment

/-- The only side on which the fragment has lines, if there is just one. -/
def pureSide (f : Fragment) : Option Side :=
  if f.deleted.isEmpty then (if f.inserted.isEmpty then none else some .right)
  else if f.inserted.isEmpty then some .left else none

end Fragment

namespace Patch

/-- How many lines the block from `start` to `stop` can move up without passing `lower`: as long
as the line above it equals its last line. -/
def roomAbove (keys : Array Nat) (lower : Nat) : (start stop : Nat) → Nat
  | 0, _ => 0
  | start + 1, stop =>
    if lower < start + 1 ∧ keys[start]? = keys[stop - 1]? then
      roomAbove keys lower start (stop - 1) + 1
    else 0

/-- How many of `limit` lines the block from `start` to `stop` can move down: as long as the line
below it equals its first line. -/
def roomBelow (keys : Array Nat) : (limit start stop : Nat) → Nat
  | 0, _, _ => 0
  | limit + 1, start, stop =>
    if keys[start]? = keys[stop]? then roomBelow keys limit (start + 1) (stop + 1) + 1 else 0

/-- Whether there is a line at `index` and it is blank. -/
def blankAt (lines : Array String) (index : Nat) : Bool := lines[index]?.any Line.isBlank

/-- The preferred first line of a block with `up` lines of room above and `down` below, where
`above` is the end of the fragment above and `below` the start of the one below. -/
def preferredStart (lines : Array String) (above below : Option Nat) (up down : Nat)
    (block : LineRange) : Nat :=
  let starts := (List.range (up + down + 1)).map (block.start - up + ·)
  if above = some (block.start - up) then block.start - up
  else if below = some (block.stop + down) then block.start + down
  else
    match starts.find? fun start => blankAt lines (start + block.size - 1) with
    | some start => start
    | none => (starts.find? (blankAt lines)).getD block.start

/-- Moves a fragment with lines on one side only to its preferred position between the fragment
above and the one below, and leaves any other where it is. -/
def slide (keys : TwoSided (Array Nat)) (lines : TwoSided (Array String))
    (previous next : Option Fragment) (f : Fragment) : Fragment :=
  match f.pureSide with
  | none => f
  | some side =>
    let block := f.range side
    let above := previous.map fun p => (p.range side).stop
    let below := next.map fun p => (p.range side).start
    let up := roomAbove (keys.get side) (above.getD 0) block.start block.stop
    let down := roomBelow (keys.get side) (below.getD (keys.get side).size - block.stop)
      block.start block.stop
    f.shift (preferredStart (lines.get side) above below up down block - block.start)

/-- Slides the fragments in order. The fragment above is the one that slid before, with all that
it was fused with, and the fragment below has not slid yet. -/
def slideAll (keys : TwoSided (Array Nat)) (lines : TwoSided (Array String)) :
    (previous : Option Fragment) → Patch → List Fragment
  | _, [] => []
  | previous, f :: rest =>
    let slid := slide keys lines previous rest.head? f
    let last := match previous with
      | some p => if p.touches slid then p.union slid else slid
      | none => slid
    slid :: slideAll keys lines (some last) rest

/-- Moves every fragment to its preferred position and fuses those that touch. -/
def settle (keys : TwoSided (Array Nat)) (lines : TwoSided (Array String)) (p : Patch) : Patch :=
  fuse (slideAll keys lines none p)

end Patch

end Linewise
