import Linewise.Text.Line
import Linewise.Patch.Basic

/-!
# Tidying a patch

Two passes make a patch easier to read. Fragments that only one unimportant line
keeps apart become one, unless the joined change is taller than the two. Then
line pairs that are literally equal are dropped from both ends of each fragment.
-/

namespace Linewise.Patch

/-- Whether there is a line at `index` with fewer than `threshold` visible characters. -/
def unimportantAt (threshold : Nat) (lines : Array String) (index : Nat) : Bool :=
  lines[index]?.any (Line.visibleCount · < threshold)

/-- Whether exactly one line on each side, unimportant on both, keeps `f` and `g` apart. -/
def thinlySeparated (threshold : Nat) (lines : TwoSided (Array String)) (f g : Fragment) : Bool :=
  g.start₁ == f.stop₁ + 1 && g.start₂ == f.stop₂ + 1 &&
    unimportantAt threshold lines.left f.stop₁ && unimportantAt threshold lines.right f.stop₂

/-- Whether `f` and `g` are to become one fragment: one unimportant line keeps them apart, and
the joined change is no taller than the two. -/
def joins (threshold : Nat) (lines : TwoSided (Array String)) (f g : Fragment) : Bool :=
  thinlySeparated threshold lines f g && (f.union g).weight ≤ f.weight + g.weight

/-- Joins fragments across thin separators, from `f` on. -/
def joinFrom (threshold : Nat) (lines : TwoSided (Array String)) (f : Fragment) : Patch → Patch
  | [] => [f]
  | g :: rest =>
    if joins threshold lines f g then joinFrom threshold lines (f.union g) rest
    else f :: joinFrom threshold lines g rest

/-- Joins fragments across thin separators. -/
def joinThin (threshold : Nat) (lines : TwoSided (Array String)) : Patch → Patch
  | [] => []
  | f :: rest => joinFrom threshold lines f rest

/-- How many of `room` line pairs from `i` and `j` on are literally equal without a break. -/
def equalAfter (lines : TwoSided (Array String)) : (room i j : Nat) → Nat
  | 0, _, _ => 0
  | room + 1, i, j =>
    if lines.left[i]? = lines.right[j]? then equalAfter lines room (i + 1) (j + 1) + 1 else 0

/-- How many of `room` line pairs before `i` and `j` are literally equal without a break. -/
def equalBefore (lines : TwoSided (Array String)) : (room i j : Nat) → Nat
  | 0, _, _ => 0
  | room + 1, i, j =>
    if lines.left[i - 1]? = lines.right[j - 1]? then equalBefore lines room (i - 1) (j - 1) + 1
    else 0

/-- The fragment without the literally equal line pairs at its start and then at its end, or
nothing if no line is left. -/
def trimEnds (lines : TwoSided (Array String)) (f : Fragment) : Option Fragment :=
  let front := equalAfter lines (min f.deleted.size f.inserted.size) f.start₁ f.start₂
  let back := equalBefore lines (min f.deleted.size f.inserted.size - front) f.stop₁ f.stop₂
  (Fragment.ofRanges (.span (f.start₁ + front) (f.stop₁ - back))
    (.span (f.start₂ + front) (f.stop₂ - back))).toOption

/-- Joins fragments across thin separators, then trims each one. -/
def tidy (threshold : Nat) (lines : TwoSided (Array String)) (p : Patch) : Patch :=
  (joinThin threshold lines p).filterMap (trimEnds lines)

end Linewise.Patch
