import Linewise.Script.Direct
import Linewise.Script.Snake

/-!
# Shortest scripts for sequences of any length

What two sequences share at either end is kept. Between, a short gap is searched
directly; a long one is split at its middle snake into two smaller gaps, so that
memory stays linear however many elements differ.
-/

namespace Linewise.Script

open Frontier

/-- A gap with at most this many elements on both sides together is searched directly. -/
def directLimit : Nat := 1024

/-- Number of elements that two sequences share at the front. -/
def sharedFront (a b : Array Nat) : Nat := follow a b 0 0

/-- Number of elements that two sequences share at the back, after `front` elements. -/
def sharedBack (front : Nat) (a b : Array Nat) : Nat :=
  follow (a.extract front a.size).reverse (b.extract front b.size).reverse 0 0

/-- The part of a sequence without `front` elements at its start and `back` at its end. -/
def inner (front back : Nat) (a : Array Nat) : Array Nat := a.extract front (a.size - back)

/-- The inner part of a sequence is not longer than the sequence. -/
theorem size_inner_le (front back : Nat) (a : Array Nat) : (inner front back a).size ≤ a.size := by
  simp only [inner, Array.size_extract]
  omega

/-- A shortest script from `a` to `b`. -/
def shortest (a b : Array Nat) : Script :=
  let front := sharedFront a b
  let back := sharedBack front a b
  let a' := inner front back a
  let b' := inner front back b
  let between :=
    if a'.isEmpty || b'.isEmpty || a'.size + b'.size ≤ directLimit then direct a' b'
    else
      match Snake.middle? a' b' with
      | some s =>
        if s.xStart + s.yStart < a'.size + b'.size ∧ 0 < s.xStop + s.yStop then
          shortest (a'.extract 0 s.xStart) (b'.extract 0 s.yStart) ++
            kept (s.xStop - s.xStart) ++
            shortest (a'.extract s.xStop a'.size) (b'.extract s.yStop b'.size)
        else replaced a'.size b'.size
      | none => replaced a'.size b'.size
  kept front ++ between ++ kept back
termination_by a.size + b.size
decreasing_by
  all_goals
    rename_i long splits
    have left : a'.size ≤ a.size := size_inner_le ..
    have right : b'.size ≤ b.size := size_inner_le ..
  · change (a'.extract 0 s.xStart).size + (b'.extract 0 s.yStart).size < _
    simp only [Array.size_extract]
    omega
  · change (a'.extract s.xStop a'.size).size + (b'.extract s.yStop b'.size).size < _
    have filled : 0 < a'.size ∧ 0 < b'.size := by
      simp only [Bool.or_eq_true, not_or, Array.isEmpty_iff_size_eq_zero] at long
      omega
    simp only [Array.size_extract]
    omega

/-- The patch of a shortest script between the inner parts of `a` and `b`, which begin after the
elements that both share at the front. -/
def shortestPatch (a b : Array Nat) : Patch :=
  let front := sharedFront a b
  let back := sharedBack front a b
  toPatchFrom front front front front (shortest (inner front back a) (inner front back b))

end Linewise.Script
