import Linewise.Range
import Linewise.Side

/-!
# Fragments

A fragment is one place where two documents differ: lines deleted from the
first and lines inserted from the second. Either range may be empty, not both.
-/

namespace Linewise

/-- What a fragment does to the first document. -/
inductive ChangeKind where
  /-- Lines of the second document are added. -/
  | insert
  /-- Lines of the first document go. -/
  | delete
  /-- Lines of the first document give way to lines of the second. -/
  | modify
  deriving DecidableEq, Repr

/-- The name of a kind of change. -/
def ChangeKind.name : ChangeKind → String
  | .insert => "Insert"
  | .delete => "Delete"
  | .modify => "Modify"

/-- One changed place between two documents. -/
structure Fragment where
  /-- The lines of the first document that go. -/
  deleted : LineRange
  /-- The lines of the second document that come. -/
  inserted : LineRange
  deriving DecidableEq, Repr

namespace Fragment

/-- The fragment with the two ranges, refused if both are empty. -/
def ofRanges (deleted inserted : LineRange) : Except InputError Fragment :=
  if deleted.isEmpty && inserted.isEmpty then .error .emptyFragment else .ok ⟨deleted, inserted⟩

/-- Two ranges make a fragment unless neither of them has a line. -/
theorem ofRanges_eq (deleted inserted : LineRange) :
    ofRanges deleted inserted =
      if deleted.size + inserted.size = 0 then .error .emptyFragment
      else .ok ⟨deleted, inserted⟩ := by
  have hempty : (deleted.isEmpty && inserted.isEmpty) = true ↔
      deleted.size + inserted.size = 0 := by
    rw [Bool.and_eq_true, LineRange.isEmpty_iff_size, LineRange.isEmpty_iff_size]
    omega
  simp only [ofRanges, hempty]

/-- First line in the first document. -/
def start₁ (f : Fragment) : Nat := f.deleted.start

/-- End in the first document. -/
def stop₁ (f : Fragment) : Nat := f.deleted.stop

/-- First line in the second document. -/
def start₂ (f : Fragment) : Nat := f.inserted.start

/-- End in the second document. -/
def stop₂ (f : Fragment) : Nat := f.inserted.stop

/-- A fragment never ends before it starts in the first document. -/
theorem start₁_le_stop₁ (f : Fragment) : f.start₁ ≤ f.stop₁ := f.deleted.start_le_stop

/-- A fragment never ends before it starts in the second document. -/
theorem start₂_le_stop₂ (f : Fragment) : f.start₂ ≤ f.stop₂ := f.inserted.start_le_stop

/-- The range on one side; the first document is on the left. -/
def range (f : Fragment) : Side → LineRange
  | .left => f.deleted
  | .right => f.inserted

/-- What the fragment does. -/
def kind (f : Fragment) : ChangeKind :=
  if f.deleted.isEmpty then .insert else if f.inserted.isEmpty then .delete else .modify

/-- Number of rows the change takes when its two sides are shown side by side. -/
def weight (f : Fragment) : Nat := max f.deleted.size f.inserted.size

/-- Number of changed lines, on both sides together. -/
def cost (f : Fragment) : Nat := f.deleted.size + f.inserted.size

/-- The number of changed lines by the four bounds. -/
theorem cost_eq (f : Fragment) : f.cost = (f.stop₁ - f.start₁) + (f.stop₂ - f.start₂) := rfl

/-- The number of rows by the four bounds. -/
theorem weight_eq (f : Fragment) : f.weight = max (f.stop₁ - f.start₁) (f.stop₂ - f.start₂) := rfl

/-- The fragment with its ranges moved down by `delta₁` and `delta₂` lines. -/
def offset (f : Fragment) (delta₁ delta₂ : Nat) : Fragment :=
  ⟨f.deleted.offset delta₁, f.inserted.offset delta₂⟩

/-- The fragment with both ranges moved by `delta` lines, where no bound falls below line 0. -/
def shift (f : Fragment) (delta : Int) : Fragment :=
  ⟨f.deleted.shift delta, f.inserted.shift delta⟩

/-- The largest number of a line in an interface of 64-bit words. -/
def maxLine : Nat := Nat.pow 2 64 - 1

/-- The shifted fragment for an interface of 64-bit words: each bound stops at 0 and at
`maxLine`. -/
def shiftSaturating (f : Fragment) (delta : Int) : Fragment :=
  ⟨(f.deleted.shift delta).clamp maxLine, (f.inserted.shift delta).clamp maxLine⟩

/-- In documents whose lines 64-bit words can number, a shift is never held back. -/
theorem shiftSaturating_eq_shift {f : Fragment} {delta : Int}
    (h : ∀ side, ((f.shift delta).range side).stop ≤ maxLine) :
    f.shiftSaturating delta = f.shift delta := by
  have hdeleted : (f.deleted.shift delta).stop ≤ maxLine := h .left
  have hinserted : (f.inserted.shift delta).stop ≤ maxLine := h .right
  rw [shiftSaturating, LineRange.clamp_eq_self hdeleted, LineRange.clamp_eq_self hinserted, shift]

/-- Whether `next` starts where this fragment ends, on both sides. -/
def touches (f next : Fragment) : Bool := f.stop₁ == next.start₁ && f.stop₂ == next.start₂

/-- This fragment, a later one and all lines between them. -/
def union (f next : Fragment) : Fragment :=
  ⟨.span f.start₁ next.stop₁, .span f.start₂ next.stop₂⟩

/-- The union, if this fragment starts no later than `next` ends on both sides. -/
def union? (f next : Fragment) : Option Fragment :=
  if f.start₁ ≤ next.stop₁ ∧ f.start₂ ≤ next.stop₂ then some (f.union next) else none

/-- A fragment can be joined to one that starts no earlier than it ends, as one does that touches it
or stands behind a separator. -/
theorem union?_eq_some {f next : Fragment}
    (h : ∀ side, (f.range side).stop ≤ (next.range side).start) :
    f.union? next = some (f.union next) := by
  have h₁ : f.stop₁ ≤ next.start₁ := h .left
  have h₂ : f.stop₂ ≤ next.start₂ := h .right
  have := f.start₁_le_stop₁
  have := f.start₂_le_stop₂
  have := next.start₁_le_stop₁
  have := next.start₂_le_stop₂
  exact if_pos ⟨by omega, by omega⟩

/-- The same change seen from the second document. -/
def swap (f : Fragment) : Fragment := ⟨f.inserted, f.deleted⟩

/-- The four bounds of the fragment, those in the first document first. -/
def bounds (f : Fragment) : List Nat := [f.start₁, f.stop₁, f.start₂, f.stop₂]

end Fragment

end Linewise
