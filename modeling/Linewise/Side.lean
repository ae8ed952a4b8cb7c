/-!
# Sides

A two-way comparison has a left and a right side; a three-way one also has the
base that both were derived from. Values kept per side are records with one
field for each, in the order left, (base,) right.
-/

namespace Linewise

/-- One side of a two-way comparison, or one changed side of a merge. -/
inductive Side where
  | left
  | right
  deriving DecidableEq, Repr

/-- One side of a three-way comparison. -/
inductive ThreeSide where
  | left
  | base
  | right
  deriving DecidableEq, Repr

/-- A value for each of two sides. -/
structure TwoSided (α : Type) where
  left : α
  right : α
  deriving DecidableEq, Repr

/-- A value for each of three sides. -/
structure ThreeSided (α : Type) where
  left : α
  base : α
  right : α
  deriving DecidableEq, Repr

namespace Side

/-- Both sides, left first. -/
def all : List Side := [.left, .right]

/-- Position of the side in left-to-right order. -/
def index : Side → Nat
  | .left => 0
  | .right => 1

/-- The side's name. -/
def name : Side → String
  | .left => "Left"
  | .right => "Right"

/-- The same side of a three-way comparison. -/
def toThreeSide : Side → ThreeSide
  | .left => .left
  | .right => .right

/-- The other side. -/
def other : Side → Side
  | .left => .right
  | .right => .left

/-- What holds on both sides holds on the left and on the right. -/
theorem forall_iff {P : Side → Prop} : (∀ side, P side) ↔ P .left ∧ P .right := by
  constructor
  · intro h
    exact ⟨h .left, h .right⟩
  · rintro ⟨hleft, hright⟩ side
    cases side with
    | left => exact hleft
    | right => exact hright

/-- What holds on some side holds on the left or on the right. -/
theorem exists_iff {P : Side → Prop} : (∃ side, P side) ↔ P .left ∨ P .right := by
  constructor
  · rintro ⟨side, h⟩
    cases side with
    | left => exact .inl h
    | right => exact .inr h
  · rintro (h | h)
    · exact ⟨.left, h⟩
    · exact ⟨.right, h⟩

end Side

namespace ThreeSide

/-- All three sides, left first and the base in the middle. -/
def all : List ThreeSide := [.left, .base, .right]

/-- Position of the side in left-to-right order. -/
def index : ThreeSide → Nat
  | .left => 0
  | .base => 1
  | .right => 2

/-- The side's name. -/
def name : ThreeSide → String
  | .left => "Left"
  | .base => "Base"
  | .right => "Right"

/-- The changed side that this is; the base is none. -/
def asSide : ThreeSide → Option Side
  | .left => some .left
  | .base => none
  | .right => some .right

end ThreeSide

namespace TwoSided

variable {α : Type}

/-- The value on one side. -/
def get (v : TwoSided α) : Side → α
  | .left => v.left
  | .right => v.right

/-- The values in the order of `Side.all`. -/
def toList (v : TwoSided α) : List α := Side.all.map v.get

/-- The values with the sides exchanged. -/
def swap (v : TwoSided α) : TwoSided α := ⟨v.right, v.left⟩

/-- Exchanging the sides exchanges what is found on them. -/
theorem get_swap (v : TwoSided α) (s : Side) : v.swap.get s = v.get s.other := by
  cases s <;> rfl

end TwoSided

namespace ThreeSided

variable {α : Type}

/-- The value on one side. -/
def get (v : ThreeSided α) : ThreeSide → α
  | .left => v.left
  | .base => v.base
  | .right => v.right

/-- The values in the order of `ThreeSide.all`. -/
def toList (v : ThreeSided α) : List α := ThreeSide.all.map v.get

/-- The values with left and right exchanged. -/
def swap (v : ThreeSided α) : ThreeSided α := ⟨v.right, v.base, v.left⟩

end ThreeSided

end Linewise
