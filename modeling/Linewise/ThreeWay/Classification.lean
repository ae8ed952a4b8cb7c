import Linewise.Policy
import Linewise.Text.Document
import Linewise.ThreeWay.Region

/-!
# Classifying a region

A region is judged by what the three documents hold there. Each side is compared
with the base literally; only left and right are compared with each other under
the policy. The outcome says which sides changed and whether the change can be
resolved.
-/

namespace Linewise

/-- What happened in a region, seen from the base. -/
inductive RegionKind where
  /-- Lines were added where the base has none. -/
  | inserted
  /-- The base's lines are gone. -/
  | deleted
  /-- The base's lines gave way to others. -/
  | modified
  /-- Both sides changed, and not alike. -/
  | conflict
  deriving DecidableEq, Repr

/-- The name of a kind of region. -/
def RegionKind.name : RegionKind → String
  | .inserted => "Inserted"
  | .deleted => "Deleted"
  | .modified => "Modified"
  | .conflict => "Conflict"

/-- The judgement on a region. -/
structure Classification where
  /-- What happened. -/
  kind : RegionKind
  /-- Whether the left side differs from the base. -/
  leftChanged : Bool
  /-- Whether the right side differs from the base. -/
  rightChanged : Bool
  deriving DecidableEq, Repr

namespace Classification

/-- Both sides changed. -/
def both (kind : RegionKind) : Classification := ⟨kind, true, true⟩

/-- Only the left side changed. -/
def leftOnly (kind : RegionKind) : Classification := ⟨kind, true, false⟩

/-- Only the right side changed. -/
def rightOnly (kind : RegionKind) : Classification := ⟨kind, false, true⟩

/-- Whether the change cannot be resolved. -/
def isConflict (c : Classification) : Bool := c.kind == .conflict

/-- Whether one side differs from the base. -/
def changed (c : Classification) : Side → Bool
  | .left => c.leftChanged
  | .right => c.rightChanged

/-- The same judgement with left and right exchanged. -/
def swap (c : Classification) : Classification := ⟨c.kind, c.rightChanged, c.leftChanged⟩

/-- Whether left and right hold the same under the policy. Where no blank counts, a side without
lines is read as an empty text. -/
def sidesEqual (policy : Policy) (left right : Option String) : Bool :=
  if policy = .ignoreWhitespace then
    policy.contentEqual (some (left.getD "")) (some (right.getD ""))
  else policy.contentEqual left right

/-- The kind of a change that both sides made: `alike` if they agree under the policy. -/
def ofBoth (policy : Policy) (alike : RegionKind) (left right : Option String) : Classification :=
  both (if sidesEqual policy left right then alike else .conflict)

/-- The kind of a change that one side alone made to lines of the base. -/
def kindOfSide (content : Option String) : RegionKind :=
  if content.isNone then .deleted else .modified

/-- The judgement on a region with the given contents, where a side without lines has none. -/
def ofContents (policy : Policy) (contents : ThreeSided (Option String)) :
    Except InputError Classification :=
  let left := contents.left
  let right := contents.right
  match contents.base with
  | none =>
    if left.isNone then .ok (rightOnly .inserted)
    else if right.isNone then .ok (leftOnly .inserted)
    else .ok (ofBoth policy .inserted left right)
  | some base =>
    if left.isNone && right.isNone then .ok (both .deleted)
    else if left = some base then
      if right = some base then .error .unchangedRegion else .ok (rightOnly (kindOfSide right))
    else if right = some base then .ok (leftOnly (kindOfSide left))
    else .ok (ofBoth policy .modified left right)

end Classification

/-- What three documents hold in a region, refused if a range reaches past the end of its
document; the left one is read first, then the base. -/
def Region.contents (region : Region) (documents : ThreeSided Document) :
    Except InputError (ThreeSided (Option String)) := do
  let left ← documents.left.rangeContent region.left
  let base ← documents.base.rangeContent region.base
  let right ← documents.right.rangeContent region.right
  return ⟨left, base, right⟩

/-- Judges a region of three documents under a policy. It is refused if it reaches past the end of
a document, or if neither side differs from the base. -/
def classify (policy : Policy) (documents : ThreeSided Document) (region : Region) :
    Except InputError Classification := do
  Classification.ofContents policy (← region.contents documents)

end Linewise
