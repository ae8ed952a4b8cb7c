import Linewise.ThreeWay.Classification

/-!
# Changes

A change is a region with the judgement on it. The judgement is made when the
change is, and made anew only on request; a refused request leaves it as it was.
-/

namespace Linewise

/-- A region with its judgement. -/
structure Change where
  /-- The place in the three documents. -/
  region : Region
  /-- What was found there. -/
  classification : Classification
  deriving DecidableEq, Repr

namespace Change

/-- The change in a region of three documents. -/
def ofRegion (policy : Policy) (documents : ThreeSided Document) (region : Region) :
    Except InputError Change := do
  return ⟨region, ← classify policy documents region⟩

/-- The same region judged anew. -/
def reclassify (c : Change) (policy : Policy) (documents : ThreeSided Document) :
    Except InputError Change :=
  ofRegion policy documents c.region

/-- The change after a request to judge it anew, which keeps it as it is if refused. -/
def update (c : Change) (policy : Policy) (documents : ThreeSided Document) : Change :=
  match c.reclassify policy documents with
  | .ok next => next
  | .error _ => c

/-- Whether the change cannot be resolved. -/
def isConflict (c : Change) : Bool := c.classification.isConflict

/-- Whether a side takes part in the change; the base always does. -/
def involves (c : Change) (side : ThreeSide) : Bool :=
  match side.asSide with
  | some side => c.classification.changed side
  | none => true

/-- The same change with left and right exchanged. -/
def swap (c : Change) : Change := ⟨c.region.swap, c.classification.swap⟩

end Change

end Linewise
