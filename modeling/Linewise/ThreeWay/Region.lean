import Linewise.Range
import Linewise.Side

/-!
# Regions

A region is one place in three documents at once: a range of lines in the left
document, in the base and in the right document. Any of the ranges may be empty,
but not all three.
-/

namespace Linewise

/-- A range of lines on each of three sides. -/
abbrev Region := ThreeSided LineRange

namespace Region

/-- Whether no side has a line. -/
def isEmpty (r : Region) : Bool := r.left.isEmpty && r.base.isEmpty && r.right.isEmpty

/-- The region of the given ranges, refused if all of them are empty. -/
def ofRanges (left base right : LineRange) : Except InputError Region :=
  let r : Region := ⟨left, base, right⟩
  if r.isEmpty then .error .emptyRegion else .ok r

end Region

end Linewise
