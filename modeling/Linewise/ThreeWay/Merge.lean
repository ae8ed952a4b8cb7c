import Linewise.ThreeWay.Alignment
import Linewise.ThreeWay.Change

/-!
# Three-way merge

The merged document runs through the base. Unchanged lines come from the base,
and each changed region from the side that changed it, from the left if both did
alike. If there are conflicts, they are listed instead, each with the line of the
merged document at which it stands.
-/

namespace Linewise

/-- The changes that left and right made to the base, in order. -/
def compareThreeWay (policy : Policy) (options : CompareOptions) (documents : ThreeSided Document) :
    Except InputError (List Change) :=
  (align policy options documents).mapM (Change.ofRegion policy documents)

/-- A region that both sides changed, and not alike. -/
structure Conflict where
  /-- The place in the three documents. -/
  region : Region
  /-- Number of merged lines before it. -/
  mergedLine : Nat
  /-- The base's lines. -/
  base : List String
  /-- The left side's lines. -/
  left : List String
  /-- The right side's lines. -/
  right : List String
  deriving DecidableEq, Repr

/-- What comes of a merge. -/
inductive MergeOutcome where
  /-- The text of the merged document. -/
  | merged (text : String)
  /-- What is to be resolved by hand. -/
  | conflicts (found : List Conflict)
  deriving DecidableEq, Repr

/-- Whether something is to be resolved by hand. -/
def MergeOutcome.hasConflicts : MergeOutcome → Bool
  | .merged _ => false
  | .conflicts _ => true

/-- A merge under way. -/
structure MergeState where
  /-- The lines of the merged document so far; a conflict adds none. -/
  lines : Array String
  /-- The conflicts so far, first one first. -/
  conflicts : Array Conflict
  /-- The first line of the base that is not yet passed. -/
  baseLine : Nat
  deriving DecidableEq, Repr

namespace MergeState

/-- The state before the first region. -/
def initial : MergeState := ⟨#[], #[], 0⟩

/-- Copies the unchanged lines of the base before a region, then records the region as a conflict or
takes its lines: from the left side if the left changed, else from the right one. -/
def step (policy : Policy) (documents : ThreeSided Document) (s : MergeState) (region : Region) :
    Except InputError MergeState := do
  let change ← Change.ofRegion policy documents region
  let unchanged ← documents.base.slice (.span s.baseLine region.base.start)
  let lines := s.lines ++ unchanged
  if change.isConflict then
    let base ← documents.base.slice region.base
    let left ← documents.left.slice region.left
    let right ← documents.right.slice region.right
    return ⟨lines, s.conflicts.push ⟨region, lines.size, base, left, right⟩, region.base.stop⟩
  else
    let taken ←
      if change.classification.leftChanged then documents.left.slice region.left
      else documents.right.slice region.right
    return ⟨lines ++ taken, s.conflicts, region.base.stop⟩

/-- Copies the lines of the base after the last region and gives the text, or the conflicts if there
are any. -/
def finish (documents : ThreeSided Document) (s : MergeState) : Except InputError MergeOutcome := do
  let unchanged ← documents.base.slice (.span s.baseLine documents.base.lineCount)
  return if s.conflicts.isEmpty then .merged (joinLines (s.lines ++ unchanged).toList)
    else .conflicts s.conflicts.toList

end MergeState

/-- Merges the changes of left and right into the base. -/
def merge (policy : Policy) (options : CompareOptions) (documents : ThreeSided Document) :
    Except InputError MergeOutcome := do
  let s ← (align policy options documents).foldlM (MergeState.step policy documents) .initial
  s.finish documents

namespace Conflict

/-- The lines of a conflict between markers. The base's lines are shown only if there are any. -/
def markedLines (c : Conflict) (leftName rightName : String) : List String :=
  ("<<<<<<< " ++ leftName) :: c.left ++
    (if c.base.isEmpty then [] else "||||||| base" :: c.base) ++
    "=======" :: c.right ++ [">>>>>>> " ++ rightName]

/-- The text of a conflict between markers, with a line feed after every line. -/
def markedText (c : Conflict) (leftName rightName : String) : String :=
  String.join ((c.markedLines leftName rightName).map (· ++ "\n"))

end Conflict

end Linewise
