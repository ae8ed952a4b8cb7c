import Linewise.Text.Line
import Linewise.Script.Shortest

/-!
# Scripts anchored on important lines

Short lines such as a lone bracket match almost anywhere and can pull a shortest
script out of shape. Here the important lines alone are matched first. Their
matches are anchors, and each gap between two anchors is then solved with all
its lines.
-/

namespace Linewise.Script

/-- The indices of the lines with at least `threshold` visible characters. -/
def importantIndices (threshold : Nat) (lines : Array String) : Array Nat :=
  (Array.range lines.size).filter fun i => lines[i]?.any (threshold ≤ Line.visibleCount ·)

/-- The pairs of important lines that a shortest script of the important lines alone matches. -/
def anchors (threshold : Nat) (lines₁ lines₂ : Array String) (keys₁ keys₂ : Array Nat) :
    List (Nat × Nat) :=
  let indices₁ := importantIndices threshold lines₁
  let indices₂ := importantIndices threshold lines₂
  let coarse := shortestPatch (indices₁.map (keys₁.getD · 0)) (indices₂.map (keys₂.getD · 0))
  (coarse.matchedPairs indices₁.size indices₂.size).map fun (i, j) =>
    (indices₁.getD i 0, indices₂.getD j 0)

/-- The patch of a shortest script between lines `i` to `i'` and lines `j` to `j'`. -/
def gapPatch (keys₁ keys₂ : Array Nat) (i j i' j' : Nat) : Patch :=
  (shortestPatch (keys₁.extract i i') (keys₂.extract j j')).offset i j

/-- The patches of the gaps before, between and after anchors, from lines `i` and `j` on. -/
def gapPatches (keys₁ keys₂ : Array Nat) (i j : Nat) : List (Nat × Nat) → Patch
  | [] => gapPatch keys₁ keys₂ i j keys₁.size keys₂.size
  | (p, q) :: rest =>
    gapPatch keys₁ keys₂ i j p q ++ gapPatches keys₁ keys₂ (p + 1) (q + 1) rest

/-- The patch in which all anchors stay matched and each gap between them is solved by a shortest
script. -/
def anchoredPatch (threshold : Nat) (lines₁ lines₂ : Array String) (keys₁ keys₂ : Array Nat) :
    Patch :=
  gapPatches keys₁ keys₂ 0 0 (anchors threshold lines₁ lines₂ keys₁ keys₂)

end Linewise.Script
