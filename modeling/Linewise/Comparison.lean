import Linewise.Key
import Linewise.Text.Document
import Linewise.Patch.Slide
import Linewise.Patch.Tidy
import Linewise.Script.Anchored

/-!
# Comparing two documents

Lines are numbered under the policy, a script between the numbers gives a first
patch, its fragments are moved to their preferred positions, and the patch is
tidied.
-/

namespace Linewise

/-- What can be chosen in a comparison besides the policy. -/
structure CompareOptions where
  /-- Lines with fewer visible characters than this are unimportant. -/
  threshold : Nat := 3
  /-- Whether important lines are matched before all others. -/
  anchored : Bool := false
  deriving DecidableEq, Repr

/-- Compares two lists of lines. -/
def compareLines (policy : Policy) (options : CompareOptions) (lines₁ lines₂ : Array String) :
    Patch :=
  let keys := internLines policy lines₁ lines₂
  let raw :=
    if options.anchored then Script.anchoredPatch options.threshold lines₁ lines₂ keys.1 keys.2
    else Script.shortestPatch keys.1 keys.2
  (raw.settle ⟨keys.1, keys.2⟩ ⟨lines₁, lines₂⟩).tidy options.threshold ⟨lines₁, lines₂⟩

/-- Compares two documents. Documents that are equal under the policy give the empty patch. -/
def compare (policy : Policy) (options : CompareOptions) (a b : Document) : Patch :=
  compareLines policy options a.lines b.lines

end Linewise
