/-!
# Text as lines

A text is cut at its line feeds: with `k` of them it has `k + 1` lines, so the
empty text has one empty line and a final line feed is followed by one more.
-/

namespace Linewise

/-- The lines of a text, without their line feeds. -/
def splitLines (text : String) : List String :=
  (text.toList.splitOn '\n').map String.ofList

/-- The text whose lines are `lines`, with a line feed between each two. -/
def joinLines (lines : List String) : String := "\n".intercalate lines

/-- Every text has at least one line. -/
theorem splitLines_ne_nil (text : String) : splitLines text ≠ [] := by
  simp [splitLines]

end Linewise
