import Linewise.Range
import Linewise.Text.Lines

/-!
# Documents

A document is its lines. Its text, and where each line lies in the text, follow
from them: a line feed stands between each two lines.
-/

namespace Linewise

/-- A document, by its lines. -/
structure Document where
  /-- The lines, first one first. -/
  lines : Array String
  deriving DecidableEq, Repr

/-- A stretch of a text, in bytes of its UTF-8 form. -/
structure ByteSpan where
  /-- Offset of the first byte. -/
  start : Nat
  /-- Offset after the last byte. -/
  stop : Nat
  deriving DecidableEq, Repr

namespace Document

/-- The document with the given lines; there may be none. -/
def ofLines (lines : List String) : Document := ⟨lines.toArray⟩

/-- The document with the given text, which always has at least one line. -/
def ofText (text : String) : Document := ofLines (splitLines text)

/-- The whole text. -/
def text (d : Document) : String := joinLines d.lines.toList

/-- Number of lines. -/
def lineCount (d : Document) : Nat := d.lines.size

/-- The line at `index`, if there is one. -/
def line? (d : Document) (index : Nat) : Option String := d.lines[index]?

/-- Where lines lie in a text in which the first of them starts at byte `start`. -/
def spansFrom (start : Nat) : List String → List ByteSpan
  | [] => []
  | line :: rest =>
    ⟨start, start + line.utf8ByteSize⟩ :: spansFrom (start + line.utf8ByteSize + 1) rest

/-- Where each line lies in the text, without its line feed. -/
def spans (d : Document) : List ByteSpan := spansFrom 0 d.lines.toList

/-- Where the line at `index` lies in the text, if there is one. -/
def span? (d : Document) (index : Nat) : Option ByteSpan := d.spans[index]?

/-- The lines of the document that a range covers; those past the end are not there. -/
def linesIn (d : Document) (r : LineRange) : List String :=
  (d.lines.extract r.start r.stop).toList

/-- The lines of a range, refused if it reaches past the end. -/
def slice (d : Document) (r : LineRange) : Except InputError (List String) := do
  r.checkBounds d.lineCount
  return d.linesIn r

/-- The text of a range; an empty range has none, which differs from an empty line. -/
def contentIn (d : Document) (r : LineRange) : Option String :=
  if r.isEmpty then none else some (joinLines (d.linesIn r))

/-- The text of a range, refused if it reaches past the end. -/
def rangeContent (d : Document) (r : LineRange) : Except InputError (Option String) := do
  r.checkBounds d.lineCount
  return d.contentIn r

/-- A document of given lines has those lines. -/
@[simp] theorem toList_lines_ofLines (lines : List String) :
    (ofLines lines).lines.toList = lines := rfl

/-- There is one span for each line. -/
theorem length_spansFrom (start : Nat) (lines : List String) :
    (spansFrom start lines).length = lines.length := by
  induction lines generalizing start with
  | nil => rfl
  | cons line rest ih => simp [spansFrom, ih]

end Document

end Linewise
