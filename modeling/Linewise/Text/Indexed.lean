import Linewise.Text.Document

/-!
# Documents kept as one text

A document can be kept as its text, with the place of each line in it. A line is then
read out of the text by its span, and so is the content of a range: from where its
first line starts to where its last line ends.
-/

namespace Linewise

/-- What lies in a span of a text. -/
def ByteSpan.read (text : String) (s : ByteSpan) : String :=
  String.Pos.Raw.extract text ⟨s.start⟩ ⟨s.stop⟩

/-- A text with the place of each of its lines. -/
structure IndexedText where
  /-- The whole text. -/
  text : String
  /-- Where each line lies in the text, without its line feed. -/
  spans : Array ByteSpan
  deriving DecidableEq, Repr

namespace IndexedText

/-- Where the lines lie that line feeds cut out of bytes. The first byte stands at `offset`, and the
line it belongs to has started at `start`. -/
def cutAtFeeds (start offset : Nat) : List UInt8 → List ByteSpan
  | [] => [⟨start, offset⟩]
  | byte :: rest =>
    if byte = '\n'.toUInt8 then ⟨start, offset⟩ :: cutAtFeeds (offset + 1) (offset + 1) rest
    else cutAtFeeds start (offset + 1) rest

/-- A given text, cut at its line feeds. -/
def ofText (text : String) : IndexedText :=
  ⟨text, (cutAtFeeds 0 0 text.toByteArray.data.toList).toArray⟩

/-- One more line at the end, after a line feed unless it is the first one. -/
def push (s : IndexedText) (line : String) : IndexedText :=
  let before := if s.spans.isEmpty then s.text else s.text ++ "\n"
  let text := before ++ line
  ⟨text, s.spans.push ⟨before.utf8ByteSize, text.utf8ByteSize⟩⟩

/-- The text of given lines, one after the other. -/
def ofLines (lines : List String) : IndexedText := lines.foldl push ⟨"", #[]⟩

/-- Number of lines. -/
def lineCount (s : IndexedText) : Nat := s.spans.size

/-- Whether there is no line at all. -/
def isEmpty (s : IndexedText) : Bool := s.spans.isEmpty

/-- Where the line at `index` lies in the text, if there is one. -/
def span? (s : IndexedText) (index : Nat) : Option ByteSpan := s.spans[index]?

/-- The line at `index`, if there is one. -/
def line? (s : IndexedText) (index : Nat) : Option String :=
  (s.span? index).map (ByteSpan.read s.text)

/-- All lines, first one first. -/
def lines (s : IndexedText) : List String := s.spans.toList.map (ByteSpan.read s.text)

/-- The lines of a range, refused if it reaches past the end. -/
def slice (s : IndexedText) (r : LineRange) : Except InputError (List String) := do
  r.checkBounds s.lineCount
  return (s.spans.extract r.start r.stop).toList.map (ByteSpan.read s.text)

/-- What lies between the first and the last line of a range; an empty range has nothing. -/
def contentIn (s : IndexedText) (r : LineRange) : Option String :=
  if r.isEmpty then none
  else do
    let first ← s.span? r.start
    let last ← s.span? (r.stop - 1)
    return ByteSpan.read s.text ⟨first.start, last.stop⟩

/-- The text of a range, refused if it reaches past the end. -/
def rangeContent (s : IndexedText) (r : LineRange) : Except InputError (Option String) := do
  r.checkBounds s.lineCount
  return s.contentIn r

end IndexedText

end Linewise
