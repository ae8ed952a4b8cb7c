import Linewise.Yaml.Cursor
import Linewise.Yaml.Token

/-!
# Layout of YAML

Outside brackets and braces a deeper indentation opens a list or a table, and a
lesser one closes it. A token may turn out to begin a key when the sign of a value
follows on the same line; then the tokens that stand before a key are put before it.
-/

namespace Linewise.Yaml

/-- The last token that could begin a key, at one depth of brackets and braces. -/
structure KeyMark where
  /-- Whether the token can still turn out to begin a key. -/
  possible : Bool := false
  /-- Whether it must. -/
  required : Bool := false
  /-- Number of characters before the token. -/
  index : Nat := 0
  /-- Number of lines before the token. -/
  line : Nat := 0
  /-- Number of characters before the token in its line. -/
  column : Nat := 0
  /-- Number of tokens before the token. -/
  number : Nat := 0
  deriving Repr

/-- A change of the indentation that is to be taken back. -/
structure Indent where
  /-- The indentation before. -/
  before : Int
  /-- Whether the change opened a list or a table, and did not only ask for one more column. -/
  opens : Bool
  deriving Repr

/-- What was read so far, and what is open. -/
structure Layout where
  place : Cursor
  /-- The tokens that were read, the last one first. -/
  tokens : List Token := []
  /-- Whether the next token may begin a key. -/
  keyAllowed : Bool := true
  /-- The last token that could begin a key. -/
  key : KeyMark := {}
  /-- The same for the surrounding brackets and braces, from the inside. -/
  outer : List KeyMark := []
  /-- The column of the innermost open list or table, or -1. -/
  indent : Int := -1
  /-- The changes that led to it, the last one first. -/
  indents : List Indent := []
  /-- Whether a table of one field in brackets needs no braces of its own. -/
  braced : Bool := false
  /-- For each open bracket, from the inside, whether such a table was opened in it. -/
  pairs : List Bool := []
  /-- The index at which the sign of a value needs no blank after it. -/
  adjacent : Option Nat := none
  deriving Repr

namespace Layout

/-- Whether reading goes on between brackets or braces. -/
def inFlow (s : Layout) : Bool := !s.outer.isEmpty

/-- Goes on at another place. -/
def goTo (s : Layout) (p : Cursor) : Layout := { s with place := p }

/-- Says whether the next token may begin a key. -/
def allowKey (s : Layout) (allowed : Bool) : Layout := { s with keyAllowed := allowed }

/-- Adds a token. -/
def emit (s : Layout) (token : Token) : Layout := { s with tokens := token :: s.tokens }

/-- Puts a token before all but the first `number` ones. -/
def insert (s : Layout) (number : Nat) (token : Token) : Layout :=
  let later := s.tokens.length - number
  { s with tokens := s.tokens.take later ++ token :: s.tokens.drop later }

/-- Takes back the last change of the indentation if it only asked for one more column. -/
def unrollColumn (s : Layout) : Layout :=
  match s.indents with
  | ⟨before, false⟩ :: rest => { s with indent := before, indents := rest }
  | _ => s

/-- Asks for one more column than that of the innermost open list or table. -/
def rollColumn (s : Layout) : Layout :=
  if !s.inFlow && s.indents.head?.any Indent.opens then
    { s with indent := s.indent + 1, indents := ⟨s.indent, false⟩ :: s.indents }
  else s

/-- Opens a list or a table at a column, if it is deeper than the innermost open one. The token for
that is put before all but the first `number` ones. -/
def roll (s : Layout) (column number : Nat) (token : Token) : Layout :=
  if s.inFlow then s
  else
    let s := if s.indent ≤ column then s.unrollColumn else s
    if s.indent < column then
      { s.insert number token with indent := column, indents := ⟨s.indent, true⟩ :: s.indents }
    else s

/-- Closes what is open to a column, given the changes of the indentation. -/
def unrollFrom (s : Layout) (column : Int) : List Indent → Layout
  | [] => { s with indents := [] }
  | change :: rest =>
    if column < s.indent then
      let s := if change.opens then s.emit .close else s
      unrollFrom { s with indent := change.before } column rest
    else { s with indents := change :: rest }

/-- Closes the lists and tables that are deeper than a column. -/
def unroll (s : Layout) (column : Int) : Layout :=
  if s.inFlow then s else s.unrollFrom column s.indents

/-- Notes that the next token may begin a key, if it may. It must where an open table goes on. -/
def saveKey (s : Layout) : Layout :=
  if s.keyAllowed then
    let required := !s.inFlow && s.indent = s.place.column && s.indents.head?.any Indent.opens
    { s with key :=
      ⟨true, required, s.place.index, s.place.line, s.place.column, s.tokens.length⟩ }
  else s

/-- Gives up that the token noted last could begin a key, unless it must. -/
def dropKey? (s : Layout) : Option Layout :=
  if s.key.possible && s.key.required then none
  else some { s with key := { s.key with possible := false } }

/-- How many characters a key may have. -/
def maxKeyLength : Nat := 1024

/-- Gives up a key that did not end in time. Between brackets and braces that does not matter. -/
def staleKey? (s : Layout) : Option Layout :=
  let late := s.key.line < s.place.line || s.key.index + maxKeyLength < s.place.index
  if !s.inFlow && late then s.dropKey? else some s

/-- Ends a table of one field that was opened in brackets without braces. -/
def closePair (s : Layout) : Layout :=
  match s.pairs with
  | true :: rest => { s.emit .braceClose with braced := false, pairs := false :: rest }
  | _ => s

/-- How deep brackets and braces may stand in each other. -/
def maxFlowDepth : Nat := 255

/-- Goes into brackets or braces. -/
def enter? (s : Layout) : Option Layout :=
  if s.outer.length = maxFlowDepth then none
  else some { s with outer := s.key :: s.outer, key := {} }

/-- Goes out of brackets or braces, if it is in any. -/
def leave (s : Layout) : Layout :=
  match s.outer with
  | key :: outer => { s with key := key, outer := outer }
  | [] => s

/-- Skips blanks and a comment after a token. -/
def skipBlanks? (s : Layout) : Option Layout := s.place.skipBlanks?.map s.goTo

/-- Skips what stands before the next token, and gives whether a line ended there. A tab must not
take the place of an indentation. Each step uses up one unit of `fuel`. -/
def skipSpace (s : Layout) (fuel : Nat) (p : Cursor) (ended : Bool) : Option (Cursor × Bool) :=
  match fuel, p.rest with
  | fuel + 1, c :: _ =>
    if c = '\t' && !s.indents.isEmpty && p.leading && p.column < s.indent then do
      let p ← p.skipBlanks?
      if p.atLineEnd then s.skipSpace fuel p ended else none
    else if Read.isBlank c then s.skipSpace fuel (p.skip 1) ended
    else if isBreak c then s.skipSpace fuel p.nextLine true
    else if c = '#' then s.skipSpace fuel p.skipComment ended
    else some (p, ended)
  | _, _ => some (p, ended)

/-- Goes on after the end of a line, where a key may begin outside brackets and braces. -/
def goToLine (s : Layout) (p : Cursor) (ended : Bool) : Layout :=
  { s with place := p, keyAllowed := s.keyAllowed || (ended && !s.inFlow) }

/-- Goes to the next token. -/
def skip? (s : Layout) : Option Layout :=
  (s.skipSpace s.place.rest.length s.place false).map fun (p, ended) => s.goToLine p ended

end Layout

end Linewise.Yaml
