import Linewise.Yaml.Block
import Linewise.Yaml.Layout
import Linewise.Yaml.Quoted
import Linewise.Yaml.Tag

/-!
# Reading the tokens of YAML

The next characters say which token follows. What it opens or closes, and whether
it may begin a key, is noted in the layout.
-/

namespace Linewise.Yaml.Layout

/-- Reads a directive. -/
def readDirective (s : Layout) : Option Layout := do
  let s ← (s.unroll (-1)).dropKey?
  let (token, p) ← Yaml.readDirective (s.place.pass 1)
  return ((s.goTo p).allowKey false).emit token

/-- Reads the mark before or after a document. After the latter the line holds nothing more. -/
def readDocumentMark (s : Layout) (token : Token) : Option Layout := do
  let s ← (s.unroll (-1)).dropKey?
  let s := ((s.goTo (s.place.pass 3)).allowKey false).emit token
  if token = .documentStart then some s
  else
    let s ← s.skipBlanks?
    if s.place.atLineEnd then some s else none

/-- Reads an opening bracket or brace. -/
def readOpening (s : Layout) (token : Token) : Option Layout := do
  let s ← s.saveKey.rollColumn.enter?
  let s := (s.goTo (s.place.pass 1)).allowKey true
  let s := if token = .braceOpen then { s with braced := true }
    else { s with pairs := false :: s.pairs }
  return (← s.skipBlanks?).emit token

/-- Reads a closing bracket or brace. -/
def readClosing (s : Layout) (token : Token) : Option Layout := do
  let s := (← s.dropKey?).leave.allowKey false
  let s := if token = .bracketClose then { s.closePair with pairs := s.closePair.pairs.tail } else s
  let s ← (s.goTo (s.place.pass 1)).skipBlanks?
  let s := if s.inFlow then { s with adjacent := some s.place.index } else s
  return s.emit token

/-- Reads a comma between brackets or braces. -/
def readComma (s : Layout) : Option Layout := do
  let s := ((← s.dropKey?).allowKey true).closePair
  return (← (s.goTo (s.place.pass 1)).skipBlanks?).emit .comma

/-- Reads the sign before an item. It stands only where a key may, and another one follows only
after blanks that are no tabs. -/
def readItem (s : Layout) : Option Layout := do
  if s.inFlow || !s.keyAllowed then none
  else
    let column := s.place.column
    let p := s.place.pass 1
    let s := (s.goTo p).roll column s.tokens.length .listOpen
    let s ← s.skipBlanks?
    let tabbed := (p.rest.takeWhile Read.isBlank).contains '\t'
    let rest := s.place.rest
    if tabbed && rest.head? = some '-' && endsWord (rest.drop 1) then none
    else
      let s := if rest.head?.any fun c => isBreak c || isFlow c then s.rollColumn else s
      return ((← s.dropKey?).allowKey true).emit .item

/-- Skips blanks other than tabs, line ends and comments, and gives whether a line ended there. Each
step uses up one unit of `fuel`. -/
def skipLines (fuel : Nat) (p : Cursor) (ended : Bool) : Cursor × Bool :=
  match fuel, p.rest with
  | fuel + 1, c :: _ =>
    if c = ' ' then skipLines fuel (p.skip 1) ended
    else if isBreak c then skipLines fuel p.nextLine true
    else if c = '#' then skipLines fuel p.skipComment ended
    else (p, ended)
  | _, _ => (p, ended)

/-- Reads the sign before a key, which must be followed by a blank or a line end, and not by a
tab. -/
def readKey (s : Layout) : Option Layout := do
  if !s.inFlow && !s.keyAllowed then none
  else
    let s := if s.inFlow then { s with braced := true }
      else s.roll s.place.column s.tokens.length .tableOpen
    let s := (← s.dropKey?).allowKey !s.inFlow
    let p := s.place.pass 1
    let (q, ended) := skipLines p.rest.length p false
    if q.index = p.index || q.rest.head? = some '\t' then none
    else return (s.goToLine q ended).emit .key

/-- The place after the sign of a value, and after blanks if the first of them is a tab. Before a
sign or a letter there must be another blank than tabs then. -/
def afterValueSign? (p : Cursor) : Option Cursor :=
  if p.rest.head? ≠ some '\t' then some p
  else do
    let q ← p.skipBlanks?
    let spaced := (p.rest.takeWhile Read.isBlank).contains ' '
    if !spaced && q.rest.head?.any Read.isNameChar then none else some q

/-- Reads the sign before a value after a token that thereby turns out to begin a key. `paired` says
whether that makes a table of one field in brackets, whose key stands on one line with the sign. -/
def readValueOfKey (s : Layout) (paired : Bool) (line : Nat) : Option Layout :=
  let key := s.key
  if paired && key.line < line then none
  else
    let s := s.insert key.number .key
    let s := if paired then s.insert key.number .braceOpen else s
    let s := (s.roll key.column key.number .tableOpen).rollColumn
    some ({ s with key := { key with possible := false } }.allowKey false)

/-- Reads the sign before a value after a key that was marked, or without a key. -/
def readValueAlone (s : Layout) (paired : Bool) (column : Nat) : Option Layout :=
  let s := if paired then s.emit .braceOpen else s
  if s.inFlow then some (s.rollColumn.allowKey false)
  else if s.keyAllowed then
    some ((s.roll column s.tokens.length .tableOpen).rollColumn.allowKey true)
  else none

/-- Reads the sign before a value. -/
def readValue (s : Layout) : Option Layout := do
  let start := s.place
  let paired := !s.pairs.isEmpty && !s.braced
  let s := if paired then { s with pairs := true :: s.pairs.tail } else s
  let s := s.goTo (← afterValueSign? (start.pass 1))
  let s ← if s.key.possible then s.readValueOfKey paired start.line
    else s.readValueAlone paired start.column
  return s.emit .value

/-- Reads the name of a value, or of another value if `alias`. -/
def readAnchor (s : Layout) (isAlias : Bool) : Option Layout := do
  let s := s.saveKey.allowKey false
  let (name, p) ← Yaml.readAnchor (s.place.pass 1)
  return (s.goTo p).emit (if isAlias then .alias name else .anchor name)

/-- Reads a tag. -/
def readTag (s : Layout) : Option Layout := do
  let s := s.saveKey.allowKey false
  let (token, p) ← Yaml.readTag s.inFlow s.place
  return (s.goTo p).emit token

/-- Reads a block value. -/
def readBlock (s : Layout) : Option Layout := do
  let s := (s.saveKey.allowKey true).unrollColumn
  let (text, p) ← Yaml.readBlock s.indent s.place
  return (s.goTo p).emit (.scalar false text)

/-- Reads a quoted value. In brackets or braces the sign of a value may follow without a blank. -/
def readQuoted (s : Layout) : Option Layout := do
  let s := s.saveKey.allowKey false
  let (text, p) ← Yaml.readQuoted s.inFlow s.indent s.place
  let s ← (s.goTo p).skip?
  return { s with adjacent := some s.place.index }.emit (.scalar false text)

/-- Reads a plain value. -/
def readPlain (s : Layout) : Option Layout := do
  let s := (s.saveKey.allowKey false).unrollColumn
  let indent := s.indent + 1
  if s.inFlow && s.place.column < indent then none
  else
    let (text, p) ← Yaml.readPlain s.inFlow indent s.place.rest.length s.place
    if text.isEmpty then none
    else return ((s.goTo p).allowKey p.leading).emit (.scalar true (String.ofList text))

/-- Whether the sign of a value stands here before `rest`. Between brackets and braces it needs no
blank after it before what has a meaning there, nor after a quoted or bracketed key. -/
def startsValue (s : Layout) (rest : List Char) : Bool :=
  endsWord rest ||
    (s.inFlow && (rest.head?.any isFlow || s.adjacent = some s.place.index))

/-- Reads the token that begins with a character. -/
def readToken (s : Layout) (c : Char) (rest : List Char) : Option Layout :=
  match c with
  | '[' => s.readOpening .bracketOpen
  | '\x7b' => s.readOpening .braceOpen
  | ']' => s.readClosing .bracketClose
  | '\x7d' => s.readClosing .braceClose
  | ',' => s.readComma
  | '-' => if endsWord rest then s.readItem else s.readPlain
  | '?' => if endsWord rest then s.readKey else s.readPlain
  | ':' => if s.startsValue rest then s.readValue else s.readPlain
  | '*' => s.readAnchor true
  | '&' => s.readAnchor false
  | '!' => s.readTag
  | '\'' | '"' => s.readQuoted
  | '|' | '>' => if s.inFlow then s.readPlain else s.readBlock
  | '%' | '@' | '\x60' => none
  | _ => s.readPlain

/-- Reads the next token, which begins where reading goes on, with the given characters. -/
def readNext (s : Layout) (c : Char) (rest : List Char) : Option Layout :=
  if s.place.column = 0 ∧ c = '%' then s.readDirective
  else if s.place.atMark "---" then s.readDocumentMark .documentStart
  else if s.place.atMark "..." then s.readDocumentMark .documentEnd
  else if s.place.column < s.indent then none
  else s.readToken c rest

/-- Reads tokens to the end. Each uses up one unit of `fuel`. -/
def readAll (fuel : Nat) (s : Layout) : Option Layout := do
  let s := (← (← s.skip?).staleKey?)
  let s := s.unroll s.place.column
  match fuel, s.place.rest with
  | _, [] => (s.unroll (-1)).dropKey?
  | fuel + 1, c :: rest => readAll fuel (← s.readNext c rest)
  | 0, _ => none

end Linewise.Yaml.Layout

namespace Linewise.Yaml

/-- The tokens of a text. It ends before the first null character. -/
def tokens? (text : String) : Option (List Token) :=
  let chars := text.toList.takeWhile (· ≠ '\x00')
  (Layout.readAll chars.length { place := { rest := chars } }).map (·.tokens.reverse)

end Linewise.Yaml
