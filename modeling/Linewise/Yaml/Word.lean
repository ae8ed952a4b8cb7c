import Linewise.Yaml.Cursor

/-!
# Words of a value in YAML

A plain or quoted value is made of words with gaps between them. A line end in a
gap counts as a blank, and any further one as itself. A plain value is not quoted:
it ends before a comment, before what has a meaning of its own, and before a line
that is not indented far enough.
-/

namespace Linewise.Yaml

/-- What stands between two words. -/
structure Gap where
  /-- The blanks, if there is no line end. -/
  blanks : List Char := []
  /-- Number of line ends. -/
  breaks : Nat := 0
  deriving Repr

/-- The text for which a gap stands. If its first line end does not count, all others do. -/
def Gap.text (hidden : Bool) (g : Gap) : List Char :=
  if hidden then List.replicate g.breaks '\n'
  else match g.breaks with
    | 0 => g.blanks
    | 1 => [' ']
    | more + 2 => List.replicate (more + 1) '\n'

/-- Reads the rest of a gap, and what follows, at the start of a line if `leading`. Where a tab
stands in the first `indent` columns, `afterTab?` says where reading goes on. Each step uses up
one unit of `fuel`. -/
def readGap (afterTab? : Cursor → Option Cursor) (indent : Int) (fuel : Nat) (leading : Bool)
    (g : Gap) (p : Cursor) : Option (Gap × Cursor) :=
  match fuel, p.rest with
  | fuel + 1, c :: _ =>
    if isBreak c then readGap afterTab? indent fuel true ⟨[], g.breaks + 1⟩ p.nextLine
    else if !Read.isBlank c then some (g, p)
    else if !leading then
      readGap afterTab? indent fuel false { g with blanks := g.blanks ++ [c] } (p.skip 1)
    else if c = '\t' ∧ p.column < indent then do
      readGap afterTab? indent fuel true g (← afterTab? p)
    else readGap afterTab? indent fuel true g (p.skip 1)
  | _, _ => some (g, p)

/-- Whether a plain value goes on here within a line: not at a sign before a value, and between
brackets or braces not at what has a meaning there. -/
def goesOn (inFlow : Bool) : List Char → Bool
  | ':' :: rest => !endsWord rest && !(inFlow && rest.head?.any isFlow)
  | c :: _ => !(inFlow && isFlow c)
  | [] => false

/-- Number of characters of the word of a plain value that begins here. -/
def wordLength (inFlow : Bool) : List Char → Nat
  | [] => 0
  | c :: rest =>
    if isGap c || !goesOn inFlow (c :: rest) then 0 else wordLength inFlow rest + 1

/-- What follows a tab in the indentation of a plain value. Only a line without words may have one
there. -/
def afterTab? (p : Cursor) : Option Cursor := do
  let p ← p.skipBlanks?
  if p.atLineEnd then some p else none

/-- Whether a sign before an item stands here as if it were a word between brackets. -/
def startsFlowItem : List Char → Bool
  | '-' :: c :: _ => isFlow c
  | _ => false

/-- Reads a plain value from a word on, and what follows. Its lines must be indented by `indent`,
unless it stands between brackets or braces. Each word uses up one unit of `fuel`. -/
def readPlain (inFlow : Bool) (indent : Int) (fuel : Nat) (p : Cursor) :
    Option (List Char × Cursor) :=
  match fuel with
  | 0 => none
  | fuel + 1 =>
    let length := wordLength inFlow p.rest
    let word := p.rest.take length
    let q := p.pass length
    if p.atDocumentMark ∨ p.rest.head? = some '#' then some ([], p)
    else if inFlow && startsFlowItem p.rest then none
    else if length = 0 then some ([], p)
    else if !q.rest.head?.any isGap then some (word, q)
    else do
      let (gap, q) ← readGap afterTab? indent q.rest.length false {} q
      if !inFlow ∧ q.column < indent then return (word, q)
      else
        let (more, q) ← readPlain inFlow indent fuel q
        return (if more.isEmpty then word else word ++ gap.text false ++ more, q)

end Linewise.Yaml
