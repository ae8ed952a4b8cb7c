import Linewise.Yaml.Cursor

/-!
# Block values in YAML

A block value is a text over several lines that are indented alike, after a line
with a mark. The text keeps its line ends, or has them folded into blanks. A sign
says what becomes of those at its end, and a digit by how much it is indented.
-/

namespace Linewise.Yaml

/-- What becomes of the line ends at the end of a block value. -/
inductive Chomping where
  /-- One stays. -/
  | clip
  /-- None stays. -/
  | strip
  /-- All stay. -/
  | keep
  deriving DecidableEq, Repr

/-- Reads the sign of a chomping, if there is one, and what follows. -/
def readChomping (p : Cursor) : Option (Chomping × Cursor) :=
  match p.rest with
  | '+' :: _ => some (.keep, p.pass 1)
  | '-' :: _ => some (.strip, p.pass 1)
  | _ => none

/-- Reads the digit of an indentation, or zero if there is none, and what follows. The digit itself
must not be zero. -/
def readIncrement (p : Cursor) : Option (Nat × Cursor) :=
  match p.rest with
  | c :: _ =>
    if c = '0' then none
    else if c.isDigit then some (c.toNat - '0'.toNat, p.pass 1)
    else some (0, p)
  | [] => some (0, p)

/-- Reads the sign and the digit of a block value in any order, and what follows. -/
def readBlockMarks (p : Cursor) : Option (Chomping × Nat × Cursor) :=
  match readChomping p with
  | some (chomping, p) => (readIncrement p).map fun found => (chomping, found)
  | none => do
    let (increment, p) ← readIncrement p
    let (chomping, p) := (readChomping p).getD (.clip, p)
    return (chomping, increment, p)

/-- Skips empty lines and the indentation of the next one, of at most `limit` columns, and gives the
number of empty lines and the greatest column reached. Each line uses up one unit of `fuel`. -/
def skipIndent (limit : Option Nat) (fuel : Nat) (p : Cursor) : Nat × Nat × Cursor :=
  let blanks := (p.rest.takeWhile (· = ' ')).length
  let q := p.skip (limit.elim blanks fun limit => min blanks (limit - p.column))
  match fuel, q.rest.head?.any isBreak with
  | fuel + 1, true =>
    let (breaks, reached, r) := skipIndent limit fuel q.nextLine
    (breaks + 1, max q.column reached, r)
  | _, _ => (0, q.column, q)

/-- What was read of a block value. -/
structure BlockText where
  text : List Char := []
  /-- Whether the last line has an end. -/
  ended : Bool := false
  /-- Number of empty lines after it. -/
  breaks : Nat := 0
  /-- Whether the last line begins with a blank. -/
  indented : Bool := false

/-- The line end of the last line, if it has one. -/
def BlockText.lineEnd (b : BlockText) : List Char := if b.ended then ['\n'] else []

/-- The line ends of the empty lines. -/
def BlockText.emptyLines (b : BlockText) : List Char := List.replicate b.breaks '\n'

/-- What was read, before a line is added. If the text is folded, the line end between two lines
that begin with no blank is a blank, or nothing where empty lines follow. -/
def BlockText.joined (b : BlockText) (folded : Bool) (indented : Bool) : List Char :=
  if folded && b.ended && !b.indented && !indented then
    b.text ++ (if b.breaks = 0 then [' '] else b.emptyLines)
  else b.text ++ b.lineEnd ++ b.emptyLines

/-- Reads the lines of a block value that are indented by `indent`, and what follows. Each line uses
up one unit of `fuel`. -/
def readBlockLines (folded : Bool) (indent fuel : Nat) (b : BlockText) (p : Cursor) :
    BlockText × Cursor :=
  match fuel with
  | 0 => (b, p)
  | fuel + 1 =>
    if p.column ≠ indent ∨ p.rest.isEmpty ∨ (indent = 0 ∧ p.atMark "...") then (b, p)
    else
      let indented := p.rest.head?.any Read.isBlank
      let line := p.rest.takeWhile (!isBreak ·)
      let text := b.joined folded indented ++ line
      let p := p.skip line.length
      if p.rest.isEmpty then (⟨text, false, 0, indented⟩, p)
      else
        let (breaks, _, p) := skipIndent (some indent) p.rest.length p.nextLine
        readBlockLines folded indent fuel ⟨text, true, breaks, indented⟩ p

/-- The text of a block value that ends before a given place. A last line without an end is given
one. -/
def BlockText.chomped (b : BlockText) (chomping : Chomping) (indent : Nat) (p : Cursor) :
    List Char :=
  let lineEnd := b.lineEnd ++ if p.rest.isEmpty ∧ max indent 1 ≤ p.column then ['\n'] else []
  match chomping with
  | .strip => b.text
  | .clip => b.text ++ lineEnd
  | .keep => b.text ++ lineEnd ++ b.emptyLines

/-- The text of a block value that has no line, after `breaks` empty ones. -/
def emptyBlock (chomping : Chomping) (started : Bool) (breaks : Nat) : List Char :=
  if !started || chomping = .strip then []
  else if chomping = .keep then List.replicate (max breaks 1) '\n'
  else ['\n']

/-- Reads a block value whose surroundings are indented by `outer`, and what follows. -/
def readBlock (outer : Int) (p : Cursor) : Option (String × Cursor) := do
  let folded := p.rest.head? = some '>'
  let (chomping, increment, q) ← readBlockMarks (p.pass 1)
  let q ← q.skipBlanks?
  if !q.atLineEnd then none
  else
    let q := if q.rest.isEmpty then q else q.nextLine
    if q.rest.head? = some '\t' then none
    else
      let given := (max outer 0).toNat + increment
      let limit := if increment = 0 then none else some given
      let (breaks, reached, q) := skipIndent limit q.rest.length q
      let indent := if increment = 0 then max reached (outer + 1).toNat else given
      if q.rest.isEmpty then
        return (String.ofList (emptyBlock chomping (p.line < q.line) breaks), q)
      else if q.column < indent ∧ outer < q.column then none
      else
        let (b, q) := readBlockLines folded indent q.rest.length ⟨[], false, breaks, false⟩ q
        return (String.ofList (b.chomped chomping indent q), q)

end Linewise.Yaml
