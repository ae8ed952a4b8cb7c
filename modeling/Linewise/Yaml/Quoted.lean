import Linewise.Yaml.Word

/-!
# Quoted values in YAML

A value between single quotes may hold a single quote written twice. One between
double quotes may hold escapes. Both may go over several lines.
-/

namespace Linewise.Yaml

/-- The character that an escape of one letter stands for. -/
def unescape? : Char → Option Char
  | '0' => some '\x00'
  | 'a' => some '\x07'
  | 'b' => some '\x08'
  | 't' => some '\t'
  | '\t' => some '\t'
  | 'n' => some '\n'
  | 'v' => some '\x0b'
  | 'f' => some '\x0c'
  | 'r' => some '\r'
  | 'e' => some '\x1b'
  | ' ' => some ' '
  | '"' => some '"'
  | '/' => some '/'
  | '\\' => some '\\'
  | 'N' => some '\u0085'
  | '_' => some '\u00A0'
  | 'L' => some '\u2028'
  | 'P' => some '\u2029'
  | _ => none

/-- Reads an escape after its backslash, and gives the number of characters that it takes. -/
def readEscape : List Char → Option (Char × Nat)
  | [] => none
  | letter :: rest => match Read.escapeWidth? letter with
    | none => (unescape? letter).map (·, 1)
    | some width => (Read.readCodePoint width rest).map fun (c, _) => (c, width + 1)

/-- Reads the rest of a word up to a gap or the closing quote, whether a hidden line end follows the
word, and the place after both. Each character uses up one unit of `fuel`. -/
def readQuotedWord (quote : Char) (fuel : Nat) (p : Cursor) :
    Option (List Char × Bool × Cursor) :=
  match fuel, p.rest with
  | fuel + 1, c :: rest =>
    if isGap c then some ([], false, p)
    else if c = quote then
      if quote = '\'' ∧ rest.head? = some '\'' then
        (readQuotedWord quote fuel (p.pass 2)).map fun (word, found) => ('\'' :: word, found)
      else some ([], false, p)
    else if c = '\\' ∧ quote = '"' then
      if rest.head?.any isBreak then some ([], true, (p.pass 1).nextLine)
      else do
        let (read, length) ← readEscape rest
        let (word, found) ← readQuotedWord quote fuel (p.pass (length + 1))
        return (read :: word, found)
    else (readQuotedWord quote fuel (p.pass 1)).map fun (word, found) => (c :: word, found)
  | _, _ => some ([], false, p)

/-- Reads a quoted value from a word on, and the place of its closing quote. Its lines must be
indented by `indent`. Each word uses up one unit of `fuel`. -/
def readQuotedFrom (quote : Char) (indent : Int) (fuel : Nat) (p : Cursor) :
    Option (List Char × Cursor) :=
  match fuel with
  | 0 => none
  | fuel + 1 =>
    if p.atDocumentMark ∨ p.rest.isEmpty ∨ p.column < indent then none
    else do
      let (word, hidden, p) ← readQuotedWord quote p.rest.length p
      if p.rest.head? = some quote then return (word, p)
      else
        let (gap, p) ← readGap (fun _ => none) indent p.rest.length hidden {} p
        let (more, p) ← readQuotedFrom quote indent fuel p
        return (word ++ gap.text hidden ++ more, p)

/-- Whether a quoted value that began on a given line may end here: at the end of a line, before the
sign of a value on the same line, or before what has a meaning between brackets or braces. -/
def mayEndQuoted (inFlow : Bool) (line : Nat) (p : Cursor) : Bool :=
  match p.rest with
  | [] => true
  | c :: _ =>
    isBreak c || (c = ':' && (inFlow || p.line = line)) ||
      (inFlow && [',', '\x7d', ']'].contains c)

/-- Reads a quoted value, and what follows. -/
def readQuoted (inFlow : Bool) (indent : Int) (p : Cursor) : Option (String × Cursor) := do
  let quote ← p.rest.head?
  let (text, q) ← readQuotedFrom quote indent p.rest.length (p.pass 1)
  let q ← (q.pass 1).skipBlanks?
  if mayEndQuoted inFlow p.line q then some (String.ofList text, q) else none

end Linewise.Yaml
