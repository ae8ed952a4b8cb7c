import Linewise.Yaml.Cursor
import Linewise.Yaml.Token

/-!
# Tags, names and directives in YAML

A tag says of what kind a value is. It is written in full, or as a handle and what
follows it. Directives at the start of a document tell its version and give
beginnings of tags to handles.
-/

namespace Linewise.Yaml

/-- Whether `c` may stand in a tag that is written in full. -/
def isUriChar (c : Char) : Bool :=
  c.isAlphanum || "-#;/?:@&=+$,_.!~*'()[]%".toList.contains c

/-- Whether `c` may stand in a tag after its handle. -/
def isTagChar (c : Char) : Bool := isUriChar c && !isFlow c && c != '!'

/-- Reads a byte in two hexadecimal digits after a percent sign, and what follows. -/
def readPercent : List Char → Option (Nat × List Char)
  | '%' :: a :: b :: rest => (numeral? 16 [a, b]).map (·, rest)
  | _ => none

/-- Reads the character that one or two bytes after percent signs stand for, and what follows. Two
bytes count as the upper and the lower half of a code point. -/
def readPercents (chars : List Char) : Option (Char × List Char) := do
  let (first, rest) ← readPercent chars
  if first < 0x80 then return (Char.ofNat first, rest)
  else if 0xC0 ≤ first ∧ first < 0xE0 then
    let (second, rest) ← readPercent rest
    let code := 256 * first + second
    if 0x80 ≤ second ∧ second < 0xC0 ∧ code.isValidChar then return (Char.ofNat code, rest)
    else none
  else none

/-- Reads characters of a class, some of them perhaps as bytes after percent signs, and what
follows. Each uses up one unit of `fuel`. -/
def readUri (has : Char → Bool) (fuel : Nat) (chars : List Char) :
    Option (List Char × List Char) :=
  match fuel, chars with
  | fuel + 1, c :: rest =>
    if !has c then some ([], c :: rest)
    else do
      let (read, rest) ← if c = '%' then readPercents (c :: rest) else some (c, rest)
      let (text, rest) ← readUri has fuel rest
      return (read :: text, rest)
  | _, chars => some ([], chars)

/-- The place where only `rest` follows on the line. -/
def Cursor.passTo (p : Cursor) (rest : List Char) : Cursor := p.pass (p.rest.length - rest.length)

/-- Reads a handle: an exclamation mark, or a name between two of them. Without the second one what
was read belongs to a tag. -/
def readHandle : List Char → Option (List Char × List Char)
  | '!' :: rest =>
    let name := '!' :: rest.takeWhile Read.isNameChar
    match rest.dropWhile Read.isNameChar with
    | '!' :: rest => some (name ++ ['!'], rest)
    | rest => some (name, rest)
  | _ => none

/-- Whether what was read for a handle is one, with a second exclamation mark. -/
def isHandle (chars : List Char) : Bool := 2 ≤ chars.length && chars.getLast? = some '!'

/-- Reads a tag that is written in full after its opening, and what follows. -/
def readFullTag (chars : List Char) : Option (Token × List Char) := do
  let (text, rest) ← readUri isUriChar chars.length chars
  return (.tag "" (String.ofList text), ← Read.after? '>' rest)

/-- Reads a tag that begins with a handle, and what follows. The tag `!` has no handle. -/
def readShortTag (chars : List Char) : Option (Token × List Char) := do
  let (handle, rest) ← readHandle chars
  let (text, rest) ← readUri isTagChar rest.length rest
  if isHandle handle then
    if text.isEmpty then none else some (.tag (String.ofList handle) (String.ofList text), rest)
  else
    let suffix := handle.drop 1 ++ text
    if suffix.isEmpty then some (.tag "" "!", rest)
    else some (.tag "!" (String.ofList suffix), rest)

/-- Reads a tag, and what follows. -/
def readTag (inFlow : Bool) (p : Cursor) : Option (Token × Cursor) := do
  let (token, rest) ← match p.rest with
    | '!' :: '<' :: rest => readFullTag rest
    | chars => readShortTag chars
  if endsWord rest || (inFlow && rest.head?.any isFlow) then some (token, p.passTo rest) else none

/-- Whether `c` may stand in the name that a value is given. -/
def isAnchorChar (c : Char) : Bool := !isGap c && !isFlow c && c != '\uFEFF'

/-- Reads the name that a value is given after its mark, and what follows. -/
def readAnchor (p : Cursor) : Option (String × Cursor) :=
  let name := p.rest.takeWhile isAnchorChar
  if name.isEmpty then none else some (String.ofList name, p.pass name.length)

/-- What follows a part of a version: one to nine digits. -/
def afterVersionPart? (chars : List Char) : Option (List Char) :=
  let digits := chars.takeWhile Char.isDigit
  if digits.isEmpty ∨ 9 < digits.length then none else some (chars.drop digits.length)

/-- Reads the version in a directive, and what follows. -/
def readVersion (chars : List Char) : Option (Token × List Char) := do
  let rest ← Read.after? '.' (← afterVersionPart? (chars.dropWhile Read.isBlank))
  return (.version, ← afterVersionPart? rest)

/-- Reads the handle in a directive and the beginning of tags that is given to it, and what
follows. -/
def readTagDirective (chars : List Char) : Option (Token × List Char) := do
  let (handle, rest) ← readHandle (chars.dropWhile Read.isBlank)
  let rest := rest.dropWhile Read.isBlank
  let start := if rest.head? = some '!' then ['!'] else []
  let (text, after) ← readUri isUriChar rest.length (rest.drop start.length)
  let allowed := handle = ['!'] || isHandle handle
  if allowed && rest.head?.any (fun c => c = '!' || isTagChar c) && endsWord after then
    some (.handle (String.ofList handle) (String.ofList (start ++ text)), after)
  else none

/-- Reads a directive after its percent sign, and what follows its line. An unknown one counts as
one that gives nothing to no handle. -/
def readDirective (p : Cursor) : Option (Token × Cursor) := do
  let name := p.rest.takeWhile Read.isNameChar
  let rest := p.rest.drop name.length
  if name.isEmpty || !endsWord rest then none
  else
    let (token, rest) ← match String.ofList name with
      | "YAML" => readVersion rest
      | "TAG" => readTagDirective rest
      | _ => some (.handle "" "", rest.dropWhile (!isBreak ·))
    let p ← (p.passTo rest).skipBlanks?
    if !p.atLineEnd then none
    else return (token, if p.rest.isEmpty then p else p.nextLine)

end Linewise.Yaml
