import Linewise.Text.Read

/-!
# Lines of TOML

A TOML text is made of lines, which end in a line feed or in a carriage return
and a line feed. A comment runs to the end of its line. Control characters other
than the tab stand neither in comments nor in strings.
-/

namespace Linewise.Toml

/-- Whether `c` may stand in a comment or a quoted string: no control character but the tab. -/
def isPrintable (c : Char) : Bool := c = '\t' || (32 ≤ c.toNat && c.toNat ≠ 127)

/-- What follows the end of a line, if the line ends here. -/
def lineEnd? : List Char → Option (List Char)
  | '\n' :: rest => some rest
  | '\r' :: '\n' :: rest => some rest
  | _ => none

/-- What follows the line, if the rest of it holds at most a comment. The last line ends with the
text. -/
def closeLine? (chars : List Char) : Option (List Char) :=
  let rest := match chars.dropWhile Read.isBlank with
    | '#' :: comment => comment.dropWhile isPrintable
    | rest => rest
  if rest.isEmpty then some [] else lineEnd? rest

/-- What follows blanks and line ends. -/
def skipWhite : List Char → List Char
  | '\r' :: '\n' :: rest => skipWhite rest
  | c :: rest => if Read.isBlank c || c = '\n' then skipWhite rest else c :: rest
  | [] => []

/-- What follows blanks, line ends and comments. Reading starts in a comment if `inComment`. -/
def skipGap (inComment : Bool) : List Char → List Char
  | '\r' :: '\n' :: rest => skipGap false rest
  | c :: rest =>
    if c = '\n' then skipGap false rest
    else if inComment then (if isPrintable c then skipGap true rest else c :: rest)
    else if Read.isBlank c then skipGap false rest
    else if c = '#' then skipGap true rest
    else c :: rest
  | [] => []

end Linewise.Toml
