import Linewise.Error
import Linewise.Text.Line
import Linewise.Text.Lines
import Linewise.Text.WhiteSpace

/-!
# Comparison policies

A policy says which blanks matter when lines or texts are compared. Two lines
are equal under a policy when their keys are; a key is the line itself, the line
without blanks at its ends, or the line without any blank.
-/

namespace Linewise

/-- How blanks count in a comparison, strictest first. -/
inductive Policy where
  /-- Every character counts. -/
  | exact
  /-- Blanks at the ends of a line do not count. -/
  | trim
  /-- No blank counts. -/
  | ignoreWhitespace
  deriving DecidableEq, Repr

namespace Policy

/-- All policies, strictest first. -/
def all : List Policy := [.exact, .trim, .ignoreWhitespace]

/-- The name of a policy in settings. -/
def name : Policy → String
  | .exact => "exact"
  | .trim => "trim"
  | .ignoreWhitespace => "ignore_whitespace"

/-- The policy with exactly this name. -/
def ofName? (name : String) : Option Policy := all.find? (·.name == name)

/-- The plain form of a policy name: surrounding white space dropped, ASCII letters in lower
case, dashes written as underscores. -/
def plainName (text : String) : String :=
  String.ofList <| (Line.strip isWhiteSpace text.toList).map fun c =>
    if c = '-' then '_' else c.toLower

/-- Reads a policy name freely: its plain form may be a policy's name or one of three aliases.
The refusal repeats the text as it was given. -/
def parse (text : String) : Except InputError Policy :=
  match plainName text with
  | "exact" | "default" => .ok .exact
  | "trim" | "trim_whitespaces" => .ok .trim
  | "ignore_whitespace" | "ignore_whitespaces" => .ok .ignoreWhitespace
  | _ => .error (.unknownPolicy text)

/-- The part of a line that counts under the policy. -/
def lineKey : Policy → String → String
  | .exact, line => line
  | .trim, line => Line.trimmed line
  | .ignoreWhitespace, line => Line.squeezed line

/-- Whether two lines are equal under the policy. -/
def linesEqual (p : Policy) (a b : String) : Bool := p.lineKey a == p.lineKey b

/-- Whether two texts are equal under the policy. Trimming is line by line, and line feeds are
blanks like any other when none counts. -/
def textsEqual : Policy → String → String → Bool
  | .exact, a, b => a == b
  | .trim, a, b => (splitLines a).map Line.trimmed == (splitLines b).map Line.trimmed
  | .ignoreWhitespace, a, b => Line.squeezed a == Line.squeezed b

/-- Whether two contents are equal under the policy, where a range without lines has no content.
No content equals no content alone, not even an empty text. -/
def contentEqual (p : Policy) : Option String → Option String → Bool
  | none, none => true
  | some a, some b => p.textsEqual a b
  | _, _ => false

/-- Equality of lines is equality of keys. -/
theorem linesEqual_iff {p : Policy} {a b : String} :
    p.linesEqual a b = true ↔ p.lineKey a = p.lineKey b := by
  simp [linesEqual]

end Policy

end Linewise
