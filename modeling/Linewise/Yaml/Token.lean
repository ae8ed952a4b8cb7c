/-!
# Tokens of YAML

A text is read as tokens before it is read as values. Where the layout of the text
opens and closes lists and tables, tokens stand for that too.
-/

namespace Linewise.Yaml

/-- A token of a text. -/
inductive Token where
  /-- The mark before a document. -/
  | documentStart
  /-- The mark after a document. -/
  | documentEnd
  /-- The directive that tells a version. -/
  | version
  /-- The directive that gives a beginning of tags to a handle. -/
  | handle (name beginning : String)
  /-- The start of a list that the layout opens. -/
  | listOpen
  /-- The start of a table that the layout opens. -/
  | tableOpen
  /-- The end of a list or table that the layout opened. -/
  | close
  /-- The opening bracket of a list. -/
  | bracketOpen
  /-- The closing bracket of a list. -/
  | bracketClose
  /-- The opening brace of a table. -/
  | braceOpen
  /-- The closing brace of a table. -/
  | braceClose
  /-- The sign before an item. -/
  | item
  /-- The comma between parts in brackets or braces. -/
  | comma
  /-- What stands before a key. -/
  | key
  /-- The sign before a value. -/
  | value
  /-- The name that another value was given. -/
  | alias (name : String)
  /-- The name that a value is given. -/
  | anchor (name : String)
  /-- The tag of a value, made of a handle and what follows it. -/
  | tag (handle suffix : String)
  /-- A value without parts. Only if it is plain its text is looked into. -/
  | scalar (plain : Bool) (text : String)
  deriving DecidableEq, Repr

end Linewise.Yaml
