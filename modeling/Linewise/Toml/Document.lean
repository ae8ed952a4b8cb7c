import Linewise.Toml.Value

/-!
# TOML texts

A text is read line by line. A line gives a value to a key, opens a table, opens
the next of a list of tables, or is empty but for a comment. A table stays open
up to the next header.
-/

namespace Linewise.Toml

/-- What the lines read so far give. -/
structure Progress where
  /-- The path of the table that is open. -/
  path : List String := []
  fields : Fields := []

/-- Reads a header after its opening brackets, opens what it names, and gives what follows the
closing brackets. -/
def readHeader (closing : List Char) (opens : String → Fields → Option Fields)
    (progress : Progress) (chars : List Char) : Option (Progress × List Char) := do
  let (path, rest) ← readKey chars
  let fields ← progress.fields.inside (opens (path.getLast?.getD "")) path.dropLast
  if closing.isPrefixOf rest then some (⟨path, fields⟩, rest.drop closing.length) else none

/-- Reads a key and its value, and what follows. -/
def readPair (progress : Progress) (chars : List Char) : Option (Progress × List Char) := do
  let (path, rest) ← readKeySign (·.dropWhile Read.isBlank) chars
  let (value, rest) ← readValue rest.length maxDepth rest
  let fields ← progress.fields.inside (Fields.define value path) progress.path
  return (⟨progress.path, fields⟩, rest)

/-- Reads a header, or a key and its value, and what follows. -/
def readStatement (progress : Progress) (chars : List Char) : Option (Progress × List Char) :=
  match chars.dropWhile Read.isBlank with
  | '[' :: '[' :: rest => readHeader [']', ']'] Fields.openNext progress rest
  | '[' :: rest => readHeader [']'] Fields.openTable progress rest
  | rest => readPair progress rest

/-- Reads lines to the end. Each uses up one unit of `fuel`. -/
def readLines (fuel : Nat) (progress : Progress) (chars : List Char) : Option Fields :=
  match fuel, chars with
  | _, [] => some progress.fields
  | 0, _ => none
  | fuel + 1, chars => match closeLine? chars with
    | some rest => readLines fuel progress rest
    | none => do
      let (progress, rest) ← readStatement progress chars
      readLines fuel progress (← closeLine? rest)

/-- Reads a text. -/
def parse? (text : String) : Option Entries :=
  let chars := Read.withoutMark text.toList
  (readLines chars.length {} chars).map Fields.entries

end Linewise.Toml
