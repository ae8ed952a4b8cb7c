import Linewise.Ron.Number

/-!
# RON

RON writes values of many kinds: tables as records, between parentheses with
names for keys, or as maps, between braces with texts for keys; lists between
brackets or parentheses; and values that may be missing. A name may stand before
parentheses, or alone for a value without parts.
-/

namespace Linewise.Ron

/-- How much may stand around a value: every list, table and value that may be missing counts, and
every item, key and value in a list or a table. -/
def maxDepth : Nat := 128

/-- Whether the parts of a record follow an opening parenthesis, and not those of a list. -/
def startsRecord (chars : List Char) : Bool :=
  ((readName chars).bind fun (_, rest) => skip rest).any (·.head? = some ':')

/-- Reads a value without parts that is no name, and what follows. -/
def readSimple (chars : List Char) : Option (Datum × List Char) :=
  match chars with
  | '"' :: _ | 'r' :: _ => (readText chars).map fun (text, rest) => (.text text, rest)
  | '\'' :: _ => (readChar chars).map fun (c, rest) => (.text c.toString, rest)
  | 'b' :: '\'' :: _ =>
    (readByteChar chars).map fun (byte, rest) => (.integer byte.toNat, rest)
  | 'b' :: _ => (readBytes chars).map fun (bytes, rest) =>
      (.list (bytes.map fun byte => .integer byte.toNat), rest)
  | chars => readNumber chars

/-- Reads the key of a field in a record, and what follows. -/
def readRecordKey (chars : List Char) : Option (String × List Char) :=
  (readFieldName chars).map fun (name, rest) => (String.ofList name, rest)

mutual

/-- Reads a value that may have `depth` in it of what counts, and what follows. Each value, each
part and each look at a name or a parenthesis uses up one unit of `fuel`. -/
def readValue (fuel depth : Nat) (chars : List Char) : Option (Datum × List Char) :=
  match fuel, chars with
  | 0, _ => none
  | _, '(' :: ')' :: rest => some (.nothing, rest)
  | fuel + 1, '(' :: rest => do readGroup fuel depth (← skip rest)
  | fuel + 1, '[' :: rest => do
    let (items, rest) ← readItems fuel depth ']' (← skip rest)
    return (.list items, rest)
  | fuel + 1, '\x7b' :: rest => do
    let (fields, rest) ← readFields fuel depth '\x7d' (← skip rest)
    return (.table fields, rest)
  | fuel + 1, chars => match readNamed chars, readName chars with
    | some (value, rest), _ => some (value, rest)
    | none, some (name, rest) => readAfterName fuel depth name rest
    | none, none => readSimple chars

/-- Reads a value after the name with which it begins, and what follows. -/
def readAfterName (fuel depth : Nat) (name : Name) (chars : List Char) :
    Option (Datum × List Char) :=
  match fuel with
  | 0 => none
  | fuel + 1 =>
    if name = ⟨false, "true".toList⟩ then some (.boolean true, chars)
    else if name = ⟨false, "false".toList⟩ then some (.boolean false, chars)
    else if name = ⟨false, "None".toList⟩ then some (.nothing, chars)
    else if name = ⟨false, "Some".toList⟩ then readPresent fuel depth chars
    else do
      let chars ← skip chars
      match chars with
      | '(' :: rest => readGroup fuel depth (← skip rest)
      | rest => return (.nothing, rest)

/-- Reads the value that is not missing, between parentheses, and what follows. -/
def readPresent (fuel depth : Nat) (chars : List Char) : Option (Datum × List Char) :=
  match fuel, depth with
  | fuel + 1, depth + 1 => do
    let (value, rest) ← readValue fuel depth (← skip (← Read.after? '(' (← skip chars)))
    let rest ← skip rest
    let rest ← skip ((Read.after? ',' rest).getD rest)
    return (value, ← Read.after? ')' rest)
  | _, _ => none

/-- Reads a record or a list after its opening parenthesis, and what follows. -/
def readGroup (fuel depth : Nat) (chars : List Char) : Option (Datum × List Char) :=
  match fuel with
  | 0 => none
  | fuel + 1 =>
    if startsRecord chars then
      (readFields fuel depth ')' chars).map fun (fields, rest) => (.table fields, rest)
    else
      (readItems fuel depth ')' chars).map fun (items, rest) => (.list items, rest)

/-- Reads items up to the closing character, and what follows. They have the list around them. -/
def readItems (fuel depth : Nat) (closing : Char) (chars : List Char) :
    Option (List Datum × List Char) :=
  match fuel, depth, chars with
  | fuel + 1, depth + 1, c :: rest =>
    if c = closing then some ([], rest)
    else match depth with
      | 0 => none
      | inner + 1 => do
        let (item, rest) ← readValue fuel inner (c :: rest)
        let rest ← skip rest
        match Read.after? ',' rest with
        | some rest =>
          let (items, rest) ← readItems fuel (depth + 1) closing (← skip rest)
          return (item :: items, rest)
        | none => return ([item], ← Read.after? closing rest)
  | _, _, _ => none

/-- Reads fields up to the closing character, and what follows. Keys are names in a record, and
texts in a map. -/
def readFields (fuel depth : Nat) (closing : Char) (chars : List Char) :
    Option (List (String × Datum) × List Char) :=
  match fuel, depth, chars with
  | fuel + 1, depth + 1, c :: rest =>
    if c = closing then some ([], rest)
    else match depth with
      | 0 => none
      | inner + 1 => do
        let (key, rest) ←
          if closing = ')' then readRecordKey (c :: rest) else readMapKey fuel inner (c :: rest)
        let (value, rest) ← readValue fuel inner (← skip (← Read.after? ':' (← skip rest)))
        let rest ← skip rest
        match Read.after? ',' rest with
        | some rest =>
          let (fields, rest) ← readFields fuel (depth + 1) closing (← skip rest)
          return ((key, value) :: fields, rest)
        | none => return ([(key, value)], ← Read.after? closing rest)
  | _, _, _ => none

/-- Reads the key of a field in a map, which must be a text and not one that may be missing, and
what follows. Bytes are as good. -/
def readMapKey (fuel depth : Nat) (chars : List Char) : Option (String × List Char) :=
  match fuel with
  | 0 => none
  | fuel + 1 => match readBytes chars, readName chars with
    | some (bytes, rest), _ => (text? bytes).map (·, rest)
    | none, some _ => none
    | none, none => (readValue fuel depth chars).bind fun
      | (.text key, rest) => some (key, rest)
      | _ => none

end

/-- The ways of writing that an attribute may enable. They change nothing here. -/
def extensions : List String :=
  ["unwrap_newtypes", "implicit_some", "unwrap_variant_newtypes", "explicit_struct_names"]

/-- What follows words, with white space or comments after each. -/
def afterWords? : List String → List Char → Option (List Char)
  | [], chars => some chars
  | word :: words, chars => do
    if word.toList.isPrefixOf chars then
      afterWords? words (← skip (chars.drop word.length))
    else none

/-- What follows the names of extensions, at least one. Each uses up one unit of `fuel`. -/
def skipExtensions (fuel : Nat) (chars : List Char) : Option (List Char) :=
  match fuel with
  | 0 => none
  | fuel + 1 => do
    let (name, rest) ← readFieldName chars
    let rest ← skip rest
    if !extensions.contains (String.ofList name) then none
    else match Read.after? ',' rest with
      | none => return rest
      | some rest =>
        let rest ← skip rest
        if rest.head?.any continuesName then skipExtensions fuel rest else return rest

/-- What follows the attributes at the start of a text. Each uses up one unit of `fuel`. -/
def skipAttributes (fuel : Nat) (chars : List Char) : Option (List Char) :=
  match fuel, chars with
  | fuel + 1, '#' :: rest => do
    let rest ← skipExtensions rest.length (← afterWords? ["#", "!", "[", "enable", "("] chars)
    skipAttributes fuel (← afterWords? [")", "]"] rest)
  | _, rest => some rest

/-- Reads a text. -/
def parse? (text : String) : Option Datum := do
  let chars ← skipAttributes text.length (← skip text.toList)
  let (value, rest) ← readValue (4 * (chars.length + 1)) maxDepth chars
  if (← skip rest).isEmpty then some value else none

end Linewise.Ron
