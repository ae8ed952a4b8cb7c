import Linewise.Yaml.Properties
import Linewise.Yaml.Tokens

/-!
# Documents of YAML

A text holds one document, perhaps with directives before it. Its node is read from
the tokens of the text: lists and tables that the layout opens, and those in
brackets and braces, where a field may also stand in a list.
-/

namespace Linewise.Yaml

/-- What was read, with what is known after it and the tokens that follow. -/
abbrev Found (α : Type) := α × Known × List Token

/-- Makes something else of what was read. -/
def Found.map {α β : Type} (make : α → β) (found : Found α) : Found β := (make found.1, found.2)

/-- The table of the keys and values that were read in turn. -/
def Found.table? (found : Found (List Node)) : Option (Found Node) :=
  (Node.fields? [] found.1).map (.table ·, found.2)

/-- What follows a given token, if that is the next one. -/
def afterToken? (token : Token) : List Token → Option (List Token)
  | first :: rest => if first = token then some rest else none
  | [] => none

mutual

/-- Reads a node. Lists and tables that the layout opens may begin here if `inBlock`, and a list
that is not indented if `flat`. Each node and each part uses up some units of `fuel`. -/
def readNode (fuel : Nat) (inBlock flat : Bool) (known : Known) (tokens : List Token) :
    Option (Found Node) :=
  match fuel, tokens with
  | 0, _ => none
  | _, .alias name :: rest => (known.named? name).map (·, known, rest)
  | fuel + 1, tokens => do
    let (properties, known, tokens) ← readProperties known tokens
    let (node, known, rest) ← readContent fuel inBlock flat properties known tokens
    return (node, known.complete properties.number node, rest)

/-- Reads a node after what stands before it. Without content it is an empty plain value, if
something stands before it. -/
def readContent (fuel : Nat) (inBlock flat : Bool) (properties : Properties) (known : Known)
    (tokens : List Token) : Option (Found Node) :=
  match fuel with
  | 0 => none
  | fuel + 1 =>
    match tokens, inBlock, flat with
    | .item :: _, _, true => (readFlatItems fuel known tokens).map (Found.map .list)
    | .scalar plain text :: rest, _, _ => some (properties.scalar plain text, known, rest)
    | .bracketOpen :: rest, _, _ => (readFlowItems fuel true known rest).map (Found.map .list)
    | .braceOpen :: rest, _, _ => (readFlowFields fuel true known rest).bind Found.table?
    | .listOpen :: rest, true, _ => (readItems fuel known rest).map (Found.map .list)
    | .tableOpen :: rest, true, _ => (readFields fuel known rest).bind Found.table?
    | tokens, _, _ =>
      if properties.number.isSome || properties.tag.isSome then
        some (properties.scalar true "", known, tokens)
      else none

/-- Reads a node, or nothing where one of the tokens `stops` comes next. -/
def readPart (fuel : Nat) (inBlock flat : Bool) (stops : List Token) (known : Known)
    (tokens : List Token) : Option (Found Node) :=
  match fuel with
  | 0 => none
  | fuel + 1 =>
    if tokens.head?.any stops.contains then some (.nothing, known, tokens)
    else readNode fuel inBlock flat known tokens

/-- Reads the value of a field after its sign, or nothing where there is none. -/
def readFieldValue (fuel : Nat) (inBlock : Bool) (stops : List Token) (known : Known)
    (tokens : List Token) : Option (Found Node) :=
  match fuel, tokens with
  | fuel + 1, .value :: rest => readPart fuel inBlock inBlock stops known rest
  | _, tokens => some (.nothing, known, tokens)

/-- Reads the items of a list up to its end. -/
def readItems (fuel : Nat) (known : Known) (tokens : List Token) : Option (Found (List Node)) :=
  match fuel, tokens with
  | _, .close :: rest => some ([], known, rest)
  | fuel + 1, .item :: rest => do
    let (item, known, rest) ← readPart fuel true false [.item, .close] known rest
    let (items, after) ← readItems fuel known rest
    return (item :: items, after)
  | _, _ => none

/-- Reads the items of a list that is not indented. -/
def readFlatItems (fuel : Nat) (known : Known) (tokens : List Token) : Option (Found (List Node)) :=
  match fuel, tokens with
  | fuel + 1, .item :: rest => do
    let (item, known, rest) ← readPart fuel true false [.item, .key, .value, .close] known rest
    let (items, after) ← readFlatItems fuel known rest
    return (item :: items, after)
  | _, tokens => some ([], known, tokens)

/-- Reads the fields of a table up to its end, as keys and values in turn. -/
def readFields (fuel : Nat) (known : Known) (tokens : List Token) : Option (Found (List Node)) :=
  match fuel, tokens with
  | _, .close :: rest => some ([], known, rest)
  | fuel + 1, tokens => do
    let stops := [Token.key, .value, .close]
    let (key, known, rest) ← match tokens with
      | .key :: rest => readPart fuel true true stops known rest
      | .value :: _ => some (.nothing, known, tokens)
      | _ => none
    let (value, known, rest) ← readFieldValue fuel true stops known rest
    let (nodes, after) ← readFields fuel known rest
    return (key :: value :: nodes, after)
  | _, _ => none

/-- Reads the items of a list in brackets up to its end. A field among them is a table of its own.
-/
def readFlowItems (fuel : Nat) (first : Bool) (known : Known) (tokens : List Token) :
    Option (Found (List Node)) :=
  match fuel, tokens with
  | _, .bracketClose :: rest => some ([], known, rest)
  | fuel + 1, tokens => do
    let tokens ← if first then some tokens else afterToken? .comma tokens
    match tokens with
    | .bracketClose :: rest => return ([], known, rest)
    | tokens =>
      let (item, known, rest) ← match tokens with
        | .key :: rest => (readPair fuel known rest).bind Found.table?
        | tokens => readNode fuel false false known tokens
      let (items, after) ← readFlowItems fuel false known rest
      return (item :: items, after)
  | _, _ => none

/-- Reads a field in brackets after the sign before its key. Where no key follows, the next token
does not count. -/
def readPair (fuel : Nat) (known : Known) (tokens : List Token) : Option (Found (List Node)) :=
  match fuel with
  | 0 => none
  | fuel + 1 => do
    let (key, known, rest) ←
      if tokens.head?.any [Token.value, .comma, .bracketClose].contains then
        some (Node.nothing, known, tokens.tail)
      else readNode fuel false false known tokens
    let (value, after) ← readFieldValue fuel false [.comma, .bracketClose] known rest
    return ([key, value], after)

/-- Reads the fields of a table in braces up to its end, as keys and values in turn. -/
def readFlowFields (fuel : Nat) (first : Bool) (known : Known) (tokens : List Token) :
    Option (Found (List Node)) :=
  match fuel, tokens with
  | _, .braceClose :: rest => some ([], known, rest)
  | fuel + 1, tokens => do
    let tokens ← if first then some tokens else afterToken? .comma tokens
    match tokens with
    | .braceClose :: rest => return ([], known, rest)
    | tokens =>
      let (key, known, rest) ← match tokens with
        | .key :: rest => readPart fuel false false [.value, .comma, .braceClose] known rest
        | .value :: _ => some (.nothing, known, tokens)
        | tokens => readNode fuel false false known tokens
      let isPlain := !tokens.head?.any [Token.key, .value].contains
      let (value, known, rest) ← if isPlain then some (.nothing, known, rest)
        else readFieldValue fuel false [.comma, .braceClose] known rest
      let (nodes, after) ← readFlowFields fuel false known rest
      return (key :: value :: nodes, after)
  | _, _ => none

end

/-- Reads the directives before a document, and what follows. Only the last one counts, and a
version must not be told twice. -/
def readDirectives (versioned : Bool) (known : Known) :
    List Token → Option (Known × List Token)
  | .version :: rest => if versioned then none else readDirectives true {} rest
  | .handle name beginning :: rest =>
    readDirectives versioned { handles := [(name, beginning)] } rest
  | rest => some (known, rest)

/-- Whether nothing but marks after documents is left. -/
def isFinished (tokens : List Token) : Bool := tokens.all (· == .documentEnd)

/-- Reads a document from its content on, which nothing else may follow. -/
def readDocument (known : Known) (tokens : List Token) : Option Datum := do
  let (node, _, rest) ← readNode (5 * (tokens.length + 1)) true false known tokens
  if isFinished rest then node.toDatum? else none

/-- Reads a text, which holds at most one document. Without one it is an empty table. -/
def parse? (text : String) : Option Datum := do
  match (← tokens? text).dropWhile (· == .documentEnd) with
  | [] => some (.table [])
  | tokens =>
    let (known, rest) ← readDirectives false {} tokens
    match rest with
    | .documentStart :: rest => if isFinished rest then some .nothing else readDocument known rest
    | rest => if rest.length = tokens.length then readDocument known rest else none

end Linewise.Yaml
