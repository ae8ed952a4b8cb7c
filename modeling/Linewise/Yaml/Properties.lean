import Linewise.Yaml.Node
import Linewise.Yaml.Token

/-!
# Names and tags of nodes in YAML

A name and a tag may stand before a node, in any order. The tag says of what kind
a plain value is, and the name stands for the node in other places after it.
-/

namespace Linewise.Yaml

/-- What is known while nodes are read. -/
structure Known where
  /-- The beginnings of tags that are given to handles. -/
  handles : List (String × String) := []
  /-- The names that nodes were given, each with its number, the last one first. -/
  names : List (String × Nat) := []
  /-- The nodes that are complete, each under the number of its name. -/
  nodes : List (Nat × Node) := []

/-- The beginning of the tags of the core. -/
def coreTags : String := "tag:yaml.org,2002:"

namespace Known

/-- The two parts of the tag that a handle and what follows it make. A handle between exclamation
marks must have been given a beginning. -/
def tag? (known : Known) (handle suffix : String) : Option (String × String) :=
  match known.handles.lookup handle with
  | some beginning => some (beginning, suffix)
  | none =>
    if handle = "!!" then some (coreTags, suffix)
    else if 2 ≤ handle.length && handle.startsWith "!" && handle.endsWith "!" then none
    else some (handle, suffix)

/-- Gives a name to the next node, and tells its number. -/
def giveName (known : Known) (name : String) : Nat × Known :=
  (known.names.length, { known with names := (name, known.names.length) :: known.names })

/-- Notes a complete node under its number. -/
def complete (known : Known) (number : Option Nat) (node : Node) : Known :=
  match number with
  | none => known
  | some number => { known with nodes := (number, node) :: known.nodes }

/-- The node with a given name. It is not valid while it is not complete. -/
def named? (known : Known) (name : String) : Option Node :=
  (known.names.lookup name).map fun number =>
    (known.nodes.lookup number).getD (.scalar .invalid)

end Known

/-- What stands before a node. -/
structure Properties where
  /-- The number of the name that the node is given. -/
  number : Option Nat := none
  /-- The two parts of its tag. -/
  tag : Option (String × String) := none

/-- Reads what stands before a node, a name and a tag in any order, and what follows. -/
def readProperties (known : Known) (tokens : List Token) :
    Option (Properties × Known × List Token) :=
  match tokens with
  | .anchor name :: .tag handle suffix :: rest | .tag handle suffix :: .anchor name :: rest => do
    let tag ← known.tag? handle suffix
    let (number, known) := known.giveName name
    return (⟨some number, some tag⟩, known, rest)
  | .anchor name :: rest =>
    let (number, known) := known.giveName name
    some (⟨some number, none⟩, known, rest)
  | .tag handle suffix :: rest => do
    return (⟨none, some (← known.tag? handle suffix)⟩, known, rest)
  | rest => some ({}, known, rest)

/-- The node of a value without parts. Only a plain one is looked into, and then only a tag of the
core counts. -/
def Properties.scalar (properties : Properties) (plain : Bool) (text : String) : Node :=
  match plain, properties.tag with
  | false, _ => .scalar (.text text)
  | true, none => .scalar (.ofPlain text)
  | true, some (beginning, suffix) =>
    if beginning = coreTags then .scalar (.ofTagged suffix text) else .scalar (.text text)

end Linewise.Yaml
