import Linewise.Yaml.Scalar

/-!
# Nodes of YAML

A document is a node: a value without parts, a list or a table, whose keys are
nodes too. A node may be given a name by which it stands in other places.
-/

namespace Linewise.Yaml

/-- A node of a document. -/
inductive Node where
  | scalar (value : Scalar)
  | list (items : List Node)
  | table (fields : List (Node × Node))
  deriving Inhabited

namespace Node

/-- The node that stands for nothing. -/
def nothing : Node := .scalar .nothing

/-- The value of a node without parts. -/
def scalar? : Node → Option Scalar
  | .scalar value => some value
  | _ => none

/-- Whether two nodes without parts are the same. -/
def sameScalar (a b : Node) : Bool := a.scalar?.isSome && a.scalar? == b.scalar?

mutual

/-- The data for which a node stands. -/
def toDatum? : Node → Option Datum
  | .scalar value => value.toDatum?
  | .list items => (itemData? items).map .list
  | .table fields => (fieldData? fields).map .table

/-- The data for which the items of a list stand. -/
def itemData? : List Node → Option (List Datum)
  | [] => some []
  | item :: rest => do return (← toDatum? item) :: (← itemData? rest)

/-- The data for which the fields of a table stand. Only a node without parts can be a key. -/
def fieldData? : List (Node × Node) → Option (List (String × Datum))
  | [] => some []
  | (key, value) :: rest => do
    let name ← key.scalar?.bind Scalar.toKey?
    return (name, ← toDatum? value) :: (← fieldData? rest)

end

/-- The table of nodes that are keys and values in turn. A key that is not valid is passed over, and
a key must not come twice. -/
def fields? (seen : List (Node × Node)) : List Node → Option (List (Node × Node))
  | .scalar .invalid :: rest => fields? seen rest
  | key :: value :: rest =>
    if seen.any fun (other, _) => other.sameScalar key then none
    else fields? (seen ++ [(key, value)]) rest
  | _ => some seen

end Node

end Linewise.Yaml
