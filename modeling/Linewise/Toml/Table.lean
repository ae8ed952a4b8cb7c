import Linewise.Settings.Entries

/-!
# Tables in TOML

A table is opened by its header, made by a key with points in it, or implied on
the way to another table. Nothing may be defined twice: a key has one value, a
table one header, and a key with points adds only to what headers left open.
-/

namespace Linewise.Toml

/-- How a table came about. -/
inductive Origin where
  /-- On the way to the table of a header. -/
  | implied
  /-- By a key with points in it. -/
  | dotted
  /-- By its own header. -/
  | header
  deriving DecidableEq, Repr

/-- What stands under a key while a text is read. -/
inductive Item where
  /-- A finished value. -/
  | value (value : SettingValue)
  /-- A table that may grow. -/
  | table (origin : Origin) (fields : List (String × Item))
  /-- A list of tables, of which the last may grow. -/
  | tables (last : List (String × Item))

/-- The fields of a table, in order. -/
abbrev Fields := List (String × Item)

/-- The value that stands under a key when all is read. -/
def Item.toValue : Item → SettingValue
  | .value v => v
  | .table _ fields => .table (fields.map Prod.fst)
  | .tables _ => .list

namespace Fields

/-- What the fields give. -/
def entries (fields : Fields) : Entries := fields.map fun (name, item) => (name, item.toValue)

/-- Puts an item under a key, in place of what was there. -/
def set (fields : Fields) (name : String) (item : Item) : Fields :=
  if (fields.lookup name).isSome then
    fields.map fun (other, old) => (other, if other = name then item else old)
  else fields ++ [(name, item)]

/-- Defines the value of a key, given with all its points, in a table. -/
def define (value : SettingValue) : List String → Fields → Option Fields
  | [], _ => none
  | [name], fields =>
    if (fields.lookup name).isSome then none else some (fields.set name (.value value))
  | name :: path, fields =>
    match fields.lookup name with
    | none => (define value path []).map fun inner => fields.set name (.table .dotted inner)
    | some (.table .header _) => none
    | some (.table origin inner) =>
      (define value path inner).map fun inner => fields.set name (.table origin inner)
    | some (.value _) | some (.tables _) => none

/-- Makes a change in the table under a path of headers. Tables on the way are implied, and of a
list of tables the last is meant. -/
def inside (change : Fields → Option Fields) : List String → Fields → Option Fields
  | [], fields => change fields
  | name :: path, fields =>
    match fields.lookup name with
    | none => (inside change path []).map fun inner => fields.set name (.table .implied inner)
    | some (.table origin inner) =>
      (inside change path inner).map fun inner => fields.set name (.table origin inner)
    | some (.tables last) =>
      (inside change path last).map fun last => fields.set name (.tables last)
    | some (.value _) => none

/-- Opens a table by its header. -/
def openTable (name : String) (fields : Fields) : Option Fields :=
  match fields.lookup name with
  | none => some (fields.set name (.table .header []))
  | some (.table .implied inner) => some (fields.set name (.table .header inner))
  | _ => none

/-- Opens the next of a list of tables by its header. -/
def openNext (name : String) (fields : Fields) : Option Fields :=
  match fields.lookup name with
  | none | some (.tables _) => some (fields.set name (.tables []))
  | _ => none

end Fields

end Linewise.Toml
