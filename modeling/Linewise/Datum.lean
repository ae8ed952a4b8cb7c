import Linewise.Number.Binary64

/-!
# Data

Several notations write the same data: simple values, lists of data, and tables,
which give data under keys.
-/

namespace Linewise

/-- A piece of data. -/
inductive Datum where
  /-- What stands for no value. -/
  | nothing
  | boolean (value : Bool)
  | integer (value : Int)
  | number (value : Binary64)
  | text (value : String)
  | list (items : List Datum)
  /-- A table with its fields in the order in which they are written. -/
  | table (fields : List (String × Datum))
  deriving Inhabited

end Linewise
