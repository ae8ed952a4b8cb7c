import Linewise.Json.Basic
import Linewise.ThreeWay.Merge

/-!
# JSON forms

The JSON form of each public type. A record is an object of its fields, a plain
choice is the string of its name, and a choice that carries data is an object of
one field named for it.
-/

namespace Linewise

/-- A range as its two bounds. -/
def LineRange.toJson (r : LineRange) : Json :=
  .object [("start", .nat r.start), ("end", .nat r.stop)]

/-- A fragment as its two ranges. -/
def Fragment.toJson (f : Fragment) : Json :=
  .object [("deleted", f.deleted.toJson), ("inserted", f.inserted.toJson)]

/-- A patch as the list of its fragments. -/
def Patch.toJson (p : Patch) : Json := .list Fragment.toJson p

/-- A side as its name. -/
def Side.toJson (s : Side) : Json := .string s.name

/-- A side as its name. -/
def ThreeSide.toJson (s : ThreeSide) : Json := .string s.name

/-- A policy as its name. -/
def Policy.toJson (p : Policy) : Json := .string p.name

/-- Reads a policy: its exact name, or an object whose only field has that name and no value. -/
def Policy.ofJson? : Json → Option Policy
  | .string name => Policy.ofName? name
  | .object [(name, .null)] => Policy.ofName? name
  | _ => none

/-- A region as its three ranges. -/
def Region.toJson (r : Region) : Json :=
  .object [("left", r.left.toJson), ("base", r.base.toJson), ("right", r.right.toJson)]

/-- A judgement as its kind and the two sides that changed. -/
def Classification.toJson (c : Classification) : Json :=
  .object [("diff_type", .string c.kind.name), ("left_change", .bool c.leftChanged),
    ("right_change", .bool c.rightChanged)]

/-- A change as its region and the judgement on it. -/
def Change.toJson (c : Change) : Json :=
  .object [("range", Region.toJson c.region), ("conflict_type", c.classification.toJson)]

/-- A conflict as its region, its merged line and the lines of the three sides. -/
def Conflict.toJson (c : Conflict) : Json :=
  .object [("range", Region.toJson c.region), ("merged_line", .nat c.mergedLine),
    ("base_lines", .strings c.base), ("left_lines", .strings c.left),
    ("right_lines", .strings c.right)]

/-- An outcome as the merged text or the list of conflicts. -/
def MergeOutcome.toJson : MergeOutcome → Json
  | .merged text => .object [("Merged", .string text)]
  | .conflicts found => .object [("Conflicts", .list Conflict.toJson found)]

end Linewise
