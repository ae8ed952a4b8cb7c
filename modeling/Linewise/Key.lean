import Std.Data.HashMap
import Linewise.Policy

/-!
# Line keys as numbers

Before lines are compared, each is given a number under the policy at hand, so
that equal numbers mean equal lines. Numbers go by first occurrence in the first
list and then the second: 0, 1, 2, …
-/

namespace Linewise

/-- The numbers given so far. -/
abbrev KeyTable := Std.HashMap String Nat

/-- Numbers the entries in order: one that was seen keeps its number and a new one gets the size
of the table. -/
def assignKeys (table : KeyTable) : List String → List Nat × KeyTable
  | [] => ([], table)
  | entry :: rest =>
    let later := assignKeys (table.insertIfNew entry table.size) rest
    (table.getD entry table.size :: later.1, later.2)

/-- Numbers the lines of two documents under one policy, with one table for both. -/
def internLines (policy : Policy) (lines₁ lines₂ : Array String) : Array Nat × Array Nat :=
  let first := assignKeys ∅ (lines₁.toList.map policy.lineKey)
  let second := assignKeys first.2 (lines₂.toList.map policy.lineKey)
  (first.1.toArray, second.1.toArray)

/-- Every entry gets one number. -/
theorem length_assignKeys (table : KeyTable) (entries : List String) :
    (assignKeys table entries).1.length = entries.length := by
  induction entries generalizing table with
  | nil => rfl
  | cons entry rest ih => simp [assignKeys, ih]

end Linewise
