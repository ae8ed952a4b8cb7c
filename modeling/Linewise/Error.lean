/-!
# Refused inputs

Comparing two documents never fails. What can be refused is a range, a fragment,
a region or a policy name handed in by a caller. Each cause is a constructor of
`InputError`, and `InputError.message` gives its wording.
-/

namespace Linewise

/-- Why a range, a fragment, a region or a policy name was refused. -/
inductive InputError where
  /-- A line range that starts past its end. -/
  | invalidRange (start stop : Nat)
  /-- A line range that reaches past the last line of its document. -/
  | outOfBounds (start stop lineCount : Nat)
  /-- A fragment that changes nothing on either side. -/
  | emptyFragment
  /-- A region that is empty on all three sides. -/
  | emptyRegion
  /-- A region in which neither side differs from the base. -/
  | unchangedRegion
  /-- A policy name that is not known, as it was given. -/
  | unknownPolicy (name : String)
  deriving DecidableEq, Repr

/-- The wording of a refusal. -/
def InputError.message : InputError → String
  | .invalidRange start stop =>
    s!"Invalid line range: start {start} is past end {stop}"
  | .outOfBounds start stop lineCount =>
    s!"Line range {start}..{stop} is out of bounds for {lineCount} lines"
  | .emptyFragment => "Line fragment must change at least one side"
  | .emptyRegion => "Three-side range must have at least one non-empty side"
  | .unchangedRegion => "Three-side range is unchanged on both sides relative to base"
  | .unknownPolicy name => "Unknown comparison policy: " ++ name

end Linewise
