import Linewise.Proofs.Text.Lines
import Linewise.ThreeWay.Merge

/-!
# Conflicts are read back from between their markers

The text of a conflict shows the lines of left, base and right one after the other,
with a marker between each two, and leaves out the base with its marker if the base
has no lines. If no line could be taken for a marker, the lines of all three are found
again, so two conflicts that are shown alike hold the same lines.
-/

namespace Linewise

namespace Conflict

/-- No line of the conflict holds a line feed, and none could be taken for a marker between the
lines of left, base and right. A line like the closing marker does no harm, since nothing else comes
after that marker. -/
def Unmarked (c : Conflict) : Prop :=
  ∀ line ∈ c.left ++ c.base ++ c.right,
    '\n' ∉ line.toList ∧ line ≠ "||||||| base" ∧ line ≠ "======="

/-- What is shown of a conflict between the opening and the closing marker. -/
def innerLines (c : Conflict) : List String :=
  c.left ++ (if c.base.isEmpty then [] else "||||||| base" :: c.base) ++ "=======" :: c.right

/-- The lines of left, base and right that are shown between the opening and the closing marker. The
base has none if its marker is missing. -/
def readInner (lines : List String) : Option (ThreeSided (List String)) :=
  match lines.splitOn "=======" with
  | [before, right] =>
    match before.splitOn "||||||| base" with
    | [left] => some ⟨left, [], right⟩
    | [left, base] => some ⟨left, base, right⟩
    | _ => none
  | _ => none

variable {c c' : Conflict}

/-- Reading what is shown gives all lines back. -/
theorem readInner_innerLines (h : c.Unmarked) :
    readInner c.innerLines = some ⟨c.left, c.base, c.right⟩ := by
  have hleft : "=======" ∉ c.left ∧ "||||||| base" ∉ c.left :=
    ⟨fun hmem => (h _ (by simp [hmem])).2.2 rfl, fun hmem => (h _ (by simp [hmem])).2.1 rfl⟩
  have hbase : "=======" ∉ c.base ∧ "||||||| base" ∉ c.base :=
    ⟨fun hmem => (h _ (by simp [hmem])).2.2 rfl, fun hmem => (h _ (by simp [hmem])).2.1 rfl⟩
  have hright : "=======" ∉ c.right := fun hmem => (h _ (by simp [hmem])).2.2 rfl
  by_cases hempty : c.base = []
  · rw [innerLines, hempty, List.isEmpty_nil, if_pos rfl, List.append_nil, readInner,
      List.splitOn_append_cons_self_of_not_mem hleft.1, List.splitOn_eq_singleton hright]
    dsimp only
    rw [List.splitOn_eq_singleton hleft.2]
  · have hbefore : "=======" ∉ c.left ++ "||||||| base" :: c.base := by
      simp [hleft.1, hbase.1]
    rw [innerLines, if_neg (by simpa using hempty), readInner,
      List.splitOn_append_cons_self_of_not_mem hbefore, List.splitOn_eq_singleton hright]
    dsimp only
    rw [List.splitOn_append_cons_self_of_not_mem hleft.2, List.splitOn_eq_singleton hbase.2]

/-- The lines shown between the markers hold no line feed. -/
theorem Unmarked.newlineFree (h : c.Unmarked) : ∀ line ∈ c.innerLines, '\n' ∉ line.toList := by
  intro line hline
  have hcases : line ∈ c.left ++ c.base ++ c.right ∨ line = "||||||| base" ∨ line = "=======" := by
    rw [List.mem_append, List.mem_append]
    unfold innerLines at hline
    split at hline
    · rw [List.append_nil, List.mem_append, List.mem_cons] at hline
      grind
    · rw [List.mem_append, List.mem_append, List.mem_cons, List.mem_cons] at hline
      grind
  rcases hcases with hline | rfl | rfl
  · exact (h line hline).1
  · decide
  · decide

/-- The text of a conflict is what is shown between the opening and the closing marker, with both of
them around it. -/
theorem markedText_eq (c : Conflict) (leftName rightName : String) :
    c.markedText leftName rightName =
      ("<<<<<<< " ++ leftName ++ "\n") ++ terminated c.innerLines ++
        (">>>>>>> " ++ rightName ++ "\n") := by
  have hlines : c.markedLines leftName rightName =
      ("<<<<<<< " ++ leftName) :: (c.innerLines ++ [">>>>>>> " ++ rightName]) := by
    simp [markedLines, innerLines]
  rw [markedText, hlines, ← terminated, terminated_cons, terminated_append, terminated_cons,
    terminated_nil, String.append_empty, ← String.append_assoc]

/-- Whatever the names of the sides, two conflicts of which no line could be taken for a marker are
shown alike exactly if they hold the same lines on the left, in the base and on the right. -/
theorem markedText_eq_iff (leftName rightName : String) (hc : c.Unmarked) (hc' : c'.Unmarked) :
    c.markedText leftName rightName = c'.markedText leftName rightName ↔
      c.left = c'.left ∧ c.base = c'.base ∧ c.right = c'.right := by
  constructor
  · intro h
    rw [markedText_eq, markedText_eq, String.append_left_inj, String.append_right_inj] at h
    have hlines := eq_of_terminated_eq hc.newlineFree hc'.newlineFree h
    have hread := readInner_innerLines hc
    rw [hlines, readInner_innerLines hc', Option.some.injEq, ThreeSided.mk.injEq] at hread
    exact ⟨hread.1.symm, hread.2.1.symm, hread.2.2.symm⟩
  · rintro ⟨hleft, hbase, hright⟩
    rw [markedText, markedText, markedLines, markedLines, hleft, hbase, hright]

/-- An empty line that only left holds is not shown like one that the base holds as well. -/
theorem markedText_eq_iff_blank :
    let region : Region := ⟨.span 0 1, .span 0 1, .emptyAt 0⟩
    let c : Conflict := ⟨region, 0, [], [""], []⟩
    let c' : Conflict := ⟨region, 0, [""], [""], []⟩
    c.Unmarked ∧ c'.Unmarked ∧ c.markedText "ours" "theirs" ≠ c'.markedText "ours" "theirs" := by
  intro region c c'
  have hc : c.Unmarked := by
    unfold Unmarked
    decide
  have hc' : c'.Unmarked := by
    unfold Unmarked
    decide
  refine ⟨hc, hc', fun h => ?_⟩
  obtain ⟨_, hbase, _⟩ := (markedText_eq_iff "ours" "theirs" hc hc').mp h
  cases hbase

end Conflict

end Linewise
