import Linewise.Proofs.Script.Frontier
import Linewise.Script.Direct

/-!
# The direct search finds a shortest script

The rounds before the one that reaches the end are as many as the edits that a
longest common subsequence leaves. Walking back over their rows visits the
furthest point of one diagonal in each round, so the walk undoes one edit a row.
-/

namespace Linewise.Script

open Frontier

variable {a b : Array Nat} {row : Row} {rows : List Row} {distance : Nat}

/-- The rows of a search, the latest first, are frontiers of successive rounds. -/
def IsTrace (a b : Array Nat) : List Row → Prop
  | [] => True
  | row :: rows => row.size = rows.length + 1 ∧ IsFrontier a b row ∧ IsTrace a b rows

/-- The latest row of a trace is a frontier, and so is the empty row before round zero. -/
theorem IsTrace.headD (h : IsTrace a b rows) :
    (rows.headD #[]).size = rows.length ∧ IsFrontier a b (rows.headD #[]) := by
  cases rows with
  | nil => exact ⟨rfl, fun i hi => absurd hi (Nat.not_lt_zero i)⟩
  | cons row rows => exact ⟨h.1, h.2.1⟩

/-- A row reaches the end if one of its entries is at or past it on both sides. -/
theorem reachesEnd_iff {n m : Nat} :
    reachesEnd n m row = true ↔
      ∃ i < row.size, n ≤ row.getD i 0 ∧ m ≤ height (row.size - 1) i (row.getD i 0) := by
  simp only [reachesEnd, List.any_eq_true, List.mem_range, Bool.and_eq_true, decide_eq_true_eq]

/-- A point at or past the end on both sides is the end itself, if it is reached with no more edits
than are needed for the end. -/
theorem eq_end_of_within {d x y : Nat} (h : Within a b d x y) (hx : a.size ≤ x) (hy : b.size ≤ y)
    (hdistance : distance + 2 * commonLength a.toList b.toList = a.size + b.size)
    (hd : d ≤ distance) : x = a.size ∧ y = b.size ∧ d = distance := by
  unfold Within at h
  rw [commonBefore_of_le hx hy] at h
  omega

/-- The end is the furthest point of its diagonal in the round that reaches it with all edits
needed. -/
theorem furthest_size
    (hdistance : distance + 2 * commonLength a.toList b.toList = a.size + b.size) :
    ∃ i ≤ distance, Furthest a b distance i a.size b.size := by
  have hend := commonBefore_of_le (Nat.le_refl a.size) (Nat.le_refl b.size)
  have hbeyond := commonBefore_of_le (Nat.le_add_right a.size 1) (Nat.le_add_right b.size 1)
  have hwithin : Within a b distance a.size b.size := by
    unfold Within
    omega
  have := hwithin.diagonal_le
  refine ⟨(a.size + distance - b.size) / 2, by omega, by omega, hwithin, ?_⟩
  unfold Within
  omega

/-- The frontier with as many edits as needed reaches the end. -/
theorem reachesEnd_of_distance (hrow : IsFrontier a b row) (hsize : row.size = distance + 1)
    (hdistance : distance + 2 * commonLength a.toList b.toList = a.size + b.size) :
    reachesEnd a.size b.size row = true := by
  obtain ⟨i, hi, hend⟩ := furthest_size hdistance
  rw [reachesEnd_iff]
  have hfurthest := hrow i (by omega)
  rw [hsize, Nat.add_sub_cancel] at hfurthest ⊢
  have hle := (hfurthest.le_iff hend.diagonal).mpr hend.within
  have := hfurthest.diagonal
  have := hend.diagonal
  exact ⟨i, by omega, hle, by omega⟩

/-- The search keeps the rows of all rounds before the one that reaches the end. -/
theorem searchRows_spec
    (hdistance : distance + 2 * commonLength a.toList b.toList = a.size + b.size) (fuel : Nat)
    (hrows : IsTrace a b rows) (hlength : rows.length ≤ distance)
    (hfuel : distance < rows.length + fuel) :
    IsTrace a b (searchRows a b fuel rows) ∧ (searchRows a b fuel rows).length = distance := by
  induction fuel generalizing rows with
  | zero => omega
  | succ fuel ih =>
    have hsize := size_next a b (rows.headD #[])
    have hnext := isFrontier_next hrows.headD.2
    rw [hrows.headD.1] at hsize
    simp only [searchRows]
    by_cases hend : reachesEnd a.size b.size (next a b (rows.headD #[])) = true
    · rw [if_pos hend]
      obtain ⟨i, hi, hx, hy⟩ := reachesEnd_iff.mp hend
      have hlast := eq_end_of_within (hnext i hi).within hx hy hdistance (by omega)
      exact ⟨hrows, by omega⟩
    · rw [if_neg hend]
      have hne : rows.length ≠ distance := fun heq =>
        hend (reachesEnd_of_distance hnext (by omega) hdistance)
      refine ih ⟨hsize, hnext, hrows⟩ ?_ ?_
      · rw [List.length_cons]
        omega
      · rw [List.length_cons]
        omega

/-- From the furthest point of a diagonal the matches of its round lead back to where its entry
starts. -/
theorem run_of_furthest {i x y : Nat} (hrow : IsFrontier a b row)
    (h : Furthest a b row.size i x y) :
    i ≤ row.size ∧ Run (Agree ⟨a, b⟩) (entry row i) (height row.size i (entry row i)) x y := by
  have hdiagonal := h.diagonal
  have hi : i ≤ row.size := by
    have := h.within.diagonal_le
    omega
  obtain ⟨hreached, hrun⟩ := furthest_follow hrow hi
  have hx := Nat.le_antisymm ((h.le_iff hreached.diagonal).mpr hreached.within)
    ((hreached.le_iff hdiagonal).mpr h.within)
  have hy : height row.size i x = y := by
    unfold height
    omega
  simp only [hx, hy] at hrun
  exact ⟨hi, hrun⟩

/-- Where the entry of a point was reached by a step down, walking back undoes an insertion. -/
theorem walkBack_of_stepsDown {i x y : Nat} (hrow : IsFrontier a b row) (hpos : 0 < row.size)
    (h : Furthest a b row.size i x y) (hdown : stepsDown row i = true) :
    ∃ y', Furthest a b (row.size - 1) i (row.getD i 0) y' ∧
      Run (Agree ⟨a, b⟩) (row.getD i 0) (y' + 1) x y ∧
      ∀ rows script, walkBack (row :: rows) x y script =
        walkBack rows (row.getD i 0) y' (.insert :: (kept (x - row.getD i 0) ++ script)) := by
  obtain ⟨hi, hrun⟩ := run_of_furthest hrow h
  obtain ⟨y', hy', hbefore⟩ := furthest_of_stepsDown hrow hpos hi hdown
  have hentry : entry row i = row.getD i 0 := if_pos hdown
  rw [hy', hentry] at hrun
  rw [hentry] at hbefore
  refine ⟨y', hbefore, hrun, fun rows script => ?_⟩
  have hdiagonal := h.diagonal
  have hlength := hrun.same_length
  have hle := hrun.le₂
  simp only [walkBack, show (x + row.size - y) / 2 = i by omega, hdown, if_true, hentry,
    show y - (x - row.getD i 0) - 1 = y' by omega]

/-- Where the entry of a point was reached by a step to the right, walking back undoes a
deletion. -/
theorem walkBack_of_not_stepsDown {i x y : Nat} (hrow : IsFrontier a b row)
    (h : Furthest a b row.size i x y) (hright : stepsDown row i = false) :
    ∃ j y', i = j + 1 ∧ Furthest a b (row.size - 1) j (row.getD j 0) y' ∧
      Run (Agree ⟨a, b⟩) (row.getD j 0 + 1) y' x y ∧
      ∀ rows script, walkBack (row :: rows) x y script =
        walkBack rows (row.getD j 0) y' (.delete :: (kept (y - y') ++ script)) := by
  obtain ⟨hi, hrun⟩ := run_of_furthest hrow h
  obtain ⟨j, hj, hentry, hbefore⟩ := furthest_of_not_stepsDown hrow hi hright
  rw [hentry] at hrun hbefore
  refine ⟨j, _, hj, hbefore, hrun, fun rows script => ?_⟩
  have hdiagonal := h.diagonal
  have hlength := hrun.same_length
  have hle := hrun.le₂
  simp only [walkBack, show (x + row.size - y) / 2 = i by omega, hright, Bool.false_eq_true,
    if_false, hentry, Nat.add_sub_cancel, hlength]
  rw [show y - (y - height row.size i (row.getD j 0 + 1)) =
    height row.size i (row.getD j 0 + 1) by omega]

/-- An insertion and the matches after it go on from where a script has led. -/
theorem Transforms.append_insert {before : Script} {x y x' y' : Nat}
    (h : Transforms before (a.toList.take x') (b.toList.take y'))
    (hrun : Run (Agree ⟨a, b⟩) x' (y' + 1) x y) (hy : y ≤ b.size) :
    Transforms (before ++ .insert :: kept (x - x')) (a.toList.take x) (b.toList.take y) := by
  obtain ⟨run, hlength, ha, hb⟩ := exists_append_of_run hrun
  have hle := hrun.le₂
  have hkept := transforms_kept run
  have htake : b.toList.take (y' + 1) = b.toList.take y' ++ [b[y']] := by
    rw [List.take_add_one, List.getElem?_eq_getElem (by simp; omega)]
    rfl
  rw [ha, hb, htake, List.append_assoc, ← hlength]
  exact h.append (hkept.insert _)

/-- A deletion and the matches after it go on from where a script has led. -/
theorem Transforms.append_delete {before : Script} {x y x' y' : Nat}
    (h : Transforms before (a.toList.take x') (b.toList.take y'))
    (hrun : Run (Agree ⟨a, b⟩) (x' + 1) y' x y) (hx : x ≤ a.size) :
    Transforms (before ++ .delete :: kept (y - y')) (a.toList.take x) (b.toList.take y) := by
  obtain ⟨run, hlength, ha, hb⟩ := exists_append_of_run hrun
  have hle := hrun.le₁
  have hkept := transforms_kept run
  have htake : a.toList.take (x' + 1) = a.toList.take x' ++ [a[x']] := by
    rw [List.take_add_one, List.getElem?_eq_getElem (by simp; omega)]
    rfl
  rw [ha, hb, htake, List.append_assoc, ← hrun.same_length, ← hlength]
  exact h.append (hkept.delete _)

/-- Walking back from the furthest point of a diagonal undoes one edit a row. -/
theorem walkBack_spec {i x y : Nat} (hrows : IsTrace a b rows)
    (h : Furthest a b rows.length i x y) (hx : x ≤ a.size) (hy : y ≤ b.size)
    (script : Script) :
    ∃ before, walkBack rows x y script = before ++ script ∧ before.cost = rows.length ∧
      Transforms before (a.toList.take x) (b.toList.take y) := by
  induction rows generalizing i x y script with
  | nil =>
    have hwithin := h.within
    have hle := commonBefore_le a b x y
    have hlengthA : (a.toList.take x).length = x := List.length_take_of_le (by simpa using hx)
    have hlengthB : (b.toList.take y).length = y := List.length_take_of_le (by simpa using hy)
    simp only [Within, List.length_nil, commonBefore] at hwithin hle
    have heq := eq_of_commonLength (a := a.toList.take x) (b := b.toList.take y) (by omega)
      (by omega)
    have hkept := transforms_kept (a.toList.take x)
    rw [hlengthA] at hkept
    refine ⟨kept (min x y), rfl, cost_kept _, ?_⟩
    rw [← heq, show min x y = x by omega]
    exact hkept
  | cons row rows ih =>
    obtain ⟨hsize, hrow, hrows⟩ := hrows
    rw [List.length_cons, ← hsize] at h
    have hlast : row.size - 1 = rows.length := by omega
    cases hstep : stepsDown row i with
    | true =>
      obtain ⟨y', hbefore, hrun, hwalk⟩ := walkBack_of_stepsDown hrow (by omega) h hstep
      have := hrun.le₁
      have := hrun.le₂
      rw [hlast] at hbefore
      obtain ⟨before, hwalkBefore, hcost, htransforms⟩ := ih hrows hbefore (by omega) (by omega)
        (.insert :: (kept (x - row.getD i 0) ++ script))
      refine ⟨before ++ .insert :: kept (x - row.getD i 0), ?_, ?_,
        htransforms.append_insert hrun hy⟩
      · rw [hwalk, hwalkBefore, List.append_assoc, List.cons_append]
      · rw [cost_append, hcost, cost, cost_kept, List.length_cons]
    | false =>
      obtain ⟨j, y', -, hbefore, hrun, hwalk⟩ := walkBack_of_not_stepsDown hrow h hstep
      have := hrun.le₁
      have := hrun.le₂
      rw [hlast] at hbefore
      obtain ⟨before, hwalkBefore, hcost, htransforms⟩ := ih hrows hbefore (by omega) (by omega)
        (.delete :: (kept (y - y') ++ script))
      refine ⟨before ++ .delete :: kept (y - y'), ?_, ?_, htransforms.append_delete hrun hx⟩
      · rw [hwalk, hwalkBefore, List.append_assoc, List.cons_append]
      · rw [cost_append, hcost, cost, cost_kept, List.length_cons]

/-- The rows that the search keeps are as many as the edits needed, and the end is the furthest
point of its diagonal in the round after them. -/
theorem searchRows_reaches (a b : Array Nat) :
    let rows := searchRows a b (a.size + b.size + 1) []
    IsTrace a b rows ∧ rows.length + 2 * commonLength a.toList b.toList = a.size + b.size ∧
      ∃ i, Furthest a b rows.length i a.size b.size := by
  intro rows
  have hle := commonLength_le a.toList b.toList
  simp only [Array.length_toList] at hle
  have hdistance : a.size + b.size - 2 * commonLength a.toList b.toList +
      2 * commonLength a.toList b.toList = a.size + b.size := by omega
  obtain ⟨htrace, hlength⟩ := searchRows_spec hdistance (a.size + b.size + 1)
    (show IsTrace a b [] from trivial) (Nat.zero_le _) (by rw [List.length_nil]; omega)
  obtain ⟨i, -, hend⟩ := furthest_size hdistance
  rw [← hlength] at hdistance hend
  exact ⟨htrace, hdistance, i, hend⟩

/-- The direct search finds a shortest script. -/
theorem isShortest_direct (a b : Array Nat) : IsShortest (direct a b) a.toList b.toList := by
  unfold direct
  by_cases hempty : (a.isEmpty || b.isEmpty) = true
  · rw [if_pos hempty]
    have hle := commonLength_le a.toList b.toList
    simp only [Array.length_toList] at hle
    simp only [Bool.or_eq_true, Array.isEmpty_iff_size_eq_zero] at hempty
    have hzero : commonLength a.toList b.toList = 0 := by omega
    simpa using isShortest_replaced hzero
  · rw [if_neg hempty]
    obtain ⟨htrace, hdistance, i, hend⟩ := searchRows_reaches a b
    obtain ⟨before, hwalk, hcost, htransforms⟩ :=
      walkBack_spec htrace hend (Nat.le_refl _) (Nat.le_refl _) []
    rw [List.take_of_length_le (by simp), List.take_of_length_le (by simp)] at htransforms
    rw [hwalk, List.append_nil]
    refine ⟨htransforms, ?_⟩
    simp only [Array.length_toList]
    omega

end Linewise.Script
