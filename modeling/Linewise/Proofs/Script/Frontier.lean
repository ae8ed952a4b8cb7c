import Linewise.Proofs.Patch.Run
import Linewise.Proofs.Script.CommonLength
import Linewise.Script.Frontier

/-!
# Frontiers reach as far as their edits allow

The edits that lead to a point of the grid are counted by what the two sequences
have in common before it. A row is a frontier if each of its entries is the last
point of its diagonal within as many edits as the number of its round, and the
row after a frontier is one as well. Points outside the grid count as reached by
further deletions and insertions.
-/

namespace Linewise.Frontier

variable {a b : Array Nat} {d i x y x' y' : Nat}

/-- The length of a longest common subsequence of the first `x` and the first `y` elements. -/
def commonBefore (a b : Array Nat) (x y : Nat) : Nat :=
  commonLength (a.toList.take x) (b.toList.take y)

/-- The first `x` elements lead to the first `y` elements with at most `d` edits. -/
def Within (a b : Array Nat) (d x y : Nat) : Prop := x + y ≤ d + 2 * commonBefore a b x y

/-- What is common is no longer than either beginning. -/
theorem commonBefore_le (a b : Array Nat) (x y : Nat) :
    commonBefore a b x y ≤ x ∧ commonBefore a b x y ≤ y := by
  have := commonLength_le (a.toList.take x) (b.toList.take y)
  have := List.length_take_le x a.toList
  have := List.length_take_le y b.toList
  simp only [commonBefore]
  omega

/-- Longer beginnings have no less in common. -/
theorem commonBefore_mono (a b : Array Nat) (hx : x ≤ x') (hy : y ≤ y') :
    commonBefore a b x y ≤ commonBefore a b x' y' :=
  commonLength_mono (List.take_sublist_take_left hx) (List.take_sublist_take_left hy)

/-- Elements that do not exist have nothing in common. -/
theorem commonBefore_of_le (hx : a.size ≤ x) (hy : b.size ≤ y) :
    commonBefore a b x y = commonLength a.toList b.toList := by
  rw [commonBefore, List.take_of_length_le (by simpa using hx),
    List.take_of_length_le (by simpa using hy)]

/-- A run of equal elements is the same continuation of both beginnings. -/
theorem exists_append_of_run (h : Run (Agree ⟨a, b⟩) x y x' y') :
    ∃ run, run.length = x' - x ∧ a.toList.take x' = a.toList.take x ++ run ∧
      b.toList.take y' = b.toList.take y ++ run := by
  have hrun (k : Nat) (hk : k ≤ x' - x) :
      ∃ run, run.length = k ∧ a.toList.take (x + k) = a.toList.take x ++ run ∧
        b.toList.take (y + k) = b.toList.take y ++ run := by
    induction k with
    | zero => exact ⟨[], rfl, by simp, by simp⟩
    | succ k ih =>
      obtain ⟨run, hlength, ha, hb⟩ := ih (by omega)
      obtain ⟨z, hx, hy⟩ := h.pairs k hk
      rw [← Array.getElem?_toList] at hx hy
      refine ⟨run ++ [z], by simp [hlength], ?_, ?_⟩
      · rw [← Nat.add_assoc, List.take_add_one, ha, hx, Option.toList_some, List.append_assoc]
      · rw [← Nat.add_assoc, List.take_add_one, hb, hy, Option.toList_some, List.append_assoc]
  have hx : x + (x' - x) = x' := by
    have := h.le₁
    omega
  have hy : y + (x' - x) = y' := by
    have := h.same_length
    have := h.le₂
    omega
  have hwhole := hrun (x' - x) (Nat.le_refl _)
  rwa [hx, hy] at hwhole

/-- A run of equal elements adds its length. -/
theorem commonBefore_of_run (h : Run (Agree ⟨a, b⟩) x y x' y') :
    commonBefore a b x' y' = commonBefore a b x y + (x' - x) := by
  obtain ⟨run, hlength, ha, hb⟩ := exists_append_of_run h
  rw [commonBefore, ha, hb, commonLength_append_right, hlength, commonBefore]

/-- Two elements that are not equal are not both matched. -/
theorem commonBefore_of_not_agree (h : ¬Agree ⟨a, b⟩ x y) :
    commonBefore a b (x + 1) (y + 1) =
      max (commonBefore a b x (y + 1)) (commonBefore a b (x + 1) y) := by
  have hx := commonBefore_mono a b (Nat.le_refl x) (Nat.le_succ y)
  have hy := commonBefore_mono a b (Nat.le_succ x) (Nat.le_refl y)
  simp only [commonBefore, List.take_add_one, Array.getElem?_toList] at hx hy ⊢
  cases hax : a[x]? with
  | none => simp only [hax, Option.toList_none, List.append_nil] at hx hy ⊢; omega
  | some z =>
    cases hby : b[y]? with
    | none => simp only [hax, hby, Option.toList_none, List.append_nil] at hx hy ⊢; omega
    | some w =>
      have hne : z ≠ w := fun heq => h ⟨z, hax, heq ▸ hby⟩
      simpa only [Option.toList_some] using commonLength_append_singleton_of_ne _ _ hne

/-- One more element of the first sequence adds at most one. -/
theorem commonBefore_succ_le (a b : Array Nat) (x y : Nat) :
    commonBefore a b (x + 1) y ≤ commonBefore a b x y + 1 := by
  have := commonLength_append_le_add (a.toList.take x) (b.toList.take y) a[x]?.toList
  have := Option.length_toList_le (o := a[x]?)
  simp only [commonBefore, List.take_add_one, Array.getElem?_toList]
  omega

/-- The order of the sequences does not matter. -/
theorem commonBefore_comm (a b : Array Nat) (x y : Nat) :
    commonBefore a b x y = commonBefore b a y x := commonLength_comm _ _

/-- One more element on both sides adds at most one. -/
theorem commonBefore_succ_succ_le (a b : Array Nat) (x y : Nat) :
    commonBefore a b (x + 1) (y + 1) ≤ commonBefore a b x y + 1 := by
  by_cases h : Agree ⟨a, b⟩ x y
  · have := commonBefore_of_run (Run.single h)
    omega
  · have hleft := commonBefore_succ_le a b x y
    have hright := commonBefore_succ_le b a y x
    rw [← commonBefore_comm a b, ← commonBefore_comm a b] at hright
    rw [commonBefore_of_not_agree h]
    omega

/-- What is matched before and after a point is matched in all. -/
theorem commonBefore_add_le (a b : Array Nat) (x y : Nat) :
    commonBefore a b x y + commonLength (a.toList.drop x) (b.toList.drop y) ≤
      commonLength a.toList b.toList := by
  have := commonLength_append_le (a.toList.take x) (b.toList.take y) (a.toList.drop x)
    (b.toList.drop y)
  rwa [List.take_append_drop, List.take_append_drop] at this

namespace Within

/-- A point is no further from the main diagonal than its number of edits. -/
theorem diagonal_le (h : Within a b d x y) : x ≤ y + d ∧ y ≤ x + d := by
  have := commonBefore_le a b x y
  unfold Within at h
  omega

/-- What leads to a point leads to the points before it on its diagonal. -/
theorem back (k : Nat) (h : Within a b d (x + k) (y + k)) : Within a b d x y := by
  induction k with
  | zero => exact h
  | succ k ih =>
    apply ih
    have := commonBefore_succ_succ_le a b (x + k) (y + k)
    unfold Within at *
    simp only [← Nat.add_assoc] at h
    omega

/-- Matches cost no edits. -/
theorem run (hrun : Run (Agree ⟨a, b⟩) x y x' y') (h : Within a b d x y) :
    Within a b d x' y' := by
  have := commonBefore_of_run hrun
  have := hrun.le₁
  have := hrun.le₂
  have := hrun.same_length
  unfold Within at *
  omega

/-- A deletion is one edit. -/
theorem delete (h : Within a b d x y) : Within a b (d + 1) (x + 1) y := by
  have := commonBefore_mono a b (Nat.le_add_right x 1) (Nat.le_refl y)
  unfold Within at *
  omega

/-- An insertion is one edit. -/
theorem insert (h : Within a b d x y) : Within a b (d + 1) x (y + 1) := by
  have := commonBefore_mono a b (Nat.le_refl x) (Nat.le_add_right y 1)
  unfold Within at *
  omega

/-- The last edit before two elements that are not equal is a deletion or an insertion. -/
theorem of_not_agree (hne : ¬Agree ⟨a, b⟩ x y) (h : Within a b d (x + 1) (y + 1)) :
    ∃ e, d = e + 1 ∧ (Within a b e x (y + 1) ∨ Within a b e (x + 1) y) := by
  have := commonBefore_of_not_agree hne
  have := commonBefore_le a b x (y + 1)
  have := commonBefore_le a b (x + 1) y
  unfold Within at *
  exact ⟨d - 1, by omega, by omega⟩

end Within

/-- The point `(x, y)` is the furthest on the diagonal of entry `i` in round `d`. -/
structure Furthest (a b : Array Nat) (d i x y : Nat) : Prop where
  diagonal : x + d = y + 2 * i
  within : Within a b d x y
  not_within : ¬Within a b d (x + 1) (y + 1)

/-- Up to the furthest point, and no further, each point of a diagonal is reached. -/
theorem Furthest.le_iff (h : Furthest a b d i x y) (hdiagonal : x' + d = y' + 2 * i) :
    x' ≤ x ↔ Within a b d x' y' := by
  have := h.diagonal
  constructor
  · intro hle
    obtain ⟨k, rfl⟩ := Nat.exists_eq_add_of_le hle
    have hy : y = y' + k := by omega
    exact (hy ▸ h.within).back k
  · intro hwithin
    by_contra hlt
    apply h.not_within
    have hx : x' = x + 1 + (x' - x - 1) := by omega
    have hy : y' = y + 1 + (x' - x - 1) := by omega
    rw [hx, hy] at hwithin
    exact hwithin.back _

/-- Each entry of a row is the furthest point of its diagonal. -/
def IsFrontier (a b : Array Nat) (row : Row) : Prop :=
  ∀ i < row.size, Furthest a b (row.size - 1) i (row.getD i 0)
    (height (row.size - 1) i (row.getD i 0))

/-- Where matches are followed to, all elements on the way are equal and the next are not. -/
theorem follow_spec (a b : Array Nat) (x y : Nat) :
    ∃ y', Run (Agree ⟨a, b⟩) x y (follow a b x y) y' ∧ ¬Agree ⟨a, b⟩ (follow a b x y) y' := by
  fun_induction follow a b x y with
  | case1 x y h heq ih =>
    obtain ⟨y', hrun, hstop⟩ := ih
    have hagree : Agree ⟨a, b⟩ x y :=
      ⟨a[x], Array.getElem?_eq_getElem h.1, heq ▸ Array.getElem?_eq_getElem h.2⟩
    exact ⟨y', (Run.single hagree).trans hrun, hstop⟩
  | case2 x y h hne =>
    refine ⟨y, Run.refl _ x y, ?_⟩
    rintro ⟨z, hx, hy⟩
    rw [Array.getElem?_eq_getElem h.1, Option.some.injEq] at hx
    rw [Array.getElem?_eq_getElem h.2, Option.some.injEq] at hy
    exact hne (hx.trans hy.symm)
  | case3 x y h => exact ⟨y, Run.refl _ x y, fun hagree => h hagree.lt_size⟩

section Next

variable {previous : Row}

/-- An entry reached by a step down stands above the furthest point it comes from. -/
theorem furthest_of_stepsDown (h : IsFrontier a b previous) (hpos : 0 < previous.size)
    (hi : i ≤ previous.size) (hdown : stepsDown previous i = true) :
    ∃ y, height previous.size i (entry previous i) = y + 1 ∧
      Furthest a b (previous.size - 1) i (entry previous i) y := by
  have hlt : i < previous.size := by
    rcases Nat.lt_or_eq_of_le hi with hlt | rfl
    · exact hlt
    · simp only [stepsDown, bne_self_eq_false, Bool.false_and, Bool.or_false, beq_iff_eq] at hdown
      omega
  have hfurthest := h i hlt
  have hdiagonal := hfurthest.diagonal
  rw [entry, if_pos hdown]
  refine ⟨_, ?_, hfurthest⟩
  simp only [height] at hdiagonal ⊢
  omega

/-- An entry reached by a step to the right stands beside the furthest point it comes from. -/
theorem furthest_of_not_stepsDown (h : IsFrontier a b previous) (hi : i ≤ previous.size)
    (hright : stepsDown previous i = false) :
    ∃ j, i = j + 1 ∧ entry previous i = previous.getD j 0 + 1 ∧
      Furthest a b (previous.size - 1) j (previous.getD j 0)
        (height previous.size i (entry previous i)) := by
  have hpos : i ≠ 0 := by
    rintro rfl
    simp only [stepsDown, beq_self_eq_true, Bool.true_or, Bool.true_eq_false] at hright
  obtain ⟨j, rfl⟩ := Nat.exists_eq_succ_of_ne_zero hpos
  have hfurthest := h j hi
  have hentry : entry previous (j + 1) = previous.getD j 0 + 1 := by
    rw [entry, if_neg (by simpa only [Bool.not_eq_true] using hright), Nat.add_sub_cancel]
  refine ⟨j, rfl, hentry, ?_⟩
  have hheight : height previous.size (j + 1) (entry previous (j + 1)) =
      height (previous.size - 1) j (previous.getD j 0) := by
    rw [hentry, height, height]
    omega
  rwa [hheight]

/-- An entry starts beyond the entry before it in the previous row. -/
theorem getD_lt_entry (previous : Row) (i : Nat) :
    previous.getD i 0 < entry previous (i + 1) := by
  unfold entry
  by_cases hdown : stepsDown previous (i + 1) = true
  · rw [if_pos hdown]
    simp only [stepsDown, Nat.add_sub_cancel, Bool.or_eq_true, Bool.and_eq_true,
      decide_eq_true_eq, beq_iff_eq] at hdown
    omega
  · rw [if_neg hdown, Nat.add_sub_cancel]
    omega

/-- An entry starts no earlier than its own place in the previous row. -/
theorem getD_le_entry (hi : i < previous.size) : previous.getD i 0 ≤ entry previous i := by
  unfold entry
  by_cases hdown : stepsDown previous i = true
  · exact Nat.le_of_eq (if_pos hdown).symm
  · rw [if_neg hdown]
    simp only [stepsDown, Bool.or_eq_true, Bool.and_eq_true, decide_eq_true_eq, beq_iff_eq,
      bne_iff_ne, ne_eq] at hdown
    omega

/-- An entry starts within as many edits as the number of its round. -/
theorem within_entry (h : IsFrontier a b previous) (hi : i ≤ previous.size) :
    entry previous i + previous.size = height previous.size i (entry previous i) + 2 * i ∧
      Within a b previous.size (entry previous i) (height previous.size i (entry previous i)) := by
  rcases Nat.eq_zero_or_pos previous.size with hzero | hpos
  · obtain rfl : i = 0 := by omega
    have hentry : entry previous 0 = 0 := by
      rw [entry, stepsDown, beq_self_eq_true, Bool.true_or, if_pos rfl,
        Array.getD_eq_getD_getElem?, Array.getElem?_eq_none (by omega), Option.getD_none]
    simp [hentry, height, hzero, Within]
  have hsize : previous.size - 1 + 1 = previous.size := by omega
  cases hstep : stepsDown previous i with
  | true =>
    obtain ⟨y, hy, hfurthest⟩ := furthest_of_stepsDown h hpos hi hstep
    have := hfurthest.diagonal
    have hwithin := hfurthest.within.insert
    rw [hsize] at hwithin
    rw [hy]
    exact ⟨by omega, hwithin⟩
  | false =>
    obtain ⟨j, hj, hx, hfurthest⟩ := furthest_of_not_stepsDown h hi hstep
    have := hfurthest.diagonal
    have hwithin := hfurthest.within.delete
    rw [hsize, ← hx] at hwithin
    exact ⟨by omega, hwithin⟩

/-- Where the matches after the start of an entry end is the furthest point of its diagonal. -/
theorem furthest_follow (h : IsFrontier a b previous) (hi : i ≤ previous.size) :
    let x := entry previous i
    let reached := follow a b x (height previous.size i x)
    Furthest a b previous.size i reached (height previous.size i reached) ∧
      Run (Agree ⟨a, b⟩) x (height previous.size i x) reached
        (height previous.size i reached) := by
  intro x reached
  obtain ⟨hdiagonal, hwithin⟩ := within_entry h hi
  obtain ⟨y', hrun, hstop⟩ := follow_spec a b x (height previous.size i x)
  have hlength := hrun.same_length
  have hle₁ := hrun.le₁
  have hle₂ := hrun.le₂
  have hy' : y' = height previous.size i reached := by
    simp only [height, x, reached] at *
    omega
  subst hy'
  have hreached : reached + previous.size = height previous.size i reached + 2 * i := by
    simp only [height, x, reached] at *
    omega
  refine ⟨⟨hreached, hwithin.run hrun, fun hnext => ?_⟩, hrun⟩
  obtain ⟨e, he, hedit⟩ := hnext.of_not_agree hstop
  obtain rfl : e = previous.size - 1 := by omega
  rcases hedit with hinsert | hdelete
  · cases i with
    | zero =>
      have := hinsert.diagonal_le
      omega
    | succ i =>
      have := ((h i hi).le_iff (by omega)).mpr hinsert
      have := getD_lt_entry previous i
      omega
  · rcases Nat.lt_or_eq_of_le hi with hlt | rfl
    · have := ((h i hlt).le_iff (by omega)).mpr hdelete
      have := getD_le_entry hlt
      omega
    · have := hdelete.diagonal_le
      omega

/-- The entries of the next row are where the matches after their starts end. -/
theorem getD_next (a b : Array Nat) (hi : i ≤ previous.size) :
    (next a b previous).getD i 0 =
      follow a b (entry previous i) (height previous.size i (entry previous i)) := by
  rw [Array.getD_eq_getD_getElem?, Array.getElem?_eq_getElem (by rw [size_next]; omega),
    Option.getD_some]
  simp only [next, Array.getElem_ofFn]

/-- The row after a frontier is a frontier. -/
theorem isFrontier_next (h : IsFrontier a b previous) : IsFrontier a b (next a b previous) := by
  intro i hi
  rw [size_next] at hi ⊢
  rw [Nat.add_sub_cancel, getD_next a b (by omega)]
  exact (furthest_follow h (by omega)).1

end Next

end Linewise.Frontier
