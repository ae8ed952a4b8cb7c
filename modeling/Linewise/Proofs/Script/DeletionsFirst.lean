import Mathlib.Data.List.Chain
import Linewise.Proofs.Script.Direct

/-!
# Deletions come before insertions

Where the direct search deletes and inserts without keeping an element in between, it
deletes first. It steps right unless the next diagonal reaches further, so a deletion
starts from a point that its neighbour above does not outrun; but the point that an
insertion has just led to, with no match after it, is always outrun.
-/

namespace Linewise.Script

open Frontier

variable {s script : Script} {a b : Array Nat} {row : Row} {rows : List Row} {d i j x y : Nat}

/-- No insertion is directly followed by a deletion. -/
def DeletionsFirst (s : Script) : Prop := s.IsChain fun e f => e = .insert → f ≠ .delete

namespace DeletionsFirst

/-- A script with one more edit in front. -/
theorem cons_iff {e : Edit} :
    DeletionsFirst (e :: s) ↔ (e = .insert → s.head? ≠ some .delete) ∧ DeletionsFirst s := by
  unfold DeletionsFirst
  rw [List.isChain_cons]
  refine and_congr_left fun _ => ⟨fun h he hhead => h .delete hhead he rfl, fun h f hf he => ?_⟩
  rintro rfl
  exact h he hf

/-- Elements may be kept in front. -/
theorem kept_append (h : DeletionsFirst s) (count : Nat) : DeletionsFirst (kept count ++ s) := by
  induction count with
  | zero => exact h
  | succ count ih => exact cons_iff.mpr ⟨fun he => (by cases he), ih⟩

/-- In a stretch without a kept element all deletions come before all insertions. -/
theorem exists_replaced (h : DeletionsFirst s) (hkeep : .keep ∉ s) :
    ∃ n m, s = replaced n m := by
  induction s with
  | nil => exact ⟨0, 0, rfl⟩
  | cons e s ih =>
    obtain ⟨hhead, hrest⟩ := cons_iff.mp h
    rw [List.mem_cons, not_or] at hkeep
    obtain ⟨n, m, rfl⟩ := ih hrest hkeep.2
    cases e with
    | keep => exact absurd rfl hkeep.1
    | delete => exact ⟨n + 1, m, rfl⟩
    | insert =>
      cases n with
      | zero => exact ⟨0, m + 1, rfl⟩
      | succ n => exact absurd rfl (hhead rfl)

end DeletionsFirst

/-- A replacement deletes first. -/
theorem deletionsFirst_replaced (n m : Nat) : DeletionsFirst (replaced n m) := by
  induction n with
  | zero =>
    induction m with
    | zero => exact .nil
    | succ m ih =>
      refine DeletionsFirst.cons_iff.mpr ⟨fun _ hhead => ?_, ih⟩
      cases m <;> cases hhead
  | succ n ih => exact DeletionsFirst.cons_iff.mpr ⟨fun he => (by cases he), ih⟩

/-- The diagonal above the one of `(x, y)` reaches no further than `x` within `d` edits. -/
def Leads (a b : Array Nat) (d x y : Nat) : Prop := ∀ y', y = y' + 1 → ¬Within a b d (x + 1) y'

/-- A step to the right starts from a point that the next diagonal does not outrun. -/
theorem leads_of_not_stepsDown (hrow : IsFrontier a b row) (hj : j + 1 ≤ row.size)
    (hright : stepsDown row (j + 1) = false)
    (h : Furthest a b (row.size - 1) j (row.getD j 0) y) :
    Leads a b (row.size - 1) (row.getD j 0) y := by
  rintro y' rfl hwithin
  have hdiagonal := h.diagonal
  have hbound := hwithin.diagonal_le
  have hinside : j + 1 < row.size := by omega
  simp only [stepsDown, Nat.add_sub_cancel, Bool.or_eq_false_iff, Bool.and_eq_false_iff,
    decide_eq_false_iff_not, bne_eq_false_iff_eq] at hright
  have hfurther := ((hrow (j + 1) hinside).le_iff (by omega)).mpr hwithin
  omega

/-- The point that an insertion leads to is outrun by the next diagonal. -/
theorem not_leads_of_insert (h : Within a b d x y) : ¬Leads a b (d + 1) x (y + 1) :=
  fun hleads => hleads y rfl h.delete

/-- Walking back keeps deletions first, if the script goes on with a deletion only from a point that
the next diagonal does not outrun. -/
theorem deletionsFirst_walkBack (hrows : IsTrace a b rows)
    (h : Furthest a b rows.length i x y) (hscript : DeletionsFirst script)
    (hhead : script.head? = some .delete → Leads a b rows.length x y) :
    DeletionsFirst (walkBack rows x y script) := by
  induction rows generalizing i x y script with
  | nil => exact hscript.kept_append _
  | cons row rows ih =>
    obtain ⟨hsize, hrow, hrows⟩ := hrows
    rw [List.length_cons] at h hhead
    have hlast : row.size - 1 = rows.length := by omega
    rw [← hsize] at h
    cases hstep : stepsDown row i with
    | true =>
      obtain ⟨y', hbefore, hrun, hwalk⟩ := walkBack_of_stepsDown hrow (by omega) h hstep
      rw [hlast] at hbefore
      rw [hwalk]
      refine ih hrows hbefore (DeletionsFirst.cons_iff.mpr ⟨fun _ hnext => ?_,
        hscript.kept_append _⟩) (fun hnext => by cases hnext)
      -- With a match in between, the next edit is that match and not a deletion.
      rcases Nat.eq_zero_or_pos (x - row.getD i 0) with hnone | hsome
      · have hx := hrun.le₁
        have hy := hrun.le₂
        have hlength := hrun.same_length
        obtain rfl : x = row.getD i 0 := by omega
        obtain rfl : y = y' + 1 := by omega
        rw [hnone] at hnext
        exact not_leads_of_insert hbefore.within (hhead hnext)
      · obtain ⟨count, hcount⟩ := Nat.exists_eq_add_of_lt hsome
        rw [hcount, Nat.zero_add] at hnext
        cases hnext
    | false =>
      obtain ⟨j, y', rfl, hbefore, hrun, hwalk⟩ := walkBack_of_not_stepsDown hrow h hstep
      have hleads := leads_of_not_stepsDown hrow (run_of_furthest hrow h).1 hstep hbefore
      rw [hlast] at hbefore hleads
      rw [hwalk]
      exact ih hrows hbefore (DeletionsFirst.cons_iff.mpr ⟨fun he => (by cases he),
        hscript.kept_append _⟩) (fun _ => hleads)

/-- The script of a direct search deletes first. -/
theorem deletionsFirst_direct (a b : Array Nat) : DeletionsFirst (direct a b) := by
  unfold direct
  split
  · exact deletionsFirst_replaced _ _
  · obtain ⟨htrace, -, i, hend⟩ := searchRows_reaches a b
    exact deletionsFirst_walkBack htrace hend .nil (fun hnext => by cases hnext)

end Linewise.Script
