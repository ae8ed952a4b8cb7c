import Mathlib.Data.List.Forall2
import Linewise.Proofs.Patch.Aligned

/-!
# Replaying a patch

Replaying an aligned patch takes matched lines from the first document and inserted
ones from the second, so it gives the second document up to the relation in which
matched lines stand.
-/

namespace Linewise.Patch

variable {α : Type} {R : Nat → Nat → Prop} {S : α → α → Prop} {lines₁ lines₂ : Array α}
variable {i j k i' j' : Nat} {p : Patch}

/-- The lines between bounds in order, as a list. -/
theorem window_eq {start stop : Nat} (hle : start ≤ stop) (hstop : stop ≤ lines₁.size) :
    window lines₁ start stop = (lines₁.toList.drop start).take (stop - start) := by
  rw [window, if_pos ⟨hle, hstop⟩, Array.toList_extract, List.extract_eq_take_drop]

/-- Lines up to `j` and lines from there on make up the lines from `i` on. -/
theorem drop_eq_window_append (hij : i ≤ j) (hj : j ≤ lines₁.size) :
    lines₁.toList.drop i = window lines₁ i j ++ lines₁.toList.drop j := by
  have hsplit := List.take_append_drop (j - i) (lines₁.toList.drop i)
  rw [List.drop_drop, show i + (j - i) = j by omega] at hsplit
  rw [window_eq hij hj, hsplit]

/-- The lines of both documents along a run stand in the relation of its pairs. -/
theorem forall₂_window_of_run
    (hR : ∀ x y (hx : x < lines₁.size) (hy : y < lines₂.size), R x y → S lines₁[x] lines₂[y])
    (hrun : Run R i j i' j') (hi' : i' ≤ lines₁.size) (hj' : j' ≤ lines₂.size) :
    List.Forall₂ S (window lines₁ i i') (window lines₂ j j') := by
  have := hrun.le₁
  have := hrun.le₂
  have := hrun.same_length
  rw [window_eq hrun.le₁ hi', window_eq hrun.le₂ hj', List.forall₂_iff_get]
  constructor
  · simp only [List.length_take, List.length_drop, Array.length_toList]
    omega
  · intro t ht ht'
    simp only [List.length_take, List.length_drop, Array.length_toList] at ht ht'
    have hpair := hR (i + t) (j + t) (by omega) (by omega) (hrun.pairs t (by omega))
    simpa only [List.get_eq_getElem, List.getElem_take, List.getElem_drop, Array.getElem_toList]
      using hpair

/-- Replaying an aligned patch gives the second document, up to the relation in which its matched
lines stand. -/
theorem Aligned.forall₂_applyFrom (hrefl : ∀ a, S a a)
    (hR : ∀ x y (hx : x < lines₁.size) (hy : y < lines₂.size), R x y → S lines₁[x] lines₂[y])
    (h : p.Aligned R i j lines₁.size lines₂.size) :
    List.Forall₂ S (p.applyFrom i lines₁ lines₂) (lines₂.toList.drop j) := by
  induction p generalizing i j with
  | nil =>
    have hend := forall₂_window_of_run hR h (Nat.le_refl _) (Nat.le_refl _)
    have hdrop := drop_eq_window_append (Run.le₂ h) (Nat.le_refl lines₂.size)
    rw [List.drop_of_length_le (Nat.le_of_eq Array.length_toList), List.append_nil] at hdrop
    rw [applyFrom, hdrop]
    exact hend
  | cons f rest ih =>
    have hbounds := h.bounds List.mem_cons_self
    obtain ⟨hrun, _, hrest⟩ := h
    have hstart := f.start₁_le_stop₁
    have hstart' := f.start₂_le_stop₂
    have hfirst := forall₂_window_of_run hR hrun (by omega) (by omega)
    rw [applyFrom, drop_eq_window_append hrun.le₂ (by omega),
      drop_eq_window_append hstart' (by omega), ← List.append_assoc]
    exact List.rel_append (List.rel_append hfirst (List.forall₂_same.mpr fun a _ => hrefl a))
      (ih hrest)

/-- Replaying a whole aligned patch gives the second document, up to the relation in which its
matched lines stand. -/
theorem Aligned.forall₂_apply (hrefl : ∀ a, S a a)
    (hR : ∀ x y (hx : x < lines₁.size) (hy : y < lines₂.size), R x y → S lines₁[x] lines₂[y])
    (h : p.Aligned R 0 0 lines₁.size lines₂.size) :
    List.Forall₂ S (p.apply lines₁ lines₂) lines₂.toList := h.forall₂_applyFrom hrefl hR

end Linewise.Patch
