import Linewise.Proofs.Patch.Tight

/-!
# Cheapest patches are tight

If both documents ran on side by side from the start of one fragment to the end of
the same or a later one, a patch without these fragments would be aligned as well
and change fewer lines.
-/

namespace Linewise.Patch

variable {R : Nat → Nat → Prop} {i j k l n m : Nat} {p q : Patch} {f g : Fragment}

/-- The patch is aligned, and no aligned patch between the same ends changes fewer lines. -/
structure Cheapest (R : Nat → Nat → Prop) (i j : Nat) (p : Patch) (n m : Nat) : Prop where
  aligned : p.Aligned R i j n m
  cost_le : ∀ q : Patch, q.Aligned R i j n m → p.cost ≤ q.cost

/-- The number of changed lines of a first fragment and of the rest. -/
theorem cost_cons (f : Fragment) (p : Patch) : cost (f :: p) = f.cost + p.cost := rfl

/-- The numbers of changed lines of two patches add up. -/
theorem cost_append (p q : Patch) : cost (p ++ q) = p.cost + q.cost := by
  induction p with
  | nil => exact (Nat.zero_add _).symm
  | cons f p ih => rw [List.cons_append, cost_cons, cost_cons, ih, Nat.add_assoc]

namespace Cheapest

/-- What follows the first fragment of a cheapest patch is cheapest. -/
theorem tail (h : Cheapest R i j (f :: p) n m) : Cheapest R f.stop₁ f.stop₂ p n m := by
  obtain ⟨⟨hrun, hcost, haligned⟩, hle⟩ := h
  refine ⟨haligned, ?_⟩
  intro q hq
  have := hle (f :: q) ⟨hrun, hcost, hq⟩
  rw [cost_cons, cost_cons] at this
  omega

/-- No run leads from the first fragment of a cheapest patch to where an end of the rest is
aligned. -/
theorem not_run (h : Cheapest R i j (f :: (p ++ q)) n m) (hq : q.Aligned R k l n m) :
    ¬Run R f.start₁ f.start₂ k l := by
  intro hrun
  obtain ⟨⟨hfirst, hcost, _⟩, hle⟩ := h
  have := hle q (hq.after_run (hfirst.trans hrun))
  rw [cost_cons, cost_append] at this
  omega

/-- No run leads from a fragment of a cheapest patch to the end of the documents. -/
theorem not_run_end (h : Cheapest R i j p n m) (hf : f ∈ p) :
    ¬Run R f.start₁ f.start₂ n m := by
  induction p generalizing i j with
  | nil => cases hf
  | cons g rest ih =>
    rcases List.mem_cons.mp hf with rfl | hf
    · rw [← List.append_nil rest] at h
      exact h.not_run (show Aligned R n m [] n m from Run.refl R n m)
    · exact ih h.tail hf

/-- A cheapest patch is tight. -/
theorem tight (h : Cheapest R i j p n m) : p.Tight R := by
  induction p generalizing i j with
  | nil => exact ⟨fun f hf => absurd hf List.not_mem_nil, .nil⟩
  | cons f rest ih =>
    refine tight_cons.mpr ⟨?_, fun g hg => ?_, ih h.tail⟩
    · rw [← List.nil_append rest] at h
      exact h.not_run h.aligned.2.2
    · obtain ⟨before, after, rfl⟩ := List.append_of_mem hg
      obtain ⟨_, _, _, hafter⟩ := h.aligned.2.2.split
      rw [List.append_cons] at h
      exact h.not_run hafter.2.2

end Cheapest

end Linewise.Patch
