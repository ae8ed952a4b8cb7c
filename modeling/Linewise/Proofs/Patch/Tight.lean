import Linewise.Proofs.Patch.Aligned

/-!
# Tight patches

A patch would report an unchanged stretch as changed if both documents ran on side
by side from the start of one of its fragments to the end of the same or a later
one. A tight patch has no such stretch. The stages of a comparison keep this,
although they move, join and trim fragments.
-/

namespace Linewise

/-- Both documents run on side by side from the start of `f` to the end of `g`. -/
def Fragment.RunsTo (R : Nat → Nat → Prop) (f g : Fragment) : Prop :=
  Run R f.start₁ f.start₂ g.stop₁ g.stop₂

namespace Patch

variable {R S : Nat → Nat → Prop} {i j n m : Nat} {p q : Patch} {f g : Fragment}

/-- From the start of no fragment to the end of the same or a later one do both documents run on
side by side in `R`. -/
structure Tight (R : Nat → Nat → Prop) (p : Patch) : Prop where
  single : ∀ f ∈ p, ¬f.RunsTo R f
  pair : p.Pairwise fun f g => ¬f.RunsTo R g

/-- A patch is tight if its first fragment starts no run to the end of any and the rest is tight. -/
theorem tight_cons :
    Tight R (f :: p) ↔ ¬f.RunsTo R f ∧ (∀ g ∈ p, ¬f.RunsTo R g) ∧ p.Tight R := by
  constructor
  · rintro ⟨hsingle, hpair⟩
    rw [List.forall_mem_cons] at hsingle
    rw [List.pairwise_cons] at hpair
    exact ⟨hsingle.1, hpair.1, hsingle.2, hpair.2⟩
  · rintro ⟨hself, hlater, hsingle, hpair⟩
    exact ⟨List.forall_mem_cons.mpr ⟨hself, hsingle⟩, List.pairwise_cons.mpr ⟨hlater, hpair⟩⟩

/-- Two patches make a tight one if each is tight and no run leads from a fragment of the first to
one of the second. -/
theorem tight_append :
    Tight R (p ++ q) ↔ p.Tight R ∧ q.Tight R ∧ ∀ f ∈ p, ∀ g ∈ q, ¬f.RunsTo R g := by
  constructor
  · rintro ⟨hsingle, hpair⟩
    rw [List.forall_mem_append] at hsingle
    rw [List.pairwise_append] at hpair
    exact ⟨⟨hsingle.1, hpair.1⟩, ⟨hsingle.2, hpair.2.1⟩, hpair.2.2⟩
  · rintro ⟨hp, hq, hcross⟩
    exact ⟨List.forall_mem_append.mpr ⟨hp.single, hq.single⟩,
      List.pairwise_append.mpr ⟨hp.pair, hq.pair, hcross⟩⟩

namespace Tight

/-- One fragment of a tight patch may give way to another if every run that would lead to its end,
or from its start, would also have led to the end, or from the start, of the first. -/
theorem replace (h : Tight R (p ++ f :: q)) (hself : ¬g.RunsTo R g)
    (hbefore : ∀ e ∈ p, e.RunsTo R g → e.RunsTo R f)
    (hafter : ∀ e ∈ q, g.RunsTo R e → f.RunsTo R e) : Tight R (p ++ g :: q) := by
  obtain ⟨hp, hq, hcross⟩ := tight_append.mp h
  obtain ⟨_, hlater, hrest⟩ := tight_cons.mp hq
  refine tight_append.mpr ⟨hp, tight_cons.mpr ⟨hself, ?_, hrest⟩, fun e he e' he' => ?_⟩
  · exact fun e he hrun => hlater e he (hafter e he hrun)
  · rcases List.mem_cons.mp he' with rfl | he'
    · exact fun hrun => hcross e he f List.mem_cons_self (hbefore e he hrun)
    · exact hcross e he e' (List.mem_cons_of_mem _ he')

end Tight

/-- A run leads from the last fragment of an aligned patch to its end. -/
theorem Aligned.exists_last (h : p.Aligned R i j n m) (hne : p ≠ []) :
    ∃ g ∈ p, Run R g.stop₁ g.stop₂ n m := by
  induction p generalizing i j with
  | nil => exact absurd rfl hne
  | cons f rest ih =>
    cases rest with
    | nil => exact ⟨f, List.mem_cons_self, h.2.2⟩
    | cons g rest =>
      obtain ⟨e, he, hrun⟩ := ih h.2.2 (List.cons_ne_nil _ _)
      exact ⟨e, List.mem_cons_of_mem _ he, hrun⟩

/-- No run leads through what the fragments of a tight patch lead through. -/
theorem Tight.not_run (h : p.Tight R) (haligned : p.Aligned R i j n m) (hne : p ≠ []) :
    ¬Run R i j n m := by
  intro hwhole
  obtain ⟨f, rest, rfl⟩ := List.exists_cons_of_ne_nil hne
  obtain ⟨g, hg, hend⟩ := haligned.exists_last hne
  obtain ⟨hself, hlater, _⟩ := tight_cons.mp h
  obtain ⟨hfirst, _, hrest⟩ := haligned
  have := hfirst.le₁
  have := hfirst.le₂
  have := hfirst.same_length
  have := hend.le₁
  have := hend.le₂
  have := hend.same_length
  have := hwhole.same_length
  have := f.start₁_le_stop₁
  have := g.start₁_le_stop₁
  have hle : f.start₁ ≤ g.stop₁ := by
    rcases List.mem_cons.mp hg with rfl | hg
    · exact g.start₁_le_stop₁
    · have := hrest.bounds hg
      omega
  have hle' : j ≤ g.stop₂ := by
    rcases List.mem_cons.mp hg with rfl | hg
    · exact Nat.le_trans hfirst.le₂ g.start₂_le_stop₂
    · have := hrest.bounds hg
      have := f.start₂_le_stop₂
      have := g.start₂_le_stop₂
      omega
  have hto : f.RunsTo R g :=
    (hwhole.upTo (by omega) hend.le₁ (by omega) hle').since (by omega) hle (by omega) (by omega)
  rcases List.mem_cons.mp hg with rfl | hg
  · exact hself hto
  · exact hlater g hg hto

end Patch

end Linewise
