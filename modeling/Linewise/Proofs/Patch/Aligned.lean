import Mathlib.Data.List.Chain
import Linewise.Patch.Basic
import Linewise.Proofs.Patch.Run

/-!
# Aligned patches

A patch is aligned in a relation if a run of it leads from each fragment to the
next, from the start to the first fragment and from the last one to the end. Its
fragments may touch, which a well-formed patch excludes. `Patch.Aligned` is what
every stage of a comparison keeps; `Patch.wellFormed_iff` connects it with
well-formedness, and `Patch.Aligned.rel_of_mem_matchedFrom` with the list of matched
pairs.
-/

namespace Linewise.Patch

variable {R S : Nat → Nat → Prop} {i j i' j' k l n m : Nat} {p q : Patch}

/-- From line `i` of the first document and line `j` of the second on, up to their ends `n` and `m`,
the patch leaves runs of `R` outside its fragments, each of which changes a line. -/
def Aligned (R : Nat → Nat → Prop) (i j : Nat) : Patch → (n m : Nat) → Prop
  | [], n, m => Run R i j n m
  | f :: rest, n, m =>
    Run R i j f.start₁ f.start₂ ∧ 0 < f.cost ∧ Aligned R f.stop₁ f.stop₂ rest n m

/-- No fragment starts on both sides where the one before it ends. -/
def Apart (p : Patch) : Prop := p.IsChain fun f g => f.touches g = false

namespace Aligned

/-- An aligned patch lies between its two ends. -/
theorem le (h : p.Aligned R i j n m) : i ≤ n ∧ j ≤ m := by
  induction p generalizing i j with
  | nil => exact ⟨Run.le₁ h, Run.le₂ h⟩
  | cons f rest ih =>
    obtain ⟨hrun, _, hrest⟩ := h
    have hends := ih hrest
    have := hrun.le₁
    have := hrun.le₂
    have := f.start₁_le_stop₁
    have := f.start₂_le_stop₂
    omega

/-- All fragments of an aligned patch lie between its two ends. -/
theorem bounds (h : p.Aligned R i j n m) {f : Fragment} (hf : f ∈ p) :
    i ≤ f.start₁ ∧ j ≤ f.start₂ ∧ f.stop₁ ≤ n ∧ f.stop₂ ≤ m := by
  induction p generalizing i j with
  | nil => cases hf
  | cons g rest ih =>
    obtain ⟨hrun, _, hrest⟩ := h
    have := hrun.le₁
    have := hrun.le₂
    have := g.start₁_le_stop₁
    have := g.start₂_le_stop₂
    rcases List.mem_cons.mp hf with rfl | hf
    · have := hrest.le
      omega
    · have := ih hrest hf
      omega

/-- The fragments of an aligned patch come in order on both sides. -/
theorem pairwise (h : p.Aligned R i j n m) :
    p.Pairwise fun f g => f.stop₁ ≤ g.start₁ ∧ f.stop₂ ≤ g.start₂ := by
  induction p generalizing i j with
  | nil => exact .nil
  | cons f rest ih =>
    obtain ⟨_, _, hrest⟩ := h
    refine List.pairwise_cons.mpr ⟨?_, ih hrest⟩
    intro g hg
    have := hrest.bounds hg
    omega

/-- A patch aligned in a relation is aligned in every larger one. -/
theorem mono (h : p.Aligned R i j n m) (hRS : ∀ x y, R x y → S x y) : p.Aligned S i j n m := by
  induction p generalizing i j with
  | nil => exact Run.mono h hRS
  | cons f rest ih => exact ⟨h.1.mono hRS, h.2.1, ih h.2.2⟩

/-- A run before an aligned patch makes its first run longer. -/
theorem after_run (h : p.Aligned R i' j' n m) (hrun : Run R i j i' j') : p.Aligned R i j n m := by
  cases p with
  | nil => exact hrun.trans h
  | cons f rest => exact ⟨hrun.trans h.1, h.2⟩

/-- An aligned patch may begin later on its first run. -/
theorem advance {count : Nat} (h : p.Aligned R i j n m)
    (hroom : i + count ≤ (p.head?.map Fragment.start₁).getD n) :
    p.Aligned R (i + count) (j + count) n m := by
  cases p with
  | nil =>
    have := Run.le₂ h
    have := Run.same_length h
    have hroom : i + count ≤ n := hroom
    exact Run.since h (by omega) hroom (by omega) (by omega)
  | cons f rest =>
    have := h.1.le₂
    have := h.1.same_length
    have hroom : i + count ≤ f.start₁ := hroom
    exact ⟨h.1.since (by omega) hroom (by omega) (by omega), h.2⟩

/-- The run before the first fragment of an aligned patch, or a part of it. -/
theorem run_before {count : Nat} (h : p.Aligned R i j n m)
    (hroom : i + count ≤ (p.head?.map Fragment.start₁).getD n) :
    Run R i j (i + count) (j + count) := by
  cases p with
  | nil =>
    have hroom : i + count ≤ n := hroom
    exact Run.upTo h (by omega) hroom (by omega) (by omega)
  | cons f rest =>
    have hroom : i + count ≤ f.start₁ := hroom
    exact h.1.upTo (by omega) hroom (by omega) (by omega)

/-- Two aligned patches, one after the other, are one. -/
theorem append (hp : p.Aligned R i j i' j') (hq : q.Aligned R i' j' n m) :
    (p ++ q : Patch).Aligned R i j n m := by
  induction p generalizing i j with
  | nil => exact hq.after_run hp
  | cons f rest ih => exact ⟨hp.1, hp.2.1, ih hp.2.2⟩

/-- An aligned patch can be cut between any two fragments. -/
theorem split (h : (p ++ q : Patch).Aligned R i j n m) :
    ∃ i' j', p.Aligned R i j i' j' ∧ q.Aligned R i' j' n m := by
  induction p generalizing i j with
  | nil => exact ⟨i, j, Run.refl R i j, h⟩
  | cons f rest ih =>
    obtain ⟨hrun, hcost, hrest⟩ := h
    obtain ⟨i', j', hfirst, hsecond⟩ := ih hrest
    exact ⟨i', j', ⟨hrun, hcost, hfirst⟩, hsecond⟩

/-- A patch aligned in a shifted relation is aligned in the relation once it is moved. -/
theorem offset {d e : Nat} (h : p.Aligned (fun x y => R (x + d) (y + e)) i j n m) :
    (p.offset d e).Aligned R (i + d) (j + e) (n + d) (m + e) := by
  induction p generalizing i j with
  | nil => exact Run.offset h
  | cons f rest ih =>
    obtain ⟨hrun, hcost, hrest⟩ := h
    refine ⟨hrun.offset, ?_, ih hrest⟩
    simp only [Fragment.cost_eq, Fragment.offset, Fragment.start₁, Fragment.stop₁, Fragment.start₂,
      Fragment.stop₂, LineRange.offset] at hcost ⊢
    omega

/-- An aligned patch seen from the second document. -/
theorem swap (h : p.Aligned R i j n m) : p.swap.Aligned (fun y x => R x y) j i m n := by
  induction p generalizing i j with
  | nil => exact Run.swap h
  | cons f rest ih =>
    obtain ⟨hrun, hcost, hrest⟩ := h
    refine ⟨hrun.swap, ?_, ih hrest⟩
    rw [Fragment.cost_eq] at hcost ⊢
    change 0 < (f.stop₂ - f.start₂) + (f.stop₁ - f.start₁)
    omega

/-- The matched pairs of an aligned patch belong to its relation. -/
theorem rel_of_mem_matchedFrom (h : p.Aligned R i j n m) {pair : Nat × Nat}
    (hpair : pair ∈ p.matchedFrom i j n m) : R pair.1 pair.2 := by
  induction p generalizing i j with
  | nil =>
    have := Run.same_length h
    obtain ⟨k, hk, rfl⟩ := mem_diagonal.mp hpair
    exact Run.pairs h k (by omega)
  | cons f rest ih =>
    obtain ⟨hrun, _, hrest⟩ := h
    rcases List.mem_append.mp hpair with hpair | hpair
    · have := hrun.same_length
      obtain ⟨k, hk, rfl⟩ := mem_diagonal.mp hpair
      exact hrun.pairs k (by omega)
    · exact ih hrest hpair

/-- A patch whose matched pairs all belong to a relation is aligned in it. -/
theorem of_matchedFrom (h : p.Aligned S i j n m)
    (hpairs : ∀ pair ∈ p.matchedFrom i j n m, R pair.1 pair.2) : p.Aligned R i j n m := by
  induction p generalizing i j with
  | nil =>
    have hrun : Run S i j n m := h
    refine ⟨hrun.le₁, hrun.le₂, hrun.same_length, fun k hk => ?_⟩
    have := hrun.same_length
    exact hpairs _ (mem_diagonal.mpr ⟨k, by omega, rfl⟩)
  | cons f rest ih =>
    obtain ⟨hrun, hcost, hrest⟩ := h
    refine ⟨⟨hrun.le₁, hrun.le₂, hrun.same_length, fun k hk => ?_⟩, hcost,
      ih hrest fun pair hpair => hpairs pair (List.mem_append_right _ hpair)⟩
    have := hrun.same_length
    exact hpairs _ (List.mem_append_left _ (mem_diagonal.mpr ⟨k, by omega, rfl⟩))

end Aligned

/-- A well-formed patch is aligned as far as the numbers of lines are concerned, its fragments do
not touch, and it has the gap asked for before its first fragment. -/
theorem wellFormedFrom_iff {gap : Nat} :
    p.WellFormedFrom i j gap n m ↔
      p.Aligned (fun _ _ => True) i j n m ∧ p.Apart ∧ ∀ f ∈ p.head?, i + gap ≤ f.start₁ := by
  induction p generalizing i j gap with
  | nil =>
    refine ⟨fun ⟨hi, hj, hsame⟩ => ⟨⟨hi, hj, hsame, fun _ _ => trivial⟩, .nil, by simp⟩, ?_⟩
    exact fun ⟨hrun, _, _⟩ => ⟨Run.le₁ hrun, Run.le₂ hrun, Run.same_length hrun⟩
  | cons f rest ih =>
    have hchain : Apart (f :: rest) ↔
        Apart rest ∧ ∀ g ∈ rest.head?, f.touches g = false := by
      cases rest with
      | nil => simp [Apart]
      | cons g rest => simp [Apart, and_comm]
    have htouch : ∀ g ∈ rest.head?, Run (fun _ _ => True) f.stop₁ f.stop₂ g.start₁ g.start₂ →
        (f.touches g = false ↔ f.stop₁ + 1 ≤ g.start₁) := by
      intro g _ hrun
      have := hrun.le₁
      have := hrun.le₂
      have := hrun.same_length
      simp only [Fragment.touches, Bool.and_eq_false_iff, beq_eq_false_iff_ne]
      omega
    have hfirst : Aligned (fun _ _ => True) f.stop₁ f.stop₂ rest n m →
        ∀ g ∈ rest.head?, Run (fun _ _ => True) f.stop₁ f.stop₂ g.start₁ g.start₂ := by
      intro haligned g hg
      cases rest with
      | nil => cases hg
      | cons g' rest =>
        obtain rfl : g' = g := by simpa using hg
        exact haligned.1
    simp only [WellFormedFrom, Aligned, ih, hchain, List.head?_cons, Option.mem_def,
      Option.some.injEq, forall_eq']
    constructor
    · rintro ⟨hi, hj, hsame, hcost, haligned, hapart, hgap⟩
      refine ⟨⟨⟨by omega, by omega, hsame, fun _ _ => trivial⟩, hcost, haligned⟩, ⟨hapart, ?_⟩,
        by omega⟩
      exact fun g hg => (htouch g hg (hfirst haligned g hg)).mpr (hgap g hg)
    · rintro ⟨⟨hrun, hcost, haligned⟩, ⟨hapart, hnone⟩, hi⟩
      have := hrun.le₁
      have := hrun.le₂
      have := hrun.same_length
      refine ⟨by omega, by omega, by omega, hcost, haligned, hapart, ?_⟩
      exact fun g hg => (htouch g hg (hfirst haligned g hg)).mp (hnone g hg)

/-- A patch is well formed exactly when it is aligned as far as the numbers of lines are concerned
and no two of its fragments touch. -/
theorem wellFormed_iff : p.WellFormed n m ↔ p.Aligned (fun _ _ => True) 0 0 n m ∧ p.Apart := by
  rw [WellFormed, wellFormedFrom_iff]
  simp

/-- A well-formed patch may be seen from an earlier line on, with a larger gap before its first
fragment. -/
theorem WellFormedFrom.earlier {i' j' gap gap' : Nat} (h : p.WellFormedFrom i j gap n m)
    (hi : i' ≤ i) (hj : j' ≤ j) (hsame : i - i' = j - j') (hgap : i' + gap' ≤ i + gap) :
    p.WellFormedFrom i' j' gap' n m := by
  cases p with
  | nil =>
    obtain ⟨hn, hm, heq⟩ := h
    exact ⟨by omega, by omega, by omega⟩
  | cons f rest =>
    obtain ⟨hstart₁, hstart₂, heq, hrest⟩ := h
    exact ⟨by omega, by omega, by omega, hrest⟩

end Linewise.Patch
