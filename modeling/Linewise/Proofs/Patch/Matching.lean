import Mathlib.Data.List.Sort
import Linewise.Proofs.Patch.Aligned
import Linewise.Proofs.Script.CommonLength

/-!
# Matched pairs as a common subsequence

The matched pairs of an aligned patch increase on both sides, and every line is
either changed or in one of them. Pairs that increase and have equal keys name a
common subsequence, so there are no more of them than a longest one is long.
-/

namespace Linewise

/-- The pairs increase on both sides. -/
def Increasing (pairs : List (Nat × Nat)) : Prop := pairs.Pairwise fun x y => x.1 < y.1 ∧ x.2 < y.2

/-- A list in strict order is a sublist of each list in strict order that has all its elements. -/
theorem sublist_of_pairwise_lt {l l' : List Nat} (h : l.Pairwise (· < ·)) (h' : l'.Pairwise (· < ·))
    (hmem : ∀ x ∈ l, x ∈ l') : l.Sublist l' :=
  List.sublist_of_subperm_of_pairwise
    (List.subperm_of_subset (h.imp Nat.ne_of_lt) hmem) h h'

namespace Increasing

variable {pairs : List (Nat × Nat)} {indices₁ indices₂ : List Nat}

/-- The first lines of increasing pairs are a sublist of lines in order that has them all. -/
theorem sublist_fst (h : Increasing pairs) (horder : indices₁.Pairwise (· < ·))
    (hmem : ∀ x ∈ pairs, x.1 ∈ indices₁) : (pairs.map Prod.fst).Sublist indices₁ := by
  refine sublist_of_pairwise_lt (List.pairwise_map.mpr (h.imp And.left)) horder ?_
  intro i hi
  obtain ⟨x, hx, rfl⟩ := List.mem_map.mp hi
  exact hmem x hx

/-- The second lines of increasing pairs are a sublist of lines in order that has them all. -/
theorem sublist_snd (h : Increasing pairs) (horder : indices₂.Pairwise (· < ·))
    (hmem : ∀ x ∈ pairs, x.2 ∈ indices₂) : (pairs.map Prod.snd).Sublist indices₂ := by
  refine sublist_of_pairwise_lt (List.pairwise_map.mpr (h.imp And.right)) horder ?_
  intro i hi
  obtain ⟨x, hx, rfl⟩ := List.mem_map.mp hi
  exact hmem x hx

/-- Increasing pairs of equal keys are no more than a longest common subsequence of the keys is
long. -/
theorem length_le_commonLength (key₁ key₂ : Nat → Nat) (h : Increasing pairs)
    (horder₁ : indices₁.Pairwise (· < ·)) (horder₂ : indices₂.Pairwise (· < ·))
    (hmem : ∀ x ∈ pairs, x.1 ∈ indices₁ ∧ x.2 ∈ indices₂)
    (hkeys : ∀ x ∈ pairs, key₁ x.1 = key₂ x.2) :
    pairs.length ≤ commonLength (indices₁.map key₁) (indices₂.map key₂) := by
  have hfst := (h.sublist_fst horder₁ fun x hx => (hmem x hx).1).map key₁
  have hsnd := (h.sublist_snd horder₂ fun x hx => (hmem x hx).2).map key₂
  have hsame : (pairs.map Prod.snd).map key₂ = (pairs.map Prod.fst).map key₁ := by
    rw [List.map_map, List.map_map]
    exact List.map_congr_left fun x hx => (hkeys x hx).symm
  rw [hsame] at hsnd
  simpa using IsCommon.length_le ⟨hfst, hsnd⟩

end Increasing

/-- The pairs of a diagonal increase. -/
theorem Patch.increasing_diagonal (i j count : Nat) : Increasing (diagonal i j count) := by
  rw [Increasing, diagonal, List.pairwise_map]
  refine List.pairwise_lt_range.imp ?_
  intro _ _ hlt
  exact ⟨Nat.add_lt_add_left hlt i, Nat.add_lt_add_left hlt j⟩

/-- A diagonal can be cut anywhere. -/
theorem Patch.diagonal_add (i j count more : Nat) :
    diagonal i j (count + more) = diagonal i j count ++ diagonal (i + count) (j + count) more := by
  simp only [diagonal, List.range_add, List.map_append, List.map_map]
  congr 1
  refine List.map_congr_left fun _ _ => ?_
  simp only [Function.comp_apply, Nat.add_assoc]

namespace Patch.Aligned

variable {R : Nat → Nat → Prop} {i j i' j' n m : Nat} {p q : Patch}

/-- The matched pairs of an aligned patch lie between its ends. -/
theorem bounds_of_mem_matchedFrom (h : p.Aligned R i j n m) {x : Nat × Nat}
    (hx : x ∈ p.matchedFrom i j n m) : i ≤ x.1 ∧ x.1 < n ∧ j ≤ x.2 ∧ x.2 < m := by
  induction p generalizing i j with
  | nil =>
    obtain ⟨k, hk, rfl⟩ := mem_diagonal.mp hx
    have := h.le
    simp only
    omega
  | cons f rest ih =>
    obtain ⟨hrun, _, hrest⟩ := h
    have := hrun.le₁
    have := hrun.le₂
    have := f.start₁_le_stop₁
    have := f.start₂_le_stop₂
    rcases List.mem_append.mp hx with hx | hx
    · obtain ⟨k, hk, rfl⟩ := mem_diagonal.mp hx
      have := hrest.le
      simp only
      omega
    · have := ih hrest hx
      omega

/-- The matched pairs of an aligned patch increase. -/
theorem increasing_matchedFrom (h : p.Aligned R i j n m) :
    Increasing (p.matchedFrom i j n m) := by
  induction p generalizing i j with
  | nil => exact increasing_diagonal _ _ _
  | cons f rest ih =>
    obtain ⟨hrun, _, hrest⟩ := h
    refine List.pairwise_append.mpr ⟨increasing_diagonal _ _ _, ih hrest, ?_⟩
    intro x hx y hy
    obtain ⟨k, hk, rfl⟩ := mem_diagonal.mp hx
    have := hrest.bounds_of_mem_matchedFrom hy
    have := f.start₁_le_stop₁
    have := f.start₂_le_stop₂
    simp only
    omega

/-- Every line is either changed or matched. -/
theorem cost_add_length_matchedFrom (h : p.Aligned R i j n m) :
    i + j + p.cost + 2 * (p.matchedFrom i j n m).length = n + m := by
  induction p generalizing i j with
  | nil =>
    have hrun : Run R i j n m := h
    have := hrun.le₁
    have := hrun.le₂
    have := hrun.same_length
    rw [matchedFrom, length_diagonal, cost, List.foldr_nil]
    omega
  | cons f rest ih =>
    obtain ⟨hrun, _, hrest⟩ := h
    have hlater := ih hrest
    have := hrun.le₁
    have := hrun.le₂
    have := hrun.same_length
    have := f.start₁_le_stop₁
    have := f.start₂_le_stop₂
    rw [matchedFrom, List.length_append, length_diagonal, cost, List.foldr_cons, ← cost,
      Fragment.cost_eq]
    omega

/-- The pairs of a run come before those of the patch that follows it. -/
theorem matchedFrom_of_run (h : p.Aligned R i' j' n m) (hrun : Run R i j i' j') :
    p.matchedFrom i j n m = diagonal i j (i' - i) ++ p.matchedFrom i' j' n m := by
  have := hrun.le₁
  have := hrun.le₂
  have := hrun.same_length
  have hstart₁ : i + (i' - i) = i' := by omega
  have hstart₂ : j + (i' - i) = j' := by omega
  cases p with
  | nil =>
    have := Run.le₁ h
    have := Run.le₂ h
    rw [matchedFrom, matchedFrom,
      show min (n - i) (m - j) = (i' - i) + min (n - i') (m - j') by omega, diagonal_add,
      hstart₁, hstart₂]
  | cons f rest =>
    have := h.1.le₁
    have := h.1.le₂
    rw [matchedFrom, matchedFrom, show min (f.start₁ - i) (f.start₂ - j) =
      (i' - i) + min (f.start₁ - i') (f.start₂ - j') by omega, diagonal_add, hstart₁, hstart₂,
      List.append_assoc]

/-- The pairs of two patches, one after the other, are those of both. -/
theorem matchedFrom_append (hp : p.Aligned R i j i' j') (hq : q.Aligned R i' j' n m) :
    (p ++ q : Patch).matchedFrom i j n m = p.matchedFrom i j i' j' ++ q.matchedFrom i' j' n m := by
  induction p generalizing i j with
  | nil =>
    have := Run.same_length hp
    rw [List.nil_append, hq.matchedFrom_of_run hp, matchedFrom,
      show min (i' - i) (j' - j) = i' - i by omega]
  | cons f rest ih => rw [List.cons_append, matchedFrom, matchedFrom, ih hp.2.2, List.append_assoc]

end Patch.Aligned

/-! ## Patches with the same matched pairs -/

namespace Patch

variable {R : Nat → Nat → Prop} {i j n m gap : Nat} {p q : Patch} {f g : Fragment}

/-- The first pair of a diagonal is its start. -/
theorem head?_diagonal_append {count : Nat} (hcount : 0 < count) (rest : List (Nat × Nat)) :
    (diagonal i j count ++ rest).head? = some (i, j) := by
  obtain ⟨count, rfl⟩ := Nat.exists_eq_succ_of_ne_zero (Nat.ne_of_gt hcount)
  rw [diagonal, List.range_succ_eq_map]
  rfl

/-- The start of a fragment is not among the matched pairs. -/
theorem Aligned.start_notMem_matchedFrom (h : Aligned R i j (f :: p) n m) :
    (f.start₁, f.start₂) ∉ matchedFrom i j (f :: p) n m := by
  obtain ⟨_, hcost, hrest⟩ := h
  rw [Fragment.cost_eq] at hcost
  intro hmem
  rcases List.mem_append.mp hmem with hmem | hmem
  · obtain ⟨k, hk, heq⟩ := mem_diagonal.mp hmem
    have hline := (Prod.mk.inj heq).1
    omega
  · have hbounds := hrest.bounds_of_mem_matchedFrom hmem
    simp only at hbounds
    omega

/-- A fragment leaves fewer matched pairs than no fragment. -/
theorem Aligned.matchedFrom_nil_ne (h : Aligned R i j (f :: p) n m) (hnil : Aligned R i j [] n m) :
    matchedFrom i j [] n m ≠ matchedFrom i j (f :: p) n m := by
  intro heq
  have hnone := hnil.cost_add_length_matchedFrom
  have hall := h.cost_add_length_matchedFrom
  have hcost := h.2.1
  rw [cost, List.foldr_nil, heq] at hnone
  rw [cost, List.foldr_cons] at hall
  omega

/-- A patch with the same matched pairs does not leave more lines unchanged before its first
fragment. -/
theorem Aligned.start₁_le_of_matchedFrom_eq (hp : Aligned R i j (f :: p) n m)
    (hq : Aligned R i j (g :: q) n m)
    (heq : matchedFrom i j (f :: p) n m = matchedFrom i j (g :: q) n m) :
    g.start₁ ≤ f.start₁ := by
  by_contra hlt
  apply hp.start_notMem_matchedFrom
  rw [heq]
  have hle₁ := hp.1.le₁
  have hle₂ := hp.1.le₂
  have hsame := hp.1.same_length
  have hsame' := hq.1.same_length
  refine List.mem_append_left _ (mem_diagonal.mpr ⟨f.start₁ - i, by omega, ?_⟩)
  rw [Nat.add_sub_cancel' hle₁, hsame, Nat.add_sub_cancel' hle₂]

/-- If a line stays unchanged before its first fragment, the matched pairs of a well-formed patch
begin where it begins, and there are none only at the end. -/
theorem WellFormedFrom.head?_matchedFrom (h : p.WellFormedFrom i j 1 n m) :
    (p.matchedFrom i j n m).head?.getD (n, m) = (i, j) := by
  cases p with
  | nil =>
    obtain ⟨hn, hm, hsame⟩ := h
    rw [matchedFrom, ← List.append_nil (diagonal i j _)]
    rcases Nat.eq_or_lt_of_le hn with rfl | hlt
    · rw [show m = j by omega, Nat.sub_self, Nat.zero_min]
      rfl
    · rw [head?_diagonal_append (by omega)]
      rfl
  | cons f rest =>
    obtain ⟨hi, hj, _⟩ := h
    rw [matchedFrom, head?_diagonal_append (by omega)]
    rfl

/-- A well-formed patch is given by its matched pairs. -/
theorem WellFormedFrom.eq_of_matchedFrom_eq (hp : p.WellFormedFrom i j gap n m)
    (hq : q.WellFormedFrom i j gap n m) (heq : p.matchedFrom i j n m = q.matchedFrom i j n m) :
    p = q := by
  have hpa := (wellFormedFrom_iff.mp hp).1
  have hqa := (wellFormedFrom_iff.mp hq).1
  induction p generalizing i j gap q with
  | nil =>
    cases q with
    | nil => rfl
    | cons g q => exact absurd heq (hqa.matchedFrom_nil_ne hpa)
  | cons f p ih =>
    cases q with
    | nil => exact absurd heq.symm (hpa.matchedFrom_nil_ne hqa)
    | cons g q =>
      have hstart₁ : f.start₁ = g.start₁ := Nat.le_antisymm
        (hqa.start₁_le_of_matchedFrom_eq hpa heq.symm) (hpa.start₁_le_of_matchedFrom_eq hqa heq)
      have hstart₂ : f.start₂ = g.start₂ := by
        have := hpa.1.le₂
        have := hqa.1.le₂
        have := hpa.1.same_length
        have := hqa.1.same_length
        omega
      rw [matchedFrom, matchedFrom, hstart₁, hstart₂] at heq
      have hlater := List.append_cancel_left heq
      obtain ⟨_, _, _, _, hp⟩ := hp
      obtain ⟨_, _, _, _, hq⟩ := hq
      -- both patches go on where the pairs after the first fragment begin
      have hstop := hp.head?_matchedFrom
      rw [hlater, hq.head?_matchedFrom] at hstop
      obtain ⟨hstop₁, hstop₂⟩ := Prod.mk.inj hstop
      have hfragment : f = g := by
        cases f
        cases g
        exact congrArg₂ Fragment.mk (LineRange.eq_of_bounds hstart₁ hstop₁.symm)
          (LineRange.eq_of_bounds hstart₂ hstop₂.symm)
      subst hfragment
      rw [ih hp hq hlater hpa.2.2 hqa.2.2]

end Patch

end Linewise
