import Linewise.Proofs.Patch.MatchedPairs

/-!
# What tidying changes

Tidying a well-formed patch gives a well-formed one. A pair is given up only where it
stood alone between two fragments and its lines are unimportant, and a pair is gained only
where the lines are literally equal. What is left of a fragment with lines on both sides
begins and ends with lines that differ. Neither are there more fragments than before, nor
do they take more rows.
-/

namespace Linewise.Patch

variable {R : Nat → Nat → Prop} {threshold : Nat} {lines : TwoSided (Array String)}
  {joins : Fragment → Fragment → Bool} {i j n m : Nat} {p : Patch} {f g : Fragment} {x : Nat × Nat}

/-- Number of rows that the fragments take when their two sides are shown side by side. -/
def weight (p : Patch) : Nat := p.foldr (fun f rest => f.weight + rest) 0

/-- The first fragment takes its rows besides those of the others. -/
theorem weight_cons (f : Fragment) (p : Patch) : weight (f :: p) = f.weight + p.weight := rfl

/-- The pair is all that stands between two neighbouring fragments, and both its lines have fewer
than `threshold` visible characters. -/
structure LoneSeparator (threshold : Nat) (lines : TwoSided (Array String)) (p : Patch)
    (x : Nat × Nat) : Prop where
  between : ∃ f g, [f, g] <:+: p ∧ x = (f.stop₁, f.stop₂) ∧ g.start₁ = x.1 + 1 ∧
    g.start₂ = x.2 + 1
  left : unimportantAt threshold lines.left x.1 = true
  right : unimportantAt threshold lines.right x.2 = true

/-- Neither the first lines of the two sides nor the last ones are literally equal. -/
structure EndsDiffer (lines : TwoSided (Array String)) (f : Fragment) : Prop where
  first : lines.left[f.start₁]? ≠ lines.right[f.start₂]?
  last : lines.left[f.stop₁ - 1]? ≠ lines.right[f.stop₂ - 1]?

/-! ## Joining -/

/-- A pair that joining gives up stands between two neighbours, of which the second was joined to a
fragment that ends where the first one does. -/
theorem Aligned.mem_matchedFrom_coalesce (h : Aligned R i j (f :: p) n m)
    (hx : x ∈ matchedFrom i j (f :: p) n m) :
    x ∈ (Patch.coalesce joins f p).matchedFrom i j n m ∨
      ∃ d e g, [d, g] <:+: f :: p ∧ (e.stop₁ = d.stop₁ ∧ e.stop₂ = d.stop₂) ∧
        joins e g = true ∧
        x ∈ diagonal d.stop₁ d.stop₂ (min (g.start₁ - d.stop₁) (g.start₂ - d.stop₂)) := by
  induction p generalizing f i j with
  | nil => exact .inl hx
  | cons g rest ih =>
    have hsuffix := (List.suffix_cons f (g :: rest)).isInfix
    rw [Patch.coalesce]
    split
    · rename_i hjoined
      obtain ⟨hstop₁, hstop₂, hunion⟩ := h.union
      have hkept : x ∈ diagonal f.stop₁ f.stop₂
            (min (g.start₁ - f.stop₁) (g.start₂ - f.stop₂)) ∨
          x ∈ matchedFrom i j (f.union g :: rest) n m := by
        rw [matchedFrom, hstop₁, hstop₂]
        simp only [matchedFrom, List.mem_append] at hx ⊢
        rcases hx with hx | hx | hx
        · exact .inr (.inl hx)
        · exact .inl hx
        · exact .inr (.inr hx)
      rcases hkept with hbetween | hkept
      · exact .inr ⟨f, f, g, ⟨[], rest, rfl⟩, ⟨rfl, rfl⟩, hjoined, hbetween⟩
      rcases ih hunion hkept with hleft | ⟨d, e, g', hthree, hend, hjoins, hbetween⟩
      · exact .inl hleft
      right
      rcases List.infix_cons_iff.mp hthree with hprefix | hthree
      · -- The joined fragment ends where its second part does.
        obtain ⟨rfl, hlater⟩ := List.cons_prefix_cons.mp hprefix
        have hnext := (List.cons_prefix_cons.mpr ⟨rfl, hlater⟩ : [g, g'] <+: g :: rest).isInfix
        rw [hstop₁, hstop₂] at hend hbetween
        exact ⟨g, e, g', hnext.trans hsuffix, hend, hjoins, hbetween⟩
      · exact ⟨d, e, g', (hthree.trans (List.suffix_cons g rest).isInfix).trans hsuffix, hend,
          hjoins, hbetween⟩
    · rcases List.mem_append.mp hx with hx | hx
      · exact .inl (List.mem_append_left _ hx)
      rcases ih h.2.2 hx with hleft | ⟨d, e, g', hthree, hrest⟩
      · exact .inl (List.mem_append_right _ hleft)
      · exact .inr ⟨d, e, g', hthree.trans hsuffix, hrest⟩

/-- A pair that joining across thin separators gives up is a lone separator. -/
theorem Aligned.mem_matchedFrom_joinThin (h : p.Aligned R i j n m)
    (hx : x ∈ p.matchedFrom i j n m) :
    x ∈ (Patch.joinThin threshold lines p).matchedFrom i j n m ∨
      LoneSeparator threshold lines p x := by
  cases p with
  | nil => exact .inl hx
  | cons f rest =>
    rw [Patch.joinThin, joinFrom_eq_coalesce]
    rcases h.mem_matchedFrom_coalesce hx with hkept | ⟨d, e, g, hthree, ⟨hend₁, hend₂⟩, hjoins,
      hbetween⟩
    · exact .inl hkept
    right
    simp only [Patch.joins, thinlySeparated, Bool.and_eq_true, beq_iff_eq, hend₁, hend₂] at hjoins
    obtain ⟨⟨⟨⟨hstart₁, hstart₂⟩, hleft⟩, hright⟩, _⟩ := hjoins
    obtain ⟨t, ht, rfl⟩ := mem_diagonal.mp hbetween
    obtain rfl : t = 0 := by omega
    exact ⟨⟨d, g, hthree, rfl, hstart₁, hstart₂⟩, hleft, hright⟩

/-- Joining takes no more rows than before, if every joined fragment takes no more than its two
parts. -/
theorem weight_coalesce_le
    (hjoins : ∀ f g, joins f g = true → (f.union g).weight ≤ f.weight + g.weight) (f : Fragment)
    (p : Patch) : (coalesce joins f p).weight ≤ weight (f :: p) := by
  induction p generalizing f with
  | nil => exact Nat.le_refl _
  | cons g rest ih =>
    rw [coalesce]
    split
    · rename_i hjoined
      have hrest := ih (f.union g)
      have hunion := hjoins f g hjoined
      simp only [weight_cons] at hrest ⊢
      omega
    · have hrest := ih g
      simp only [weight_cons] at hrest ⊢
      omega

/-- Joining across thin separators leaves at most as many fragments, which take no more rows. -/
theorem joinThin_le (threshold : Nat) (lines : TwoSided (Array String)) (p : Patch) :
    (joinThin threshold lines p).length ≤ p.length ∧
      (joinThin threshold lines p).weight ≤ p.weight := by
  cases p with
  | nil => exact ⟨Nat.le_refl _, Nat.le_refl _⟩
  | cons f rest =>
    rw [joinThin, joinFrom_eq_coalesce]
    refine ⟨length_coalesce_le _ f rest, weight_coalesce_le ?_ f rest⟩
    intro f g hjoined
    rw [Patch.joins, Bool.and_eq_true] at hjoined
    exact of_decide_eq_true hjoined.2

/-! ## Trimming -/

/-- Counting equal pairs stops before a pair that is not equal. -/
theorem equalAfter_ne (lines : TwoSided (Array String)) (room i j : Nat)
    (h : equalAfter lines room i j < room) :
    lines.left[i + equalAfter lines room i j]? ≠ lines.right[j + equalAfter lines room i j]? := by
  induction room generalizing i j with
  | zero => exact absurd h (Nat.not_lt_zero _)
  | succ room ih =>
    unfold equalAfter at h ⊢
    split
    · rename_i hequal
      rw [if_pos hequal] at h
      have hlater := ih (i + 1) (j + 1) (Nat.lt_of_succ_lt_succ h)
      rwa [Nat.add_right_comm i 1, Nat.add_right_comm j 1] at hlater
    · assumption

/-- Counting equal pairs backwards stops at a pair that is not equal. -/
theorem equalBefore_ne (lines : TwoSided (Array String)) (room i j : Nat)
    (h : equalBefore lines room i j < room) :
    lines.left[i - equalBefore lines room i j - 1]? ≠
      lines.right[j - equalBefore lines room i j - 1]? := by
  induction room generalizing i j with
  | zero => exact absurd h (Nat.not_lt_zero _)
  | succ room ih =>
    unfold equalBefore at h ⊢
    split
    · rename_i hequal
      rw [if_pos hequal] at h
      have hearlier := ih (i - 1) (j - 1) (Nat.lt_of_succ_lt_succ h)
      rwa [Nat.sub_right_comm i 1, Nat.sub_right_comm j 1, Nat.sub_sub i, Nat.sub_sub j]
        at hearlier
    · assumption

/-- What is left of a fragment by trimming begins and ends with different lines, if it has lines on
both sides. -/
theorem endsDiffer_of_trimEnds (h : trimEnds lines f = some g)
    (hboth : ∀ side, 0 < (g.range side).size) : EndsDiffer lines g := by
  have hdeleted : 0 < g.deleted.size := hboth .left
  have hinserted : 0 < g.inserted.size := hboth .right
  simp only [trimEnds] at h
  have hfront := equalAfter_ne lines (min f.deleted.size f.inserted.size) f.start₁ f.start₂
  generalize equalAfter lines (min f.deleted.size f.inserted.size) f.start₁ f.start₂ = front
    at h hfront
  have hback := equalBefore_ne lines (min f.deleted.size f.inserted.size - front) f.stop₁ f.stop₂
  generalize equalBefore lines (min f.deleted.size f.inserted.size - front) f.stop₁ f.stop₂ = back
    at h hback
  rw [Fragment.ofRanges_eq] at h
  split at h
  · cases h
  · obtain rfl := Option.some.inj h
    have hsize₁ : f.deleted.size = f.stop₁ - f.start₁ := rfl
    have hsize₂ : f.inserted.size = f.stop₂ - f.start₂ := rfl
    change 0 < max (f.start₁ + front) (f.stop₁ - back) - (f.start₁ + front) at hdeleted
    change 0 < max (f.start₂ + front) (f.stop₂ - back) - (f.start₂ + front) at hinserted
    constructor
    · exact hfront (by omega)
    · have hstop₁ : max (f.start₁ + front) (f.stop₁ - back) = f.stop₁ - back := by omega
      have hstop₂ : max (f.start₂ + front) (f.stop₂ - back) = f.stop₂ - back := by omega
      change lines.left[max (f.start₁ + front) (f.stop₁ - back) - 1]? ≠
        lines.right[max (f.start₂ + front) (f.stop₂ - back) - 1]?
      rw [hstop₁, hstop₂]
      exact hback (by omega)

/-- A trimmed fragment takes no more rows. -/
theorem Trimmed.weight_le {front back : Nat} {result : Option Fragment}
    (h : Trimmed lines f front back result) (hg : result = some g) : g.weight ≤ f.weight := by
  obtain ⟨hstart₁, hstop₁, hstart₂, hstop₂, _⟩ := h.kept g hg
  rw [Fragment.weight_eq, Fragment.weight_eq, hstart₁, hstop₁, hstart₂, hstop₂]
  omega

/-- Trimmed fragments take no more rows. -/
theorem weight_trim_le (hp : ∀ f ∈ p, f.stop₁ ≤ lines.left.size) :
    weight (p.filterMap (trimEnds lines)) ≤ p.weight := by
  induction p with
  | nil => exact Nat.le_refl _
  | cons f rest ih =>
    rw [List.forall_mem_cons] at hp
    have hrest := ih hp.2
    obtain ⟨front, back, htrim⟩ := trimEnds_trimmed lines f hp.1
    cases hcase : trimEnds lines f with
    | none =>
      rw [List.filterMap_cons_none hcase, weight_cons]
      omega
    | some g =>
      have hweight := htrim.weight_le hcase
      rw [List.filterMap_cons_some hcase, weight_cons, weight_cons]
      omega

/-! ## Tidying -/

/-- Tidying a well-formed patch gives a well-formed one. A pair that is no longer matched was a lone
separator of two fragments, with an unimportant line on each side; a pair that is matched only now
is of lines that are literally equal. A fragment left with lines on both sides begins and ends with
lines that differ. There are no more fragments than before, and they take no more rows. -/
theorem tidy_keeps (threshold : Nat) (lines : TwoSided (Array String))
    (hp : p.WellFormed lines.left.size lines.right.size) :
    (tidy threshold lines p).WellFormed lines.left.size lines.right.size ∧
      (∀ x ∈ p.matchedPairs lines.left.size lines.right.size,
        x ∉ (tidy threshold lines p).matchedPairs lines.left.size lines.right.size →
          LoneSeparator threshold lines p x) ∧
      (∀ x ∈ (tidy threshold lines p).matchedPairs lines.left.size lines.right.size,
        x ∉ p.matchedPairs lines.left.size lines.right.size → Agree lines x.1 x.2) ∧
      (∀ f ∈ tidy threshold lines p, (∀ side, 0 < (f.range side).size) → EndsDiffer lines f) ∧
      (tidy threshold lines p).length ≤ p.length ∧
      (tidy threshold lines p).weight ≤ p.weight := by
  obtain ⟨haligned, hapart⟩ := wellFormed_iff.mp hp
  obtain ⟨hjoined, _⟩ := haligned.joinThin threshold lines hapart
  obtain ⟨hlength, hweight⟩ := joinThin_le threshold lines p
  refine ⟨(haligned.tidy threshold (fun _ _ _ => trivial) (Nat.le_refl _) hapart).2, ?_, ?_, ?_, ?_,
    ?_⟩
  · intro x hx hlost
    rcases haligned.mem_matchedFrom_joinThin hx with hkept | hseparator
    · have hsublist := hjoined.matchedFrom_sublist_trim (fun _ _ _ => trivial) (Nat.le_refl _)
      exact absurd (hsublist.subset hkept) hlost
    · exact hseparator
  · -- Tidying keeps a patch aligned in every relation that literally equal lines belong to.
    intro x hx hnew
    have heither : p.Aligned
        (fun k l => (k, l) ∈ p.matchedPairs lines.left.size lines.right.size ∨ Agree lines k l) 0 0
        lines.left.size lines.right.size := haligned.of_matchedFrom fun _ hpair => .inl hpair
    have htidied := (heither.tidy threshold (fun _ _ => .inr) (Nat.le_refl _) hapart).1
    exact (htidied.rel_of_mem_matchedFrom hx).resolve_left hnew
  · intro f hf hboth
    obtain ⟨e, _, htrim⟩ := List.mem_filterMap.mp hf
    exact endsDiffer_of_trimEnds htrim hboth
  · exact Nat.le_trans (List.length_filterMap_le _ _) hlength
  · exact Nat.le_trans (weight_trim_le fun f hf => (hjoined.bounds hf).2.2.1) hweight

/-- Of three fragments, the first is trimmed away and the other two are joined across an empty
line. -/
theorem tidy_keeps_joined :
    let lines : TwoSided (Array String) :=
      ⟨#["same", "keep", "", "old"], #["same", "keep", "new", ""]⟩
    let p : Patch := [⟨.span 0 1, .span 0 1⟩, ⟨.emptyAt 2, .span 2 3⟩, ⟨.span 3 4, .emptyAt 4⟩]
    p.WellFormed lines.left.size lines.right.size ∧
      tidy 3 lines p = [⟨.span 2 4, .span 2 4⟩] ∧ LoneSeparator 3 lines p (2, 3) ∧
      Agree lines 0 0 ∧ EndsDiffer lines ⟨.span 2 4, .span 2 4⟩ ∧
      (tidy 3 lines p).weight ≤ p.weight := by
  intro lines p
  have hp : p.WellFormed lines.left.size lines.right.size := by decide
  have hresult : tidy 3 lines p = [⟨.span 2 4, .span 2 4⟩] := by decide +kernel
  obtain ⟨_, hlost, hnew, hends, _, hweight⟩ := tidy_keeps 3 lines hp
  rw [hresult] at hlost hnew hends
  refine ⟨hp, hresult, hlost (2, 3) (by decide) (by decide), hnew (0, 0) (by decide) (by decide),
    ?_, hweight⟩
  exact hends _ (List.mem_singleton_self _) (Side.forall_iff.mpr ⟨by decide, by decide⟩)

end Linewise.Patch
