import Linewise.Proofs.Patch.Coalesce

/-!
# What tidying keeps

Trimming drops line pairs that are literally equal from both ends of a fragment.
`Trimmed` says all that can happen to a fragment. Since the dropped pairs match,
the patch stays aligned in every relation that holds between literally equal
lines, its fragments stay apart, and it stays tight.
-/

namespace Linewise.Patch

variable {R : Nat → Nat → Prop} {lines : TwoSided (Array String)} {i j n m : Nat} {p : Patch}
variable {f g : Fragment}

/-- No more pairs are counted than there is room for, and those counted are equal. -/
theorem equalAfter_spec (lines : TwoSided (Array String)) (room i j : Nat) :
    equalAfter lines room i j ≤ room ∧
      ∀ k < equalAfter lines room i j, lines.left[i + k]? = lines.right[j + k]? := by
  induction room generalizing i j with
  | zero => exact ⟨Nat.le_refl _, fun k hk => absurd hk (Nat.not_lt_zero k)⟩
  | succ room ih =>
    unfold equalAfter
    split
    · rename_i hstep
      obtain ⟨hroom, hequal⟩ := ih (i + 1) (j + 1)
      refine ⟨by omega, ?_⟩
      intro k hk
      cases k with
      | zero => simpa using hstep
      | succ k =>
        have heq := hequal k (by omega)
        rwa [show i + (k + 1) = i + 1 + k by omega, show j + (k + 1) = j + 1 + k by omega]
    · exact ⟨Nat.zero_le _, fun k hk => absurd hk (Nat.not_lt_zero k)⟩

/-- No more pairs are counted backwards than there is room for, and those counted are equal. -/
theorem equalBefore_spec (lines : TwoSided (Array String)) (room i j : Nat) :
    equalBefore lines room i j ≤ room ∧
      ∀ k < equalBefore lines room i j, lines.left[i - k - 1]? = lines.right[j - k - 1]? := by
  induction room generalizing i j with
  | zero => exact ⟨Nat.le_refl _, fun k hk => absurd hk (Nat.not_lt_zero k)⟩
  | succ room ih =>
    unfold equalBefore
    split
    · rename_i hstep
      obtain ⟨hroom, hequal⟩ := ih (i - 1) (j - 1)
      refine ⟨by omega, ?_⟩
      intro k hk
      cases k with
      | zero => simpa using hstep
      | succ k =>
        have heq := hequal k (by omega)
        rwa [show i - (k + 1) - 1 = i - 1 - k - 1 by omega,
          show j - (k + 1) - 1 = j - 1 - k - 1 by omega]
    · exact ⟨Nat.zero_le _, fun k hk => absurd hk (Nat.not_lt_zero k)⟩

/-- What may become of `f` when its ends are trimmed: `front` equal pairs go at its start and `back`
at its end, and nothing is left if these are all its lines. -/
structure Trimmed (lines : TwoSided (Array String)) (f : Fragment) (front back : Nat)
    (result : Option Fragment) : Prop where
  room₁ : f.start₁ + front ≤ f.stop₁ - back
  room₂ : f.start₂ + front ≤ f.stop₂ - back
  enough₁ : back ≤ f.stop₁
  enough₂ : back ≤ f.stop₂
  first : Run (Agree lines) f.start₁ f.start₂ (f.start₁ + front) (f.start₂ + front)
  last : Run (Agree lines) (f.stop₁ - back) (f.stop₂ - back) f.stop₁ f.stop₂
  gone : result = none → f.start₁ + front = f.stop₁ - back ∧ f.start₂ + front = f.stop₂ - back
  kept : ∀ g, result = some g → g.start₁ = f.start₁ + front ∧ g.stop₁ = f.stop₁ - back ∧
    g.start₂ = f.start₂ + front ∧ g.stop₂ = f.stop₂ - back ∧ 0 < g.cost

/-- Trimming drops equal pairs from both ends of a fragment and does nothing else. -/
theorem trimEnds_trimmed (lines : TwoSided (Array String)) (f : Fragment)
    (hstop : f.stop₁ ≤ lines.left.size) :
    ∃ front back, Trimmed lines f front back (trimEnds lines f) := by
  have hfront := equalAfter_spec lines (min f.deleted.size f.inserted.size) f.start₁ f.start₂
  generalize hfrontEq : equalAfter lines (min f.deleted.size f.inserted.size) f.start₁ f.start₂ =
    front at hfront
  have hback := equalBefore_spec lines (min f.deleted.size f.inserted.size - front) f.stop₁ f.stop₂
  generalize hbackEq : equalBefore lines (min f.deleted.size f.inserted.size - front) f.stop₁
    f.stop₂ = back at hback
  have hsize₁ : f.deleted.size = f.stop₁ - f.start₁ := rfl
  have hsize₂ : f.inserted.size = f.stop₂ - f.start₂ := rfl
  have hblock₁ := f.start₁_le_stop₁
  have hblock₂ := f.start₂_le_stop₂
  have hroom₁ : f.start₁ + front ≤ f.stop₁ - back := by omega
  have hroom₂ : f.start₂ + front ≤ f.stop₂ - back := by omega
  have htrim : trimEnds lines f =
      (Fragment.ofRanges (.span (f.start₁ + front) (f.stop₁ - back))
        (.span (f.start₂ + front) (f.stop₂ - back))).toOption := by
    simp only [trimEnds, hfrontEq, hbackEq]
  have hspan₁ := LineRange.span_stop hroom₁
  have hspan₂ := LineRange.span_stop hroom₂
  refine ⟨front, back, hroom₁, hroom₂, by omega, by omega, ?_, ?_, ?_, ?_⟩
  · refine Run.of_length ?_
    intro k hk
    exact Agree.of_getElem?_eq (by omega) (hfront.2 k hk)
  · refine ⟨by omega, by omega, by omega, ?_⟩
    intro k hk
    refine Agree.of_getElem?_eq (by omega) ?_
    have heq := hback.2 (back - 1 - k) (by omega)
    rwa [show f.stop₁ - (back - 1 - k) - 1 = f.stop₁ - back + k by omega,
      show f.stop₂ - (back - 1 - k) - 1 = f.stop₂ - back + k by omega] at heq
  · rw [htrim, Fragment.ofRanges_eq]
    split
    · rename_i hempty
      simp only [LineRange.size, LineRange.span_start, hspan₁, hspan₂] at hempty
      intro _
      omega
    · intro hnone
      cases hnone
  · rw [htrim, Fragment.ofRanges_eq]
    split
    · intro g hg
      cases hg
    · rename_i hlines
      intro g hg
      obtain rfl : (⟨.span (f.start₁ + front) (f.stop₁ - back),
        .span (f.start₂ + front) (f.stop₂ - back)⟩ : Fragment) = g := Option.some.inj hg
      exact ⟨rfl, hspan₁, rfl, hspan₂, Nat.pos_of_ne_zero hlines⟩

/-- Trimming every fragment keeps a patch aligned. -/
theorem Aligned.trim (hR : ∀ x y, Agree lines x y → R x y) (hn : n ≤ lines.left.size)
    (h : p.Aligned R i j n m) :
    Aligned R i j (p.filterMap (trimEnds lines)) n m := by
  induction p generalizing i j with
  | nil => exact h
  | cons f rest ih =>
    have hbounds := h.bounds List.mem_cons_self
    obtain ⟨hrun, _, hrest⟩ := h
    obtain ⟨front, back, htrim⟩ := trimEnds_trimmed lines f (by omega)
    have hlater := (ih hrest).after_run (htrim.last.mono hR)
    have hfirst := hrun.trans (htrim.first.mono hR)
    cases hcase : trimEnds lines f with
    | none =>
      rw [List.filterMap_cons_none hcase]
      obtain ⟨heq₁, heq₂⟩ := htrim.gone hcase
      rw [← heq₁, ← heq₂] at hlater
      exact hlater.after_run hfirst
    | some g =>
      rw [List.filterMap_cons_some hcase]
      obtain ⟨hstart₁, hstop₁, hstart₂, hstop₂, hcost⟩ := htrim.kept g hcase
      rw [Aligned, hstart₁, hstop₁, hstart₂, hstop₂]
      exact ⟨hfirst, hcost, hlater⟩

/-- Trimming every fragment keeps a patch well formed. -/
theorem WellFormedFrom.trim {gap : Nat} (h : p.WellFormedFrom i j gap n m)
    (hn : n ≤ lines.left.size) :
    WellFormedFrom i j gap (p.filterMap (trimEnds lines)) n m := by
  induction p generalizing i j gap with
  | nil => exact h
  | cons f rest ih =>
    have hbounds := (wellFormedFrom_iff.mp h).1.bounds List.mem_cons_self
    obtain ⟨hstart₁, hstart₂, hsame, _, hrest⟩ := h
    have hblock₁ := f.start₁_le_stop₁
    have hblock₂ := f.start₂_le_stop₂
    obtain ⟨front, back, htrim⟩ := trimEnds_trimmed lines f (by omega)
    have hroom₁ := htrim.room₁
    have hroom₂ := htrim.room₂
    have henough₁ := htrim.enough₁
    have henough₂ := htrim.enough₂
    cases hcase : trimEnds lines f with
    | none =>
      rw [List.filterMap_cons_none hcase]
      obtain ⟨heq₁, heq₂⟩ := htrim.gone hcase
      exact (ih hrest).earlier (by omega) (by omega) (by omega) (by omega)
    | some g =>
      rw [List.filterMap_cons_some hcase]
      obtain ⟨hg₁, hg₂, hg₃, hg₄, hcost⟩ := htrim.kept g hcase
      refine ⟨by omega, by omega, by omega, hcost, ?_⟩
      exact (ih hrest).earlier (by omega) (by omega) (by omega) (by omega)

/-- Trimming every fragment keeps a patch tight: a run between trimmed fragments and the pairs that
were dropped make up a run between the fragments as they were. -/
theorem Tight.trim (hR : ∀ x y, Agree lines x y → R x y) (hn : n ≤ lines.left.size)
    (haligned : p.Aligned R i j n m) (h : p.Tight R) :
    Tight R (p.filterMap (trimEnds lines)) := by
  have hruns {e e' g g' : Fragment} (he : e ∈ p) (he' : e' ∈ p) (hg : trimEnds lines e = some g)
      (hg' : trimEnds lines e' = some g') (hto : g.RunsTo R g') : e.RunsTo R e' := by
    have hbound := haligned.bounds he
    have hbound' := haligned.bounds he'
    obtain ⟨front, back, htrim⟩ := trimEnds_trimmed lines e (by omega)
    obtain ⟨front', back', htrim'⟩ := trimEnds_trimmed lines e' (by omega)
    obtain ⟨hstart₁, _, hstart₂, _⟩ := htrim.kept g hg
    obtain ⟨_, hstop₁, _, hstop₂, _⟩ := htrim'.kept g' hg'
    rw [Fragment.RunsTo, hstart₁, hstart₂, hstop₁, hstop₂] at hto
    exact ((htrim.first.mono hR).trans hto).trans (htrim'.last.mono hR)
  constructor
  · intro g hg hto
    obtain ⟨e, he, hsome⟩ := List.mem_filterMap.mp hg
    exact h.single e he (hruns he he hsome hsome hto)
  · rw [List.pairwise_filterMap]
    refine h.pair.imp_of_mem ?_
    intro _ _ he he' hnot g hg g' hg' hto
    exact hnot (hruns he he' hg hg' hto)

/-- Tidying keeps a patch well formed and aligned. -/
theorem Aligned.tidy (threshold : Nat) (hR : ∀ x y, Agree lines x y → R x y)
    (hn : n ≤ lines.left.size) (h : p.Aligned R 0 0 n m) (hapart : p.Apart) :
    (tidy threshold lines p).Aligned R 0 0 n m ∧ (Patch.tidy threshold lines p).WellFormed n m := by
  have hjoined := (h.joinThin threshold lines hapart).1
  exact ⟨hjoined.trim hR hn, WellFormedFrom.trim (h.wellFormed_joinThin threshold lines hapart) hn⟩

/-- Tidying keeps a patch tight. -/
theorem Tight.tidy (threshold : Nat) (hR : ∀ x y, Agree lines x y → R x y)
    (hn : n ≤ lines.left.size) (haligned : p.Aligned R 0 0 n m) (hapart : p.Apart)
    (h : p.Tight R) : (tidy threshold lines p).Tight R :=
  (h.joinThin threshold lines haligned).trim hR hn (haligned.joinThin threshold lines hapart).1

end Linewise.Patch
