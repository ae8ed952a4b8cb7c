import Linewise.Proofs.Comparison
import Linewise.Proofs.Patch.Growth

/-!
# What joining across thin separators leaves

Two fragments that one unimportant line keeps apart are joined if the joined change is
no taller than the two, which is so exactly if one of them adds lines and the other
removes some. The fragment in hand is joined to the next one as long as it can be, but
what it becomes is never held against the fragment before it. So two fragments of a
comparison may be left that are to become one: then the second was itself joined across
a thin separator, of a part that did not yet fit the first.
-/

namespace Linewise

namespace Patch

variable {R : Nat → Nat → Prop} {threshold i j gap n m : Nat} {lines : TwoSided (Array String)}
  {f g f' g' u v : Fragment} {p : Patch}

/-! ## When two fragments are to become one -/

/-- One of the fragments adds lines and the other removes some. -/
def Opposed (f g : Fragment) : Prop :=
  (f.growth < 0 ∧ 0 < g.growth) ∨ (0 < f.growth ∧ g.growth < 0)

/-- Two thinly separated fragments are to become one exactly if they are opposed. -/
theorem joins_iff :
    joins threshold lines f g = true ↔
      thinlySeparated threshold lines f g = true ∧ Opposed f g := by
  rw [joins, Bool.and_eq_true, decide_eq_true_eq]
  refine and_congr_right fun hthin => ?_
  simp only [thinlySeparated, Bool.and_eq_true, beq_iff_eq] at hthin
  obtain ⟨⟨⟨hgap₁, hgap₂⟩, _⟩, _⟩ := hthin
  have := f.start₁_le_stop₁
  have := f.start₂_le_stop₂
  have := g.start₁_le_stop₁
  have := g.start₂_le_stop₂
  have hstop₁ : (f.union g).stop₁ = g.stop₁ := LineRange.span_stop (by omega)
  have hstop₂ : (f.union g).stop₂ = g.stop₂ := LineRange.span_stop (by omega)
  have hstart₁ : (f.union g).start₁ = f.start₁ := rfl
  have hstart₂ : (f.union g).start₂ = f.start₂ := rfl
  rw [(f.union g).weight_eq, f.weight_eq, g.weight_eq, hstop₁, hstop₂, hstart₁, hstart₂, Opposed,
    f.growth_eq, g.growth_eq]
  omega

/-- Whether two fragments are thinly separated is known from the bounds between them. -/
theorem thinlySeparated_congr (hstop₁ : f.stop₁ = f'.stop₁) (hstop₂ : f.stop₂ = f'.stop₂)
    (hstart₁ : g.start₁ = g'.start₁) (hstart₂ : g.start₂ = g'.start₂) :
    thinlySeparated threshold lines f g = thinlySeparated threshold lines f' g' := by
  rw [thinlySeparated, thinlySeparated, hstop₁, hstop₂, hstart₁, hstart₂]

/-- Whether two fragments are to become one is known from the bounds between them and from what each
of them adds. -/
theorem joins_congr (hstop₁ : f.stop₁ = f'.stop₁) (hstop₂ : f.stop₂ = f'.stop₂)
    (hf : f.growth = f'.growth) (hstart₁ : g.start₁ = g'.start₁) (hstart₂ : g.start₂ = g'.start₂)
    (hg : g.growth = g'.growth) :
    joins threshold lines f g = joins threshold lines f' g' := by
  rw [Bool.eq_iff_iff, joins_iff, joins_iff, Opposed, Opposed,
    thinlySeparated_congr hstop₁ hstop₂ hstart₁ hstart₂, hf, hg]

/-! ## What the pass leaves -/

/-- The first fragment of the result is `f`, or `f` was joined to the next one. -/
theorem head_coalesce_eq (joins : Fragment → Fragment → Bool) (f : Fragment) (p : Patch) :
    ∃ first later, coalesce joins f p = first :: later ∧ first.start₁ = f.start₁ ∧
      first.start₂ = f.start₂ ∧ (first = f ∨ ∃ h rest, p = h :: rest ∧ joins f h = true) := by
  obtain ⟨first, later, hall, hstart₁, hstart₂⟩ := head_coalesce joins f p
  refine ⟨first, later, hall, hstart₁, hstart₂, ?_⟩
  cases p with
  | nil => exact .inl (List.cons.inj hall).1.symm
  | cons h rest =>
    by_cases hjoins : joins f h = true
    · exact .inr ⟨h, rest, rfl, hjoins⟩
    · rw [coalesce, if_neg hjoins] at hall
      exact .inl (List.cons.inj hall).1.symm

/-- Two neighbours left that are to become one come from three: where the first ends, where the
second starts, and what was joined to that. -/
theorem three_of_joins_coalesce {joins : Fragment → Fragment → Bool}
    (h : Aligned R i j (f :: p) n m) (huv : [u, v] <:+: coalesce joins f p)
    (hjoins : joins u v = true) :
    ∃ d e e', [d, e, e'] <:+: f :: p ∧ d.stop₁ = u.stop₁ ∧ d.stop₂ = u.stop₂ ∧
      e.start₁ = v.start₁ ∧ e.start₂ = v.start₂ ∧ joins u e = false ∧ joins e e' = true := by
  induction p generalizing f i j with
  | nil => exact absurd huv.length_le (by simp [coalesce])
  | cons g rest ih =>
    rw [coalesce] at huv
    by_cases hfg : joins f g = true
    · rw [if_pos hfg] at huv
      obtain ⟨hstop₁, hstop₂, hunion⟩ := h.union
      obtain ⟨d, e, e', hinfix, hd₁, hd₂, hrest⟩ := ih hunion huv
      rcases List.infix_cons_iff.mp hinfix with hprefix | hinfix
      · -- The joined fragment ends where its second part does.
        obtain ⟨rfl, hlater⟩ := List.cons_prefix_cons.mp hprefix
        have hinfix : [g, e, e'] <:+: g :: rest :=
          (List.cons_prefix_cons.mpr ⟨rfl, hlater⟩).isInfix
        exact ⟨g, e, e', hinfix.trans (List.suffix_cons f _).isInfix, by omega, by omega, hrest⟩
      · have hlater : rest <:+ f :: g :: rest :=
          (List.suffix_cons g rest).trans (List.suffix_cons f _)
        exact ⟨d, e, e', hinfix.trans hlater.isInfix, hd₁, hd₂, hrest⟩
    · rw [if_neg hfg] at huv
      rcases List.infix_cons_iff.mp huv with hprefix | hinfix
      · obtain ⟨rfl, hnext⟩ := List.cons_prefix_cons.mp hprefix
        obtain ⟨first, later, hall, hstart₁, hstart₂, hfirst⟩ := head_coalesce_eq joins g rest
        rw [hall] at hnext
        obtain ⟨rfl, _⟩ := List.cons_prefix_cons.mp hnext
        have hnot : joins u g = false := by simpa using hfg
        rcases hfirst with rfl | ⟨e', rest, rfl, hjoined⟩
        · rw [hnot] at hjoins
          cases hjoins
        · exact ⟨u, g, e', ⟨[], rest, rfl⟩, rfl, rfl, hstart₁.symm, hstart₂.symm, hnot, hjoined⟩
      · obtain ⟨d, e, e', hinfix, hrest⟩ := ih h.2.2 hinfix
        exact ⟨d, e, e', hinfix.trans (List.suffix_cons f _).isInfix, hrest⟩

/-! ## What trimming leaves -/

/-- A trimmed fragment adds as many lines as before. -/
theorem Trimmed.growth_eq {front back : Nat} {result : Option Fragment}
    (h : Trimmed lines f front back result) (hg : result = some g) : g.growth = f.growth := by
  obtain ⟨hstart₁, hstop₁, hstart₂, hstop₂, _⟩ := h.kept g hg
  have := h.room₁
  have := h.room₂
  have := h.enough₁
  have := h.enough₂
  rw [Fragment.growth_eq, Fragment.growth_eq, hstart₁, hstop₁, hstart₂, hstop₂]
  omega

/-- If the first fragment left by trimming starts one line after the patch, it is the first one and
was not trimmed at its start. -/
theorem WellFormedFrom.head_trim {later : Patch} (h : p.WellFormedFrom i j 1 n m)
    (hn : n ≤ lines.left.size) (hhead : p.filterMap (trimEnds lines) = g :: later)
    (hnext : g.start₁ ≤ i + 1) :
    ∃ v rest, p = v :: rest ∧ trimEnds lines v = some g ∧ v.start₁ = g.start₁ ∧
      v.start₂ = g.start₂ := by
  cases p with
  | nil => cases hhead
  | cons v rest =>
    have hbounds := (wellFormedFrom_iff.mp h).1.bounds List.mem_cons_self
    obtain ⟨hstart, _, _, _, hrest⟩ := h
    obtain ⟨front, back, htrim⟩ := trimEnds_trimmed lines v (by omega)
    have hblock := v.start₁_le_stop₁
    cases hcase : trimEnds lines v with
    | none =>
      -- What comes after a fragment that is gone starts too late.
      rw [List.filterMap_cons_none hcase] at hhead
      have hlater := WellFormedFrom.trim hrest hn
      rw [hhead] at hlater
      have := hlater.1
      omega
    | some w =>
      rw [List.filterMap_cons_some hcase] at hhead
      obtain ⟨rfl, _⟩ := List.cons.inj hhead
      obtain ⟨hstart₁, _, hstart₂, _⟩ := htrim.kept w hcase
      exact ⟨v, rest, rfl, hcase, by omega, by omega⟩

/-- Neighbours that are one line apart after trimming were neighbours before, and were not trimmed
at the ends that face each other. -/
theorem WellFormedFrom.neighbours_trim (h : p.WellFormedFrom i j gap n m)
    (hn : n ≤ lines.left.size) (hfg : [f, g] <:+: p.filterMap (trimEnds lines))
    (hnext : g.start₁ = f.stop₁ + 1) :
    ∃ u v, [u, v] <:+: p ∧ (u.stop₁ = f.stop₁ ∧ u.stop₂ = f.stop₂ ∧ u.growth = f.growth) ∧
      v.start₁ = g.start₁ ∧ v.start₂ = g.start₂ ∧ v.growth = g.growth := by
  induction p generalizing i j gap with
  | nil => exact absurd hfg.length_le (by simp)
  | cons u rest ih =>
    have hbounds := (wellFormedFrom_iff.mp h).1.bounds List.mem_cons_self
    obtain ⟨_, _, _, _, hrest⟩ := h
    have hsuffix := (List.suffix_cons u rest).isInfix
    obtain ⟨front, back, htrim⟩ := trimEnds_trimmed lines u (by omega)
    have henough₁ := htrim.enough₁
    have henough₂ := htrim.enough₂
    cases hcase : trimEnds lines u with
    | none =>
      rw [List.filterMap_cons_none hcase] at hfg
      obtain ⟨u', v, hinfix, hkept⟩ := ih hrest hfg
      exact ⟨u', v, hinfix.trans hsuffix, hkept⟩
    | some w =>
      rw [List.filterMap_cons_some hcase] at hfg
      rcases List.infix_cons_iff.mp hfg with hprefix | hinfix
      · obtain ⟨rfl, later, hlater⟩ := List.cons_prefix_cons.mp hprefix
        obtain ⟨_, hstop₁, _, hstop₂, _⟩ := htrim.kept f hcase
        have htail := WellFormedFrom.trim hrest hn
        rw [← hlater] at htail
        have hapart := htail.1
        obtain ⟨v, rest, rfl, hv, hstart₁, hstart₂⟩ :=
          hrest.head_trim hn hlater.symm (by omega)
        have hboundsV := (wellFormedFrom_iff.mp hrest).1.bounds List.mem_cons_self
        obtain ⟨front', back', htrim'⟩ := trimEnds_trimmed lines v (by omega)
        exact ⟨u, v, ⟨[], rest, rfl⟩, ⟨by omega, by omega, (htrim.growth_eq hcase).symm⟩, hstart₁,
          hstart₂, (htrim'.growth_eq hv).symm⟩
      · obtain ⟨u', v, hinfix, hkept⟩ := ih hrest hinfix
        exact ⟨u', v, hinfix.trans hsuffix, hkept⟩

end Patch

/-! ## A pair that is left -/

/-- Two deletions and an insertion, each kept apart from the next by an empty line: the last two
become one fragment, which adds lines. -/
theorem compare_two_of_three :
    compare .exact {} (.ofText "first\n\nsecond\n\nend") (.ofText "\n\none\ntwo\nend") =
      [⟨.span 0 1, .emptyAt 0⟩, ⟨.span 2 4, .span 1 4⟩] := by
  have ha : Document.ofText "first\n\nsecond\n\nend" = ⟨#["first", "", "second", "", "end"]⟩ := by
    decide +kernel
  have hb : Document.ofText "\n\none\ntwo\nend" = ⟨#["", "", "one", "two", "end"]⟩ := by
    decide +kernel
  obtain ⟨hkeys₁, hkeys₂⟩ := internLines_eq .exact #["first", "", "second", "", "end"]
    #["", "", "one", "two", "end"]
  have hkeys : internLines .exact #["first", "", "second", "", "end"]
      #["", "", "one", "two", "end"] = (#[0, 1, 2, 1, 3], #[1, 1, 4, 5, 3]) :=
    Prod.ext (Array.toList_inj.mp (hkeys₁.trans (by decide)))
      (Array.toList_inj.mp (hkeys₂.trans (by decide)))
  have hraw : Script.shortestPatch #[0, 1, 2, 1, 3] #[1, 1, 4, 5, 3] =
      [⟨.span 0 1, .emptyAt 0⟩, ⟨.span 2 3, .emptyAt 1⟩, ⟨.emptyAt 4, .span 2 4⟩] := by
    cbv
  rw [ha, hb, compare, compareLines_eq_tidy, settledPatch, hkeys]
  simp only [Bool.false_eq_true, if_false, hraw]
  decide +kernel

/-- If two neighbours of a comparison are to become one, there were three neighbours before it was
tidied, each thinly separated from the next. The first ended where the first of the two does and the
second started where the second of them does; these were not joined, but the last two were. -/
theorem three_of_joins_compare (policy : Policy) (options : CompareOptions) (a b : Document)
    {f g : Fragment} (hfg : [f, g] <:+: compare policy options a b)
    (hjoins : Patch.joins options.threshold ⟨a.lines, b.lines⟩ f g = true) :
    ∃ d e e', [d, e, e'] <:+: settledPatch policy options a.lines b.lines ∧
      (d.stop₁ = f.stop₁ ∧ d.stop₂ = f.stop₂) ∧ (e.start₁ = g.start₁ ∧ e.start₂ = g.start₂) ∧
      Patch.thinlySeparated options.threshold ⟨a.lines, b.lines⟩ d e = true ∧
      Patch.joins options.threshold ⟨a.lines, b.lines⟩ f e = false ∧
      Patch.joins options.threshold ⟨a.lines, b.lines⟩ e e' = true := by
  obtain ⟨haligned, hapart, _⟩ := settledPatch_spec policy options a.lines b.lines
  rw [compare, compareLines_eq_tidy, Patch.tidy] at hfg
  have hwellFormed :=
    haligned.wellFormed_joinThin options.threshold ⟨a.lines, b.lines⟩ hapart
  have hthin := (Patch.joins_iff.mp hjoins).1
  have hnext : g.start₁ = f.stop₁ + 1 := by
    simp only [Patch.thinlySeparated, Bool.and_eq_true, beq_iff_eq] at hthin
    exact hthin.1.1.1
  obtain ⟨u, v, huv, ⟨hu₁, hu₂, hu⟩, hv₁, hv₂, hv⟩ :=
    Patch.WellFormedFrom.neighbours_trim hwellFormed (Nat.le_refl _) hfg hnext
  rw [← Patch.joins_congr hu₁ hu₂ hu hv₁ hv₂ hv] at hjoins
  generalize settledPatch policy options a.lines b.lines = p at haligned huv ⊢
  cases p with
  | nil => exact absurd huv.length_le (by simp [Patch.joinThin])
  | cons first later =>
    rw [Patch.joinThin, Patch.joinFrom_eq_coalesce] at huv
    obtain ⟨d, e, e', hinfix, hd₁, hd₂, he₁, he₂, hnot, hyes⟩ :=
      Patch.three_of_joins_coalesce haligned huv hjoins
    rw [Patch.joins_congr hu₁ hu₂ hu rfl rfl rfl] at hnot
    rw [hu₁] at hd₁
    rw [hu₂] at hd₂
    rw [hv₁] at he₁
    rw [hv₂] at he₂
    refine ⟨d, e, e', hinfix, ⟨hd₁, hd₂⟩, ⟨he₁, he₂⟩, ?_, hnot, hyes⟩
    rwa [Patch.thinlySeparated_congr hd₁ hd₂ he₁ he₂]

/-- Where a pair is left that is to become one, its second fragment was joined from two. -/
theorem three_of_joins_compare_deleted :
    let a := Document.ofText "first\n\nsecond\n\nend"
    let b := Document.ofText "\n\none\ntwo\nend"
    let f : Fragment := ⟨.span 0 1, .emptyAt 0⟩
    let g : Fragment := ⟨.span 2 4, .span 1 4⟩
    [f, g] <:+: compare .exact {} a b ∧ Patch.joins 3 ⟨a.lines, b.lines⟩ f g = true ∧
      ∃ d e e', [d, e, e'] <:+: settledPatch .exact {} a.lines b.lines ∧
        (d.stop₁ = f.stop₁ ∧ d.stop₂ = f.stop₂) ∧ (e.start₁ = g.start₁ ∧ e.start₂ = g.start₂) ∧
        Patch.thinlySeparated 3 ⟨a.lines, b.lines⟩ d e = true ∧
        Patch.joins 3 ⟨a.lines, b.lines⟩ f e = false ∧
        Patch.joins 3 ⟨a.lines, b.lines⟩ e e' = true := by
  intro a b f g
  have hfg : [f, g] <:+: compare .exact {} a b := ⟨[], [], compare_two_of_three.symm⟩
  have hjoins : Patch.joins 3 ⟨a.lines, b.lines⟩ f g = true := by
    decide +kernel
  exact ⟨hfg, hjoins, three_of_joins_compare .exact {} a b hfg hjoins⟩

/-- A comparison may leave neighbours that are to become one. -/
theorem compare_not_normal :
    ¬∀ (policy : Policy) (options : CompareOptions) (a b : Document),
      (compare policy options a b).IsChain fun f g =>
        Patch.joins options.threshold ⟨a.lines, b.lines⟩ f g = false := by
  intro h
  have hchain := h .exact {} (.ofText "first\n\nsecond\n\nend") (.ofText "\n\none\ntwo\nend")
  rw [compare_two_of_three, List.isChain_cons_cons] at hchain
  have hjoins : Patch.joins 3 ⟨(Document.ofText "first\n\nsecond\n\nend").lines,
      (Document.ofText "\n\none\ntwo\nend").lines⟩ ⟨.span 0 1, .emptyAt 0⟩
      ⟨.span 2 4, .span 1 4⟩ = true := by
    decide +kernel
  exact Bool.false_ne_true (hchain.1.symm.trans hjoins)

end Linewise
