import Linewise.Proofs.Script.Anchored

/-!
# The gaps between anchors

Anchors cut both documents into gaps, and between two gaps one line stays matched. So
every fragment of an anchored patch lies in one gap, and what it changes there is as
little as can be. If the anchors are all pairs that a shortest script matches, or none,
the cut makes no difference.
-/

namespace Linewise.Script

open Patch

/-- Some lines of both documents, with no anchor among them. -/
structure Gap where
  /-- First line in the first document. -/
  start₁ : Nat
  /-- End in the first document. -/
  stop₁ : Nat
  /-- First line in the second document. -/
  start₂ : Nat
  /-- End in the second document. -/
  stop₂ : Nat
  deriving DecidableEq, Repr

/-- The fragment changes only lines of the gap. -/
def Gap.Contains (gap : Gap) (f : Fragment) : Prop :=
  gap.start₁ ≤ f.start₁ ∧ f.stop₁ ≤ gap.stop₁ ∧ gap.start₂ ≤ f.start₂ ∧ f.stop₂ ≤ gap.stop₂

/-- Whether a fragment lies in a gap can be decided. -/
instance (gap : Gap) : DecidablePred gap.Contains := fun f =>
  inferInstanceAs (Decidable (gap.start₁ ≤ f.start₁ ∧ f.stop₁ ≤ gap.stop₁ ∧
    gap.start₂ ≤ f.start₂ ∧ f.stop₂ ≤ gap.stop₂))

/-- The gaps before, between and after pairs, from line `i` of the first document and line `j` of
the second on, up to their ends `n` and `m`. -/
def gaps (i j : Nat) : List (Nat × Nat) → (n m : Nat) → List Gap
  | [], n, m => [⟨i, n, j, m⟩]
  | (p, q) :: rest, n, m => ⟨i, p, j, q⟩ :: gaps (p + 1) (q + 1) rest n m

variable {keys₁ keys₂ : Array Nat} {i j n m threshold : Nat} {lines₁ lines₂ : Array String}
  {pairs : List (Nat × Nat)} {gap : Gap} {f : Fragment}

namespace AgreeingFrom

/-- All gaps lie after the line from which they are taken. -/
theorem le_start₁ (h : AgreeingFrom keys₁ keys₂ i j pairs) (hgap : gap ∈ gaps i j pairs n m) :
    i ≤ gap.start₁ := by
  induction pairs generalizing i j with
  | nil =>
    obtain rfl := List.mem_singleton.mp hgap
    exact Nat.le_refl i
  | cons x rest ih =>
    obtain ⟨hi, _⟩ := h.mem x List.mem_cons_self
    rcases List.mem_cons.mp hgap with rfl | hgap
    · exact Nat.le_refl i
    · exact Nat.le_trans (Nat.le_succ_of_le hi) (ih h.tail hgap)

/-- In each gap the patch of all gaps is a cheapest one. -/
theorem cheapest_filter (h : AgreeingFrom keys₁ keys₂ i j pairs)
    (hgap : gap ∈ gaps i j pairs keys₁.size keys₂.size) :
    Cheapest (Agree ⟨keys₁, keys₂⟩) gap.start₁ gap.start₂
      ((gapPatches keys₁ keys₂ i j pairs).filter gap.Contains) gap.stop₁ gap.stop₂ := by
  have hinside {i j n m : Nat} {p : Patch} (hp : p.Aligned (Agree ⟨keys₁, keys₂⟩) i j n m) :
      p.filter (Gap.mk i n j m).Contains = p := by
    apply List.filter_eq_self.mpr
    intro f hf
    obtain ⟨hstart₁, hstart₂, hstop₁, hstop₂⟩ := hp.bounds hf
    exact decide_eq_true ⟨hstart₁, hstop₁, hstart₂, hstop₂⟩
  induction pairs generalizing i j with
  | nil =>
    obtain rfl := List.mem_singleton.mp hgap
    rw [hinside h.cheapest_last.aligned]
    exact h.cheapest_last
  | cons x rest ih =>
    have hfirst := h.cheapest_first
    rw [gapPatches, List.filter_append]
    rcases List.mem_cons.mp hgap with rfl | hgap
    · have hlater : (gapPatches keys₁ keys₂ (x.1 + 1) (x.2 + 1) rest).filter
          (Gap.mk i x.1 j x.2).Contains = [] := by
        apply List.filter_eq_nil_iff.mpr
        intro f hf hcontains
        obtain ⟨_, hstop₁, _⟩ := of_decide_eq_true hcontains
        have := h.tail.aligned.bounds hf
        have := f.start₁_le_stop₁
        simp only at hstop₁
        omega
      rw [hinside hfirst.aligned, hlater, List.append_nil]
      exact hfirst
    · have hearlier : (gapPatch keys₁ keys₂ i j x.1 x.2).filter gap.Contains = [] := by
        apply List.filter_eq_nil_iff.mpr
        intro f hf hcontains
        obtain ⟨hstart₁, _⟩ := of_decide_eq_true hcontains
        have := h.tail.le_start₁ hgap
        have := hfirst.aligned.bounds hf
        have := f.start₁_le_stop₁
        omega
      rw [hearlier, List.nil_append]
      exact ih h.tail hgap

/-- Every fragment of the patch of all gaps lies in one of them. -/
theorem exists_gap (h : AgreeingFrom keys₁ keys₂ i j pairs)
    (hf : f ∈ gapPatches keys₁ keys₂ i j pairs) :
    ∃ gap ∈ gaps i j pairs keys₁.size keys₂.size, gap.Contains f := by
  induction pairs generalizing i j with
  | nil =>
    obtain ⟨hstart₁, hstart₂, hstop₁, hstop₂⟩ := h.cheapest_last.aligned.bounds hf
    exact ⟨_, List.mem_singleton_self _, hstart₁, hstop₁, hstart₂, hstop₂⟩
  | cons x rest ih =>
    rcases List.mem_append.mp hf with hf | hf
    · obtain ⟨hstart₁, hstart₂, hstop₁, hstop₂⟩ := h.cheapest_first.aligned.bounds hf
      exact ⟨_, List.mem_cons_self, hstart₁, hstop₁, hstart₂, hstop₂⟩
    · obtain ⟨gap, hgap, hcontains⟩ := ih h.tail hf
      exact ⟨gap, List.mem_cons_of_mem _ hgap, hcontains⟩

end AgreeingFrom

/-- Moving a patch keeps its fragments apart. -/
theorem apart_offset {p : Patch} (h : p.Apart) (d e : Nat) : (p.offset d e).Apart := by
  apply (List.isChain_map _).mpr
  refine h.imp ?_
  intro f g hapart
  simp only [Fragment.touches, Fragment.offset, Fragment.start₁, Fragment.stop₁, Fragment.start₂,
    Fragment.stop₂, LineRange.offset, Bool.and_eq_false_iff, beq_eq_false_iff_ne] at hapart ⊢
  omega

/-- The fragments of a gap do not touch. -/
theorem apart_gapPatch (keys₁ keys₂ : Array Nat) (i j i' j' : Nat) :
    (gapPatch keys₁ keys₂ i j i' j').Apart :=
  apart_offset (wellFormed_iff.mp (wellFormed_shortestPatch _ _)).2 i j

/-- No fragments touch in the patch of all gaps. -/
theorem AgreeingFrom.apart (h : AgreeingFrom keys₁ keys₂ i j pairs) :
    (gapPatches keys₁ keys₂ i j pairs).Apart := by
  induction pairs generalizing i j with
  | nil => exact apart_gapPatch _ _ _ _ _ _
  | cons x rest ih =>
    refine List.isChain_append.mpr ⟨apart_gapPatch _ _ _ _ _ _, ih h.tail, ?_⟩
    -- the pair between the two gaps keeps their fragments apart
    intro f hf g hg
    have := h.cheapest_first.aligned.bounds (List.mem_of_mem_getLast? hf)
    have := h.tail.aligned.bounds (List.mem_of_mem_head? hg)
    simp only [Fragment.touches, Bool.and_eq_false_iff, beq_eq_false_iff_ne]
    omega

/-- The anchored patch is well formed. -/
theorem wellFormed_anchoredPatch (threshold : Nat) (hsize₁ : keys₁.size = lines₁.size)
    (hsize₂ : keys₂.size = lines₂.size) :
    (anchoredPatch threshold lines₁ lines₂ keys₁ keys₂).WellFormed keys₁.size keys₂.size :=
  wellFormed_iff.mpr
    ⟨(aligned_anchoredPatch threshold hsize₁ hsize₂).mono fun _ _ _ => trivial,
      (agreeingFrom_anchors threshold hsize₁ hsize₂).apart⟩

/-! ## Where anchors make no difference -/

/-- A well-formed patch that matches all pairs of the shortest patch, and only equal keys, is the
shortest patch. -/
theorem eq_shortestPatch {p : Patch} (hp : p.WellFormed keys₁.size keys₂.size)
    (haligned : p.Aligned (Agree ⟨keys₁, keys₂⟩) 0 0 keys₁.size keys₂.size)
    (hpairs : ((shortestPatch keys₁ keys₂).matchedPairs keys₁.size keys₂.size).Sublist
      (p.matchedPairs keys₁.size keys₂.size)) : p = shortestPatch keys₁ keys₂ := by
  have hshortest := cheapest_shortestPatch keys₁ keys₂
  have hcost := hshortest.cost_le p haligned
  have hall := haligned.cost_add_length_matchedFrom
  have hfewest := hshortest.aligned.cost_add_length_matchedFrom
  have hsame := hpairs.eq_of_length_le (by
    rw [matchedPairs, matchedPairs]
    omega)
  exact hp.eq_of_matchedFrom_eq (wellFormed_shortestPatch keys₁ keys₂) hsame.symm

/-- If every line is important, the important lines are all lines. -/
theorem importantIndices_eq_range {lines : Array String}
    (hall : ∀ line ∈ lines, threshold ≤ Line.visibleCount line) :
    importantIndices threshold lines = Array.range lines.size := by
  apply Array.filter_eq_self.mpr
  intro i hi
  have hlt := Array.mem_range.mp hi
  rw [Array.getElem?_eq_getElem hlt, Option.any_some]
  exact decide_eq_true (hall _ (Array.getElem_mem hlt))

/-- The line at the index of an important line is important. -/
theorem exists_important {lines : Array String}
    (hi : i ∈ (importantIndices threshold lines).toList) :
    ∃ line ∈ lines[i]?, threshold ≤ Line.visibleCount line := by
  obtain ⟨_, hcount, hle⟩ := mem_importantIndices.mp hi
  obtain ⟨line, hline, rfl⟩ := Option.map_eq_some_iff.mp hcount
  exact ⟨line, hline, hle⟩

/-- If no line is important, no index is that of an important line. -/
theorem notMem_importantIndices {lines : Array String}
    (hnone : ∀ line ∈ lines, Line.visibleCount line < threshold) :
    i ∉ (importantIndices threshold lines).toList := by
  intro hi
  obtain ⟨line, hline, hle⟩ := exists_important hi
  exact Nat.not_le.mpr (hnone line (Array.mem_of_getElem? hline)) hle

/-- An entry of the first numbers is its own index. -/
theorem getD_range (hi : i < n) : (Array.range n).getD i 0 = i := by
  rw [Array.getD_eq_getD_getElem?, Array.getElem?_range, if_pos hi, Option.getD_some]

/-- Looking up all indices gives the sequence back. -/
theorem map_getD_range (keys : Array Nat) :
    (Array.range keys.size).map (keys.getD · 0) = keys := by
  apply Array.ext
  · rw [Array.size_map, Array.size_range]
  · intro i _ hi
    rw [Array.getElem_map, Array.getElem_range, Array.getD_eq_getD_getElem?,
      Array.getElem?_eq_getElem hi, Option.getD_some]

/-- If every line is important, the anchors are the pairs that the shortest patch matches. -/
theorem anchors_eq_matchedPairs (hsize₁ : keys₁.size = lines₁.size)
    (hsize₂ : keys₂.size = lines₂.size)
    (hall₁ : ∀ line ∈ lines₁, threshold ≤ Line.visibleCount line)
    (hall₂ : ∀ line ∈ lines₂, threshold ≤ Line.visibleCount line) :
    anchors threshold lines₁ lines₂ keys₁ keys₂ =
      (shortestPatch keys₁ keys₂).matchedPairs keys₁.size keys₂.size := by
  dsimp only [anchors]
  rw [importantIndices_eq_range hall₁, importantIndices_eq_range hall₂, ← hsize₁, ← hsize₂,
    map_getD_range, map_getD_range, Array.size_range, Array.size_range]
  refine (List.map_congr_left ?_).trans (List.map_id _)
  intro x hx
  obtain ⟨_, hlt₁, _, hlt₂⟩ := (aligned_shortestPatch keys₁ keys₂).bounds_of_mem_matchedFrom hx
  exact Prod.ext (getD_range hlt₁) (getD_range hlt₂)

/-- If no line of one document is important, there are no anchors. -/
theorem anchors_eq_nil (hsize₁ : keys₁.size = lines₁.size) (hsize₂ : keys₂.size = lines₂.size)
    (hnone : (∀ line ∈ lines₁, Line.visibleCount line < threshold) ∨
      ∀ line ∈ lines₂, Line.visibleCount line < threshold) :
    anchors threshold lines₁ lines₂ keys₁ keys₂ = [] := by
  apply List.eq_nil_iff_forall_not_mem.mpr
  intro x hx
  obtain ⟨hline₁, hline₂, _⟩ := (anchors_spec threshold hsize₁ hsize₂).2.1 x hx
  rcases hnone with hnone | hnone
  · exact notMem_importantIndices hnone hline₁
  · exact notMem_importantIndices hnone hline₂

/-- The anchored patch of documents with as many keys as lines is well formed and matches only
lines with equal keys. It matches every anchor: anchors are pairs of important lines, as many as
these have in common. Each of its fragments lies in a gap around the anchors, and in each gap no
patch that matches only equal keys deletes and inserts fewer lines. If every line is important, or
none of one document, it is the shortest patch of the keys. -/
theorem anchoredPatch_solves_gaps (threshold : Nat) (hsize₁ : keys₁.size = lines₁.size)
    (hsize₂ : keys₂.size = lines₂.size) :
    let found := anchors threshold lines₁ lines₂ keys₁ keys₂
    let patch := anchoredPatch threshold lines₁ lines₂ keys₁ keys₂
    patch.WellFormed lines₁.size lines₂.size ∧
      (∀ x ∈ patch.matchedPairs lines₁.size lines₂.size, Agree ⟨keys₁, keys₂⟩ x.1 x.2) ∧
      (∀ x ∈ found, x ∈ patch.matchedPairs lines₁.size lines₂.size ∧
        (∃ line ∈ lines₁[x.1]?, threshold ≤ Line.visibleCount line) ∧
        ∃ line ∈ lines₂[x.2]?, threshold ≤ Line.visibleCount line) ∧
      IsLongestCommon found.length
        ((importantIndices threshold lines₁).toList.map (keys₁.getD · 0))
        ((importantIndices threshold lines₂).toList.map (keys₂.getD · 0)) ∧
      (∀ f ∈ patch, ∃ gap ∈ gaps 0 0 found lines₁.size lines₂.size, gap.Contains f) ∧
      (∀ gap ∈ gaps 0 0 found lines₁.size lines₂.size,
        Cheapest (Agree ⟨keys₁, keys₂⟩) gap.start₁ gap.start₂ (patch.filter gap.Contains)
          gap.stop₁ gap.stop₂) ∧
      ((∀ line ∈ lines₁, threshold ≤ Line.visibleCount line) ∧
          (∀ line ∈ lines₂, threshold ≤ Line.visibleCount line) ∨
        (∀ line ∈ lines₁, Line.visibleCount line < threshold) ∨
        (∀ line ∈ lines₂, Line.visibleCount line < threshold) →
          patch = shortestPatch keys₁ keys₂) := by
  intro found patch
  have hagreeing := agreeingFrom_anchors threshold hsize₁ hsize₂
  have haligned := aligned_anchoredPatch threshold hsize₁ hsize₂
  have hwell := wellFormed_anchoredPatch threshold hsize₁ hsize₂
  have hmatched := anchors_sublist_matchedPairs threshold hsize₁ hsize₂
  obtain ⟨_, hlines, hlength⟩ := anchors_spec threshold hsize₁ hsize₂
  rw [← hsize₁, ← hsize₂]
  refine ⟨hwell, ?_, ?_, ?_, ?_, ?_, ?_⟩
  · intro x hx
    exact haligned.rel_of_mem_matchedFrom hx
  · intro x hx
    obtain ⟨hline₁, hline₂, _⟩ := hlines x hx
    exact ⟨hmatched.subset hx, exists_important hline₁, exists_important hline₂⟩
  · rw [hlength]
    exact isLongestCommon_commonLength _ _
  · intro f hf
    exact hagreeing.exists_gap hf
  · intro gap hgap
    exact hagreeing.cheapest_filter hgap
  · rintro (⟨hall₁, hall₂⟩ | hnone)
    · rw [anchors_eq_matchedPairs hsize₁ hsize₂ hall₁ hall₂] at hmatched
      exact eq_shortestPatch hwell haligned hmatched
    · have hwhole := gapPatch_whole keys₁ keys₂
      rwa [← gapPatches, ← anchors_eq_nil hsize₁ hsize₂ hnone] at hwhole

/-- A lone bracket that moves past a call is no anchor if three visible characters are asked for, so
it goes in one gap and comes in another. If one is enough, every line is important. -/
theorem anchoredPatch_solves_gaps_bracket :
    let lines₁ := #["foo();", "]", "bar();"]
    let lines₂ := #["]", "foo();", "bar();"]
    let patch := anchoredPatch 3 lines₁ lines₂ #[0, 1, 2] #[1, 0, 2]
    patch = [⟨.emptyAt 0, .span 0 1⟩, ⟨.span 1 2, .emptyAt 2⟩] ∧
      patch.WellFormed 3 3 ∧
      gaps 0 0 (anchors 3 lines₁ lines₂ #[0, 1, 2] #[1, 0, 2]) 3 3 =
        [⟨0, 0, 0, 1⟩, ⟨1, 2, 2, 2⟩, ⟨3, 3, 3, 3⟩] ∧
      Cheapest (Agree ⟨#[0, 1, 2], #[1, 0, 2]⟩) 1 2 [⟨.span 1 2, .emptyAt 2⟩] 2 2 ∧
      anchoredPatch 1 lines₁ lines₂ #[0, 1, 2] #[1, 0, 2] =
        shortestPatch #[0, 1, 2] #[1, 0, 2] := by
  intro lines₁ lines₂ patch
  have hpatch : patch = [⟨.emptyAt 0, .span 0 1⟩, ⟨.span 1 2, .emptyAt 2⟩] := by
    dsimp only [patch, lines₁, lines₂]
    cbv
  have hgaps : gaps 0 0 (anchors 3 lines₁ lines₂ #[0, 1, 2] #[1, 0, 2]) 3 3 =
      [⟨0, 0, 0, 1⟩, ⟨1, 2, 2, 2⟩, ⟨3, 3, 3, 3⟩] := by
    dsimp only [lines₁, lines₂]
    cbv
  have hsize₁ : (#[0, 1, 2] : Array Nat).size = lines₁.size := rfl
  have hsize₂ : (#[1, 0, 2] : Array Nat).size = lines₂.size := rfl
  obtain ⟨hwell, _, _, _, _, hcheapest, _⟩ := anchoredPatch_solves_gaps 3 hsize₁ hsize₂
  obtain ⟨_, _, _, _, _, _, hsame⟩ := anchoredPatch_solves_gaps 1 hsize₁ hsize₂
  have hall := hsame (.inl ⟨by decide +kernel, by decide +kernel⟩)
  have hsecond := hcheapest ⟨1, 2, 2, 2⟩ (hgaps ▸ by decide)
  change Cheapest _ 1 2 (patch.filter _) 2 2 at hsecond
  rw [hpatch] at hsecond
  exact ⟨hpatch, hwell, hgaps, hsecond, hall⟩

end Linewise.Script
