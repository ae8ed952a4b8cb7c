import Linewise.Proofs.Patch.Cheapest
import Linewise.Proofs.Patch.Matching
import Linewise.Proofs.Script.Shortest
import Linewise.Script.Anchored

/-!
# Anchored patches are aligned and tight

Anchors are as many as pairs of important lines with equal keys can be. So where
both documents run on side by side, the anchors in between are the pairs of the run
itself: these would otherwise be more. The gap before such an anchor is solved by a
shortest script, which has no fragment that starts a run to the end of the gap.
-/

namespace Linewise

open Patch

/-- From line `i` of the first document and line `j` of the second on, the pairs that lie inside a
run of `R`, with all others before or after it, are pairs of the run. -/
def StraightFrom (R : Nat → Nat → Prop) (i j : Nat) (pairs : List (Nat × Nat)) : Prop :=
  ∀ (before inside after : List (Nat × Nat)) (s₁ s₂ t₁ t₂ : Nat),
    pairs = before ++ (inside ++ after) → i ≤ s₁ → j ≤ s₂ →
    (∀ x ∈ before, x.1 < s₁ ∧ x.2 < s₂) →
    (∀ x ∈ inside, s₁ ≤ x.1 ∧ x.1 < t₁ ∧ s₂ ≤ x.2 ∧ x.2 < t₂) →
    (∀ x ∈ after, t₁ ≤ x.1 ∧ t₂ ≤ x.2) →
    Run R s₁ s₂ t₁ t₂ → ∀ x ∈ inside, x.1 - s₁ = x.2 - s₂

section Straight

variable {R : Nat → Nat → Prop} {i j : Nat} {pairs : List (Nat × Nat)}
  {indices₁ indices₂ : List Nat}
  {key₁ key₂ : Nat → Nat}

/-- After the first pair, straight pairs are straight. -/
theorem StraightFrom.tail {x : Nat × Nat} (h : StraightFrom R i j (x :: pairs)) (hi : i ≤ x.1)
    (hj : j ≤ x.2) : StraightFrom R (x.1 + 1) (x.2 + 1) pairs := by
  intro before inside after s₁ s₂ t₁ t₂ hpairs hs₁ hs₂ hbefore
  refine h (x :: before) inside after s₁ s₂ t₁ t₂ (by rw [hpairs, List.cons_append]) (by omega)
    (by omega) ?_
  intro y hy
  rcases List.mem_cons.mp hy with rfl | hy
  · omega
  · exact hbefore y hy

/-- The pairs of a diagonal of which the first line is one of the chosen ones. -/
def chosenDiagonal (indices₁ : List Nat) (i j count : Nat) : List (Nat × Nat) :=
  (diagonal i j count).filter (·.1 ∈ indices₁)

/-- Which pairs a diagonal has with a chosen first line. -/
theorem mem_chosenDiagonal {count : Nat} {x : Nat × Nat} :
    x ∈ chosenDiagonal indices₁ i j count ↔
      ∃ k < count, x = (i + k, j + k) ∧ i + k ∈ indices₁ := by
  rw [chosenDiagonal, List.mem_filter, mem_diagonal, decide_eq_true_eq]
  constructor
  · rintro ⟨⟨k, hk, rfl⟩, hx⟩
    exact ⟨k, hk, rfl, hx⟩
  · rintro ⟨k, hk, rfl, hx⟩
    exact ⟨⟨k, hk, rfl⟩, hx⟩

/-- The chosen pairs of a diagonal increase. -/
theorem increasing_chosenDiagonal (indices₁ : List Nat) (i j count : Nat) :
    Increasing (chosenDiagonal indices₁ i j count) :=
  (increasing_diagonal i j count).sublist List.filter_sublist

/-- Increasing pairs of chosen lines inside a run are its chosen pairs if they are no fewer. -/
theorem eq_chosenDiagonal {s₁ s₂ t₁ t₂ : Nat} (hrun : Run R s₁ s₂ t₁ t₂)
    (hboth : ∀ x y, R x y → (x ∈ indices₁ ↔ y ∈ indices₂)) (hpairs : Increasing pairs)
    (hmem : ∀ x ∈ pairs, x.1 ∈ indices₁ ∧ x.2 ∈ indices₂)
    (hinside : ∀ x ∈ pairs, s₁ ≤ x.1 ∧ x.1 < t₁ ∧ s₂ ≤ x.2 ∧ x.2 < t₂)
    (hlength : (chosenDiagonal indices₁ s₁ s₂ (t₁ - s₁)).length ≤ pairs.length) :
    pairs = chosenDiagonal indices₁ s₁ s₂ (t₁ - s₁) := by
  have hsame := hrun.same_length
  have hdiagonal := increasing_chosenDiagonal indices₁ s₁ s₂ (t₁ - s₁)
  have hfst := hpairs.sublist_fst (List.pairwise_map.mpr (hdiagonal.imp And.left)) fun x hx => by
    have := hinside x hx
    have hline : s₁ + (x.1 - s₁) = x.1 := by omega
    refine List.mem_map.mpr ⟨_, mem_chosenDiagonal.mpr ⟨x.1 - s₁, by omega, rfl, ?_⟩, hline⟩
    rw [hline]
    exact (hmem x hx).1
  have hsnd := hpairs.sublist_snd (List.pairwise_map.mpr (hdiagonal.imp And.right)) fun x hx => by
    have := hinside x hx
    have hline : s₂ + (x.2 - s₂) = x.2 := by omega
    refine List.mem_map.mpr ⟨_, mem_chosenDiagonal.mpr ⟨x.2 - s₂, by omega, rfl, ?_⟩, hline⟩
    refine (hboth _ _ (hrun.pairs (x.2 - s₂) (by omega))).mpr ?_
    rw [hline]
    exact (hmem x hx).2
  have hfst_eq := hfst.eq_of_length_le (by simpa using hlength)
  have hsnd_eq := hsnd.eq_of_length_le (by simpa using hlength)
  exact (List.zip_of_prod hfst_eq hsnd_eq).trans (List.zip_of_prod rfl rfl).symm

/-- Increasing pairs of equal keys are straight if there are as many as can be, and on a run either
both lines of a pair may be chosen or none. -/
theorem straightFrom_of_longest (horder₁ : indices₁.Pairwise (· < ·))
    (horder₂ : indices₂.Pairwise (· < ·)) (hboth : ∀ x y, R x y → (x ∈ indices₁ ↔ y ∈ indices₂))
    (hkeys : ∀ x y, R x y → key₁ x = key₂ y) (hpairs : Increasing pairs)
    (hmem : ∀ x ∈ pairs, x.1 ∈ indices₁ ∧ x.2 ∈ indices₂)
    (hequal : ∀ x ∈ pairs, key₁ x.1 = key₂ x.2)
    (hlength : pairs.length = commonLength (indices₁.map key₁) (indices₂.map key₂)) :
    StraightFrom R i j pairs := by
  rintro before inside after s₁ s₂ t₁ t₂ rfl _ _ hbefore hinside hafter hrun
  have hsame := hrun.same_length
  have hle₁ := hrun.le₁
  have hle₂ := hrun.le₂
  obtain ⟨hfirst, hrest, hcross⟩ := List.pairwise_append.mp hpairs
  obtain ⟨hinner, hlast, _⟩ := List.pairwise_append.mp hrest
  simp only [List.forall_mem_append] at hmem hequal hcross
  -- the pairs of the run in place of those inside it are increasing pairs of equal keys too
  have hother : Increasing (before ++ (chosenDiagonal indices₁ s₁ s₂ (t₁ - s₁) ++ after)) := by
    refine List.pairwise_append.mpr ⟨hfirst, List.pairwise_append.mpr
      ⟨increasing_chosenDiagonal _ _ _ _, hlast, fun x hx y hy => ?_⟩, fun x hx y hy => ?_⟩
    · obtain ⟨k, hk, rfl, _⟩ := mem_chosenDiagonal.mp hx
      have := hafter y hy
      simp only
      omega
    · rcases List.mem_append.mp hy with hy | hy
      · obtain ⟨k, hk, rfl, _⟩ := mem_chosenDiagonal.mp hy
        have := hbefore x hx
        simp only
        omega
      · exact (hcross x hx).2 y hy
  have hmost := hother.length_le_commonLength key₁ key₂ horder₁ horder₂ (by
    simp only [List.forall_mem_append]
    refine ⟨hmem.1, fun x hx => ?_, hmem.2.2⟩
    obtain ⟨k, hk, rfl, hchosen⟩ := mem_chosenDiagonal.mp hx
    exact ⟨hchosen, (hboth _ _ (hrun.pairs k hk)).mp hchosen⟩) (by
    simp only [List.forall_mem_append]
    refine ⟨hequal.1, fun x hx => ?_, hequal.2.2⟩
    obtain ⟨k, hk, rfl, _⟩ := mem_chosenDiagonal.mp hx
    exact hkeys _ _ (hrun.pairs k hk))
  rw [← hlength] at hmost
  simp only [List.length_append] at hmost
  intro x hx
  rw [eq_chosenDiagonal hrun hboth hinner hmem.2.1 hinside (by omega)] at hx
  obtain ⟨k, hk, rfl, _⟩ := mem_chosenDiagonal.mp hx
  simp only
  omega

end Straight

namespace Script

variable {keys₁ keys₂ : Array Nat} {i j i' j' threshold : Nat} {lines₁ lines₂ : Array String}
  {pairs : List (Nat × Nat)}

/-- A part of a sequence holds the entries of its indices. -/
theorem toList_extract_eq_map (keys : Array Nat) (hi : i' ≤ keys.size) :
    (keys.extract i i').toList = (List.range' i (i' - i)).map (keys.getD · 0) := by
  apply List.ext_getElem
  · simp only [Array.length_toList, Array.size_extract, List.length_map, List.length_range']
    omega
  · intro k hk hk'
    simp only [Array.length_toList, Array.size_extract] at hk
    simp only [Array.getElem_toList, Array.getElem_extract, List.getElem_map, List.getElem_range',
      Nat.one_mul]
    rw [Array.getD_eq_getD_getElem?, Array.getElem?_eq_getElem (by omega), Option.getD_some]

/-- Moving a patch does not change its cost. -/
theorem cost_offset (p : Patch) (d e : Nat) : (p.offset d e).cost = p.cost := by
  induction p with
  | nil => rfl
  | cons f rest ih =>
    have hf : (f.offset d e).cost = f.cost := by
      simp only [Fragment.cost, Fragment.offset, LineRange.size, LineRange.offset]
      omega
    rw [Patch.offset, List.map_cons, cost_cons, cost_cons, hf]
    exact congrArg (f.cost + ·) ih

/-- Agreeing entries are equal by their numbers. -/
theorem getD_eq_of_agree (h : Agree ⟨keys₁, keys₂⟩ i j) : keys₁.getD i 0 = keys₂.getD j 0 := by
  obtain ⟨z, hx, hy⟩ := h
  simp only at hx hy
  rw [Array.getD_eq_getD_getElem?, Array.getD_eq_getD_getElem?, hx, hy]

/-- Entries that agree in parts of two sequences agree in the sequences. -/
theorem agree_of_extract {x y : Nat}
    (h : Agree ⟨keys₁.extract i i', keys₂.extract j j'⟩ x y) :
    Agree ⟨keys₁, keys₂⟩ (x + i) (y + j) := by
  obtain ⟨hx, hy⟩ := h.lt_size
  obtain ⟨z, hleft, hright⟩ := h
  simp only [Array.size_extract] at hx hy
  simp only [Array.getElem?_extract, if_pos hx, if_pos hy] at hleft hright
  rw [Nat.add_comm x, Nat.add_comm y]
  exact ⟨z, hleft, hright⟩

/-- The patch of a gap is a cheapest one. -/
theorem cheapest_gapPatch (hi : i ≤ i') (hj : j ≤ j') (hn : i' ≤ keys₁.size)
    (hm : j' ≤ keys₂.size) :
    Cheapest (Agree ⟨keys₁, keys₂⟩) i j (gapPatch keys₁ keys₂ i j i' j') i' j' := by
  have hcost := cost_shortestPatch (keys₁.extract i i') (keys₂.extract j j')
  rw [toList_extract_eq_map keys₁ hn, toList_extract_eq_map keys₂ hm] at hcost
  have hsize₁ : (keys₁.extract i i').size = i' - i := by
    rw [Array.size_extract]
    omega
  have hsize₂ : (keys₂.extract j j').size = j' - j := by
    rw [Array.size_extract]
    omega
  rw [hsize₁, hsize₂] at hcost
  constructor
  · have haligned := aligned_shortestPatch (keys₁.extract i i') (keys₂.extract j j')
    have hshifted : (shortestPatch (keys₁.extract i i') (keys₂.extract j j')).Aligned
        (fun x y => Agree ⟨keys₁, keys₂⟩ (x + i) (y + j)) 0 0 (i' - i) (j' - j) := by
      rw [← hsize₁, ← hsize₂]
      exact haligned.mono fun x y => agree_of_extract
    have := hshifted.offset
    rwa [Nat.zero_add, Nat.zero_add, Nat.sub_add_cancel hi, Nat.sub_add_cancel hj] at this
  · intro q hq
    have hlength := hq.cost_add_length_matchedFrom
    have hmost := hq.increasing_matchedFrom.length_le_commonLength (keys₁.getD · 0)
      (keys₂.getD · 0) (List.pairwise_lt_range' (s := i) (n := i' - i))
      (List.pairwise_lt_range' (s := j) (n := j' - j)) (fun x hx => by
        have := hq.bounds_of_mem_matchedFrom hx
        simp only [List.mem_range'_1]
        omega) (fun x hx => getD_eq_of_agree (hq.rel_of_mem_matchedFrom hx))
    rw [gapPatch, cost_offset]
    omega

/-- From line `i` of the first document and line `j` of the second on, the pairs increase and pair
lines with equal keys. -/
structure AgreeingFrom (keys₁ keys₂ : Array Nat) (i j : Nat) (pairs : List (Nat × Nat)) :
    Prop where
  le_size₁ : i ≤ keys₁.size
  le_size₂ : j ≤ keys₂.size
  increasing : Increasing pairs
  mem : ∀ x ∈ pairs, i ≤ x.1 ∧ j ≤ x.2 ∧ Agree ⟨keys₁, keys₂⟩ x.1 x.2

namespace AgreeingFrom

variable {x : Nat × Nat} {rest : List (Nat × Nat)} {f g : Fragment}

/-- The pairs after the first one lie after it. -/
theorem tail (h : AgreeingFrom keys₁ keys₂ i j (x :: rest)) :
    AgreeingFrom keys₁ keys₂ (x.1 + 1) (x.2 + 1) rest := by
  obtain ⟨hlater, hrest⟩ := List.pairwise_cons.mp h.increasing
  obtain ⟨_, _, hagree⟩ := h.mem x List.mem_cons_self
  refine ⟨hagree.lt_size.1, hagree.lt_size.2, hrest, ?_⟩
  intro y hy
  exact ⟨(hlater y hy).1, (hlater y hy).2, (h.mem y (List.mem_cons_of_mem _ hy)).2.2⟩

/-- The first pair is a run of one line. -/
theorem run (h : AgreeingFrom keys₁ keys₂ i j (x :: rest)) :
    Run (Agree ⟨keys₁, keys₂⟩) x.1 x.2 (x.1 + 1) (x.2 + 1) :=
  Run.single (h.mem x List.mem_cons_self).2.2

/-- The gap before the first pair is solved by a cheapest patch. -/
theorem cheapest_first (h : AgreeingFrom keys₁ keys₂ i j (x :: rest)) :
    Cheapest (Agree ⟨keys₁, keys₂⟩) i j (gapPatch keys₁ keys₂ i j x.1 x.2) x.1 x.2 := by
  obtain ⟨hi, hj, hagree⟩ := h.mem x List.mem_cons_self
  exact cheapest_gapPatch hi hj (Nat.le_of_lt hagree.lt_size.1) (Nat.le_of_lt hagree.lt_size.2)

/-- Without pairs all that follows is one gap, solved by a cheapest patch. -/
theorem cheapest_last (h : AgreeingFrom keys₁ keys₂ i j []) :
    Cheapest (Agree ⟨keys₁, keys₂⟩) i j (gapPatches keys₁ keys₂ i j []) keys₁.size keys₂.size :=
  cheapest_gapPatch h.le_size₁ h.le_size₂ (Nat.le_refl _) (Nat.le_refl _)

/-- A patch of the gaps around such pairs is aligned. -/
theorem aligned (h : AgreeingFrom keys₁ keys₂ i j pairs) :
    (gapPatches keys₁ keys₂ i j pairs).Aligned (Agree ⟨keys₁, keys₂⟩) i j keys₁.size
      keys₂.size := by
  induction pairs generalizing i j with
  | nil => exact h.cheapest_last.aligned
  | cons x rest ih => exact h.cheapest_first.aligned.append ((ih h.tail).after_run h.run)

/-- The pairs around which gaps are solved stay matched. -/
theorem sublist_matchedFrom (h : AgreeingFrom keys₁ keys₂ i j pairs) :
    pairs.Sublist ((gapPatches keys₁ keys₂ i j pairs).matchedFrom i j keys₁.size keys₂.size) := by
  induction pairs generalizing i j with
  | nil => exact List.nil_sublist _
  | cons x rest ih =>
    have hafter := h.tail.aligned
    have hpair : diagonal x.1 x.2 (x.1 + 1 - x.1) = [x] := by
      rw [Nat.add_sub_cancel_left]
      rfl
    rw [gapPatches, h.cheapest_first.aligned.matchedFrom_append (hafter.after_run h.run),
      hafter.matchedFrom_of_run h.run, hpair]
    exact ((ih h.tail).cons_cons x).trans (List.sublist_append_right _ _)

/-- The pairs around which gaps are solved lie before or after each fragment. -/
theorem exists_split (h : AgreeingFrom keys₁ keys₂ i j pairs)
    (hg : g ∈ gapPatches keys₁ keys₂ i j pairs) :
    ∃ before after, pairs = before ++ after ∧
      (∀ x ∈ before, x.1 < g.start₁ ∧ x.2 < g.start₂) ∧
      ∀ x ∈ after, g.stop₁ ≤ x.1 ∧ g.stop₂ ≤ x.2 := by
  induction pairs generalizing i j with
  | nil => exact ⟨[], [], rfl, by simp, by simp⟩
  | cons x rest ih =>
    rcases List.mem_append.mp hg with hg | hg
    · have hbounds := h.cheapest_first.aligned.bounds hg
      refine ⟨[], x :: rest, rfl, by simp, List.forall_mem_cons.mpr ⟨by omega, ?_⟩⟩
      intro y hy
      have := h.tail.mem y hy
      omega
    · have hbounds := h.tail.aligned.bounds hg
      obtain ⟨before, after, rfl, hbefore, hafter⟩ := ih h.tail hg
      exact ⟨x :: before, after, rfl, List.forall_mem_cons.mpr ⟨by omega, hbefore⟩, hafter⟩

/-- A patch of the gaps around straight pairs is tight. -/
theorem tight (h : AgreeingFrom keys₁ keys₂ i j pairs)
    (hstraight : StraightFrom (Agree ⟨keys₁, keys₂⟩) i j pairs) :
    (gapPatches keys₁ keys₂ i j pairs).Tight (Agree ⟨keys₁, keys₂⟩) := by
  induction pairs generalizing i j with
  | nil => exact h.cheapest_last.tight
  | cons x rest ih =>
    obtain ⟨hi, hj, _⟩ := h.mem x List.mem_cons_self
    have hgap := h.cheapest_first
    refine tight_append.mpr ⟨hgap.tight, ih h.tail (hstraight.tail hi hj), ?_⟩
    intro f hf g hg hrun
    have hf' := hgap.aligned.bounds hf
    have hg' := h.tail.aligned.bounds hg
    have := f.start₁_le_stop₁
    have := f.start₂_le_stop₂
    have := g.start₁_le_stop₁
    have := g.start₂_le_stop₂
    have hlater := h.tail.mem
    obtain ⟨before, after, rfl, hbefore, hafter⟩ := h.tail.exists_split hg
    -- the pair after the gap lies inside the run, so the run leads from the fragment to it
    have hdiagonal := hstraight [] (x :: before) after f.start₁ f.start₂ g.stop₁ g.stop₂ rfl
      hf'.1 hf'.2.1 (by simp) (List.forall_mem_cons.mpr ⟨by omega, fun y hy => by
        have := hbefore y hy
        have := hlater y (List.mem_append_left _ hy)
        omega⟩) hafter hrun x List.mem_cons_self
    exact hgap.not_run_end hf (hrun.upTo (by omega) (by omega) hdiagonal (by omega))

end AgreeingFrom

/-- The gap between the ends of both documents is solved by their shortest patch. -/
theorem gapPatch_whole (keys₁ keys₂ : Array Nat) :
    gapPatch keys₁ keys₂ 0 0 keys₁.size keys₂.size = shortestPatch keys₁ keys₂ := by
  have hoffset (p : Patch) : p.offset 0 0 = p := List.map_id _
  rw [gapPatch, Array.extract_size, Array.extract_size, hoffset]

/-- The shortest patch of two sequences is cheapest. -/
theorem cheapest_shortestPatch (keys₁ keys₂ : Array Nat) :
    Cheapest (Agree ⟨keys₁, keys₂⟩) 0 0 (shortestPatch keys₁ keys₂) keys₁.size keys₂.size := by
  have hgap := cheapest_gapPatch (Nat.zero_le _) (Nat.zero_le _) (Nat.le_refl keys₁.size)
    (Nat.le_refl keys₂.size)
  rwa [gapPatch_whole] at hgap

/-- The shortest patch of two sequences is tight. -/
theorem tight_shortestPatch (keys₁ keys₂ : Array Nat) :
    (shortestPatch keys₁ keys₂).Tight (Agree ⟨keys₁, keys₂⟩) :=
  (cheapest_shortestPatch keys₁ keys₂).tight

/-- The important lines of a document come in order. -/
theorem pairwise_importantIndices (threshold : Nat) (lines : Array String) :
    (importantIndices threshold lines).toList.Pairwise (· < ·) := by
  rw [importantIndices, Array.toList_filter, Array.toList_range]
  exact List.pairwise_lt_range.sublist List.filter_sublist

/-- An important line exists and has enough visible characters. -/
theorem mem_importantIndices {lines : Array String} :
    i ∈ (importantIndices threshold lines).toList ↔
      ∃ count, lines[i]?.map Line.visibleCount = some count ∧ threshold ≤ count := by
  rw [importantIndices, Array.toList_filter, Array.toList_range, List.mem_filter, List.mem_range,
    Option.any_eq_true]
  constructor
  · rintro ⟨_, line, hline, hle⟩
    exact ⟨_, Option.map_eq_some_iff.mpr ⟨line, hline, rfl⟩, of_decide_eq_true hle⟩
  · rintro ⟨_, hcount, hle⟩
    obtain ⟨line, hline, rfl⟩ := Option.map_eq_some_iff.mp hcount
    exact ⟨(Array.getElem?_eq_some_iff.mp hline).1, line, hline, decide_eq_true hle⟩

/-- The indices of important lines are those of lines. -/
theorem lt_size_of_mem_importantIndices {lines : Array String}
    (h : i ∈ (importantIndices threshold lines).toList) : i < lines.size := by
  rw [importantIndices, Array.toList_filter, Array.toList_range, List.mem_filter,
    List.mem_range] at h
  exact h.1

/-- Entries of a list in order are in order. -/
theorem getD_lt_getD {indices : Array Nat} (horder : indices.toList.Pairwise (· < ·)) {k l : Nat}
    (hkl : k < l) (hl : l < indices.size) : indices.getD k 0 < indices.getD l 0 := by
  rw [Array.getD_eq_getD_getElem?, Array.getD_eq_getD_getElem?, Array.getElem?_eq_getElem hl,
    Array.getElem?_eq_getElem (Nat.lt_trans hkl hl), Option.getD_some, Option.getD_some]
  exact List.pairwise_iff_getElem.mp horder k l (by simpa using Nat.lt_trans hkl hl)
    (by simpa using hl) hkl

/-- An entry of an array is a member of it. -/
theorem getD_mem {indices : Array Nat} {k : Nat} (hk : k < indices.size) :
    indices.getD k 0 ∈ indices.toList := by
  rw [Array.getD_eq_getD_getElem?, Array.getElem?_eq_getElem hk, Option.getD_some]
  exact Array.getElem_mem_toList hk

/-- An entry looked up by its index is the entry at that index. -/
theorem getElem?_of_map {keys indices : Array Nat} {k z : Nat} (hk : indices.getD k 0 < keys.size)
    (h : (indices.map (keys.getD · 0))[k]? = some z) : keys[indices.getD k 0]? = some z := by
  rw [Array.getElem?_map] at h
  obtain ⟨index, hindex, rfl⟩ := Option.map_eq_some_iff.mp h
  rw [Array.getD_eq_getD_getElem?, hindex, Option.getD_some] at hk ⊢
  rw [Array.getD_eq_getD_getElem?, Array.getElem?_eq_getElem hk, Option.getD_some]

/-- Anchors increase, pair important lines with equal keys, and are as many as a longest common
subsequence of the important keys is long. -/
theorem anchors_spec (threshold : Nat) (hsize₁ : keys₁.size = lines₁.size)
    (hsize₂ : keys₂.size = lines₂.size) :
    Increasing (anchors threshold lines₁ lines₂ keys₁ keys₂) ∧
      (∀ x ∈ anchors threshold lines₁ lines₂ keys₁ keys₂,
        x.1 ∈ (importantIndices threshold lines₁).toList ∧
        x.2 ∈ (importantIndices threshold lines₂).toList ∧ Agree ⟨keys₁, keys₂⟩ x.1 x.2) ∧
      (anchors threshold lines₁ lines₂ keys₁ keys₂).length =
        commonLength ((importantIndices threshold lines₁).toList.map (keys₁.getD · 0))
          ((importantIndices threshold lines₂).toList.map (keys₂.getD · 0)) := by
  have horder₁ := pairwise_importantIndices threshold lines₁
  have horder₂ := pairwise_importantIndices threshold lines₂
  have hmem₁ (i : Nat) (hi : i ∈ (importantIndices threshold lines₁).toList) : i < keys₁.size :=
    hsize₁ ▸ lt_size_of_mem_importantIndices hi
  have hmem₂ (i : Nat) (hi : i ∈ (importantIndices threshold lines₂).toList) : i < keys₂.size :=
    hsize₂ ▸ lt_size_of_mem_importantIndices hi
  unfold anchors
  generalize importantIndices threshold lines₁ = indices₁ at *
  generalize importantIndices threshold lines₂ = indices₂ at *
  have haligned := aligned_shortestPatch (indices₁.map (keys₁.getD · 0))
    (indices₂.map (keys₂.getD · 0))
  have hcost := cost_shortestPatch (indices₁.map (keys₁.getD · 0))
    (indices₂.map (keys₂.getD · 0))
  simp only [Array.size_map, Array.toList_map] at haligned hcost
  have hbounds (x : Nat × Nat) (hx : x ∈ (shortestPatch (indices₁.map (keys₁.getD · 0))
      (indices₂.map (keys₂.getD · 0))).matchedPairs indices₁.size indices₂.size) :=
    haligned.bounds_of_mem_matchedFrom hx
  refine ⟨?_, ?_, ?_⟩
  · refine List.pairwise_map.mpr (haligned.increasing_matchedFrom.imp_of_mem ?_)
    intro x y hx hy hlt
    have := hbounds x hx
    have := hbounds y hy
    exact ⟨getD_lt_getD horder₁ hlt.1 (by omega), getD_lt_getD horder₂ hlt.2 (by omega)⟩
  · intro x hx
    obtain ⟨y, hy, rfl⟩ := List.mem_map.mp hx
    obtain ⟨_, hlt₁, _, hlt₂⟩ := hbounds y hy
    have hin₁ := getD_mem hlt₁
    have hin₂ := getD_mem hlt₂
    refine ⟨hin₁, hin₂, ?_⟩
    obtain ⟨z, hleft, hright⟩ := haligned.rel_of_mem_matchedFrom hy
    exact ⟨z, getElem?_of_map (hmem₁ _ hin₁) hleft, getElem?_of_map (hmem₂ _ hin₂) hright⟩
  · have := haligned.cost_add_length_matchedFrom
    rw [List.length_map, Patch.matchedPairs]
    omega

/-- Anchors increase and pair lines with equal keys. -/
theorem agreeingFrom_anchors (threshold : Nat) (hsize₁ : keys₁.size = lines₁.size)
    (hsize₂ : keys₂.size = lines₂.size) :
    AgreeingFrom keys₁ keys₂ 0 0 (anchors threshold lines₁ lines₂ keys₁ keys₂) := by
  obtain ⟨hpairs, hmem, _⟩ := anchors_spec threshold hsize₁ hsize₂
  exact ⟨Nat.zero_le _, Nat.zero_le _, hpairs,
    fun x hx => ⟨Nat.zero_le _, Nat.zero_le _, (hmem x hx).2.2⟩⟩

/-- The anchored patch is aligned in the equality of the keys. -/
theorem aligned_anchoredPatch (threshold : Nat) (hsize₁ : keys₁.size = lines₁.size)
    (hsize₂ : keys₂.size = lines₂.size) :
    (anchoredPatch threshold lines₁ lines₂ keys₁ keys₂).Aligned (Agree ⟨keys₁, keys₂⟩) 0 0
      keys₁.size keys₂.size :=
  (agreeingFrom_anchors threshold hsize₁ hsize₂).aligned

/-- The anchors stay matched in the anchored patch. -/
theorem anchors_sublist_matchedPairs (threshold : Nat) (hsize₁ : keys₁.size = lines₁.size)
    (hsize₂ : keys₂.size = lines₂.size) :
    (anchors threshold lines₁ lines₂ keys₁ keys₂).Sublist
      ((anchoredPatch threshold lines₁ lines₂ keys₁ keys₂).matchedPairs keys₁.size keys₂.size) :=
  (agreeingFrom_anchors threshold hsize₁ hsize₂).sublist_matchedFrom

/-- The anchored patch is tight if lines with equal keys have as many visible characters. -/
theorem tight_anchoredPatch (threshold : Nat) (hsize₁ : keys₁.size = lines₁.size)
    (hsize₂ : keys₂.size = lines₂.size)
    (hvisible : ∀ i j, Agree ⟨keys₁, keys₂⟩ i j →
      lines₁[i]?.map Line.visibleCount = lines₂[j]?.map Line.visibleCount) :
    (anchoredPatch threshold lines₁ lines₂ keys₁ keys₂).Tight (Agree ⟨keys₁, keys₂⟩) := by
  obtain ⟨hpairs, hmem, hlength⟩ := anchors_spec threshold hsize₁ hsize₂
  have hboth (i j : Nat) (h : Agree ⟨keys₁, keys₂⟩ i j) :
      i ∈ (importantIndices threshold lines₁).toList ↔
        j ∈ (importantIndices threshold lines₂).toList := by
    rw [mem_importantIndices, mem_importantIndices, hvisible i j h]
  apply (agreeingFrom_anchors threshold hsize₁ hsize₂).tight
  exact straightFrom_of_longest (pairwise_importantIndices _ _) (pairwise_importantIndices _ _)
    hboth (fun _ _ => getD_eq_of_agree) hpairs (fun x hx => ⟨(hmem x hx).1, (hmem x hx).2.1⟩)
    (fun x hx => getD_eq_of_agree (hmem x hx).2.2) hlength

end Script

end Linewise
