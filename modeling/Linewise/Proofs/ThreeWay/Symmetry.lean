import Linewise.Proofs.ThreeWay.Closure
import Linewise.Proofs.ThreeWay.Exact
import Linewise.Proofs.ThreeWay.Tiling

/-!
# Left and right can be exchanged

Nothing in a three-way comparison favours a side: if left and right are exchanged, so
are the ranges of every region, the flags of every judgement and the lines of every
conflict. A merge takes the lines of the left side first, so it is symmetric only where
sides that are judged alike have the same lines, which is so if every character counts.
-/

namespace Linewise

/-! ## Judging a region -/

/-- Equality of texts does not depend on their order. -/
theorem Policy.textsEqual_comm (p : Policy) (a b : String) :
    p.textsEqual a b = p.textsEqual b a := by
  rw [Bool.eq_iff_iff]
  cases p <;> simp only [textsEqual, beq_iff_eq] <;> exact eq_comm

/-- Equality of contents does not depend on their order. -/
theorem Policy.contentEqual_comm (p : Policy) (a b : Option String) :
    p.contentEqual a b = p.contentEqual b a := by
  cases a with
  | none => cases b <;> rfl
  | some a =>
    cases b with
    | none => rfl
    | some b => exact p.textsEqual_comm a b

namespace Classification

/-- What left and right hold is compared without regard to their order. -/
theorem sidesEqual_comm (policy : Policy) (left right : Option String) :
    sidesEqual policy left right = sidesEqual policy right left := by
  rw [sidesEqual, sidesEqual, Policy.contentEqual_comm, policy.contentEqual_comm left]

/-- A change that both sides made is judged without regard to their order. -/
theorem ofBoth_swap (policy : Policy) (alike : RegionKind) (left right : Option String) :
    ofBoth policy alike right left = (ofBoth policy alike left right).swap := by
  rw [ofBoth, sidesEqual_comm]
  rfl

/-- Exchanging what left and right hold exchanges the flags of the judgement, if there is something
on some side. -/
theorem ofContents_swap (policy : Policy) {c : ThreeSided (Option String)}
    (h : ∃ side, c.get side ≠ none) :
    ofContents policy c.swap = (ofContents policy c).map swap := by
  obtain ⟨left, base, right⟩ := c
  cases base with
  | none =>
    cases left with
    | none =>
      cases right with
      | none =>
        obtain ⟨side, hside⟩ := h
        exact absurd (by cases side <;> rfl) hside
      | some right => rfl
    | some left =>
      cases right with
      | none => rfl
      | some right =>
        exact congrArg Except.ok (ofBoth_swap policy .inserted (some left) (some right))
  | some base =>
    change ofContents policy ⟨right, some base, left⟩ = _
    simp only [ofContents, Bool.and_comm right.isNone]
    by_cases hgone : (left.isNone && right.isNone) = true
    · rw [if_pos hgone, if_pos hgone]
      rfl
    rw [if_neg hgone, if_neg hgone]
    by_cases hleft : left = some base
    · by_cases hright : right = some base
      · rw [if_pos hleft, if_pos hright, if_pos hright, if_pos hleft]
        rfl
      · rw [if_neg hright, if_pos hleft, if_pos hleft, if_neg hright]
        rfl
    · by_cases hright : right = some base
      · rw [if_pos hright, if_neg hleft, if_neg hleft, if_pos hright]
        rfl
      · rw [if_neg hright, if_neg hleft, if_neg hleft, if_neg hright]
        exact congrArg Except.ok (ofBoth_swap policy .modified left right)

end Classification

section Changes

variable {policy : Policy} {documents : ThreeSided Document} {r : Region}

/-- Exchanging left and right exchanges the lines of a region. -/
theorem sideLines_swap (documents : ThreeSided Document) (r : Region) (side : Side) :
    sideLines documents.swap r.swap side = sideLines documents r side.other := by
  cases side <;> rfl

/-- A region lies within all three documents with left and right exchanged. -/
theorem Region.bounds_swap
    (h : ∀ side : ThreeSide, (r.get side).stop ≤ (documents.get side).lineCount) :
    ∀ side : ThreeSide, (r.swap.get side).stop ≤ (documents.swap.get side).lineCount := by
  intro side
  cases side with
  | left => exact h .right
  | base => exact h .base
  | right => exact h .left

/-- A region that is not empty has a line on some side. -/
theorem Region.exists_isEmpty_eq_false (h : r.isEmpty = false) :
    ∃ side, (r.get side).isEmpty = false := by
  by_contra hnone
  simp only [not_exists, Bool.not_eq_false] at hnone
  have hleft : r.left.isEmpty = true := hnone .left
  have hbase : r.base.isEmpty = true := hnone .base
  have hright : r.right.isEmpty = true := hnone .right
  rw [Region.isEmpty, hleft, hbase, hright] at h
  cases h

/-- A region that is not empty and lies within all three documents is judged alike with left and
right exchanged. -/
theorem classify_swap (policy : Policy)
    (hbounds : ∀ side : ThreeSide, (r.get side).stop ≤ (documents.get side).lineCount)
    (hlines : r.isEmpty = false) :
    classify policy documents.swap r.swap =
      (classify policy documents r).map Classification.swap := by
  rw [classify, classify, Region.contents_of_bounds hbounds,
    Region.contents_of_bounds (Region.bounds_swap hbounds)]
  refine Classification.ofContents_swap policy (c := ⟨documents.left.contentIn r.left,
    documents.base.contentIn r.base, documents.right.contentIn r.right⟩) ?_
  obtain ⟨side, hside⟩ := Region.exists_isEmpty_eq_false hlines
  refine ⟨side, fun hnone => ?_⟩
  have hcontent : (documents.get side).contentIn (r.get side) = none := by
    cases side <;> exact hnone
  rw [Document.contentIn, hside] at hcontent
  cases hcontent

/-- The change in such a region is the same with left and right exchanged. -/
theorem Change.ofRegion_swap (policy : Policy)
    (hbounds : ∀ side : ThreeSide, (r.get side).stop ≤ (documents.get side).lineCount)
    (hlines : r.isEmpty = false) :
    Change.ofRegion policy documents.swap r.swap =
      (Change.ofRegion policy documents r).map Change.swap := by
  rw [Change.ofRegion, Change.ofRegion, classify_swap policy hbounds hlines]
  cases classify policy documents r <;> rfl

/-- The changes in a list of such regions are the same with left and right exchanged. -/
theorem mapM_ofRegion_swap (policy : Policy) {regions : List Region}
    (hregions : ∀ r ∈ regions, r.isEmpty = false ∧
      ∀ side : ThreeSide, (r.get side).stop ≤ (documents.get side).lineCount) :
    (regions.map ThreeSided.swap).mapM (Change.ofRegion policy documents.swap) =
      (regions.mapM (Change.ofRegion policy documents)).map (List.map Change.swap) := by
  induction regions with
  | nil => rfl
  | cons r regions ih =>
    rw [List.forall_mem_cons] at hregions
    obtain ⟨⟨hlines, hbounds⟩, hregions⟩ := hregions
    rw [List.map_cons, List.mapM_cons, List.mapM_cons, ih hregions,
      Change.ofRegion_swap policy hbounds hlines]
    cases Change.ofRegion policy documents r with
    | error e => rfl
    | ok change => cases regions.mapM (Change.ofRegion policy documents) <;> rfl

end Changes

/-! ## Merging -/

/-- The conflict with left and right exchanged. -/
def Conflict.swap (c : Conflict) : Conflict :=
  ⟨c.region.swap, c.mergedLine, c.base, c.right, c.left⟩

/-- The outcome with left and right exchanged in every conflict. -/
def MergeOutcome.swap : MergeOutcome → MergeOutcome
  | .merged text => .merged text
  | .conflicts found => .conflicts (found.map Conflict.swap)

namespace MergeState

variable {documents : ThreeSided Document} {r : Region} {s : MergeState} {k : Classification}

/-- The state with left and right exchanged in every conflict. -/
def swap (s : MergeState) : MergeState := ⟨s.lines, s.conflicts.map Conflict.swap, s.baseLine⟩

/-- Passing a region is the same with left and right exchanged, if one of them changed and they have
the same lines in case both did without conflict. -/
theorem pass_swap (hsome : ∃ side, k.changed side = true)
    (hboth : k.isConflict = false → (∀ side, k.changed side = true) →
      sideLines documents r .left = sideLines documents r .right) :
    s.swap.pass documents.swap r.swap k.swap = (s.pass documents r k).swap := by
  unfold pass
  have hkind : k.swap.isConflict = k.isConflict := rfl
  rw [hkind]
  cases hconflict : k.isConflict with
  | true =>
    rw [if_pos rfl, if_pos rfl, swap, swap, Array.map_push]
    rfl
  | false =>
    have htaken : sideLines documents.swap r.swap (if k.swap.leftChanged then .left else .right) =
        sideLines documents r (if k.leftChanged then .left else .right) := by
      rw [sideLines_swap]
      change sideLines documents r (if k.rightChanged then Side.left else .right).other = _
      by_cases hleft : k.leftChanged = true
      · by_cases hright : k.rightChanged = true
        · rw [if_pos hleft, if_pos hright]
          exact (hboth hconflict (Side.forall_iff.mpr ⟨hleft, hright⟩)).symm
        · rw [if_pos hleft, if_neg hright]
          rfl
      · have hright : k.rightChanged = true := (Side.exists_iff.mp hsome).resolve_left hleft
        rw [if_neg hleft, if_pos hright]
        rfl
    rw [if_neg Bool.false_ne_true, if_neg Bool.false_ne_true, htaken]
    rfl

/-- A step when every character counts is the same with left and right exchanged. -/
theorem step_swap (hfree : ∀ side, (documents.get side).NewlineFree)
    (hr : HoldsChange documents r) (hlines : r.isEmpty = false)
    (hs : s.baseLine ≤ documents.base.lineCount) :
    ∃ s', step .exact documents s r = .ok s' ∧ s'.baseLine = r.base.stop ∧
      step .exact documents.swap s.swap r.swap = .ok s'.swap := by
  obtain ⟨k, hk, hchanged, hdisagree⟩ := classify_exact hr.bounds hr.differs
  have hline : (s.pass documents r k).baseLine = r.base.stop := by
    unfold pass
    cases k.isConflict <;> rfl
  refine ⟨s.pass documents r k, step_eq hk hr.bounds hs, hline, ?_⟩
  rw [← pass_swap]
  · refine step_eq ?_ (Region.bounds_swap hr.bounds) hs
    rw [classify_swap .exact hr.bounds hlines, hk]
    rfl
  · obtain ⟨side, hside⟩ := hr.differs
    exact ⟨side, (hchanged side).mpr hside⟩
  · intro hresolved hboth
    have hdiffer (side : Side) : Differs documents r side := (hchanged side).mp (hboth side)
    refine sideLines_eq hfree hr.bounds ?_ (hdiffer .left) (hdiffer .right)
    rw [← hdisagree, hresolved]
    exact Bool.false_ne_true

/-- A run when every character counts is the same with left and right exchanged. -/
theorem run_swap (hfree : ∀ side, (documents.get side).NewlineFree) {regions : List Region}
    (hregions : ∀ r ∈ regions, HoldsChange documents r ∧ r.isEmpty = false)
    (hs : s.baseLine ≤ documents.base.lineCount) :
    ∃ s', regions.foldlM (step .exact documents) s = .ok s' ∧
      s'.baseLine ≤ documents.base.lineCount ∧
      (regions.map ThreeSided.swap).foldlM (step .exact documents.swap) s.swap = .ok s'.swap := by
  induction regions generalizing s with
  | nil => exact ⟨s, rfl, hs, rfl⟩
  | cons r regions ih =>
    rw [List.forall_mem_cons] at hregions
    obtain ⟨⟨hr, hlines⟩, hregions⟩ := hregions
    obtain ⟨s₁, hstep, hline, hswapped⟩ := step_swap hfree hr hlines hs
    rw [List.map_cons, List.foldlM_cons, List.foldlM_cons, hstep, hswapped]
    exact ih hregions (hline ▸ hr.bounds .base)

/-- The last step is the same with left and right exchanged. -/
theorem finish_swap (documents : ThreeSided Document) (s : MergeState) :
    s.swap.finish documents.swap = (s.finish documents).map MergeOutcome.swap := by
  have hslice : documents.swap.base.slice (.span s.swap.baseLine documents.swap.base.lineCount) =
      documents.base.slice (.span s.baseLine documents.base.lineCount) := rfl
  have hnone : s.swap.conflicts.isEmpty = s.conflicts.isEmpty := by
    simp only [swap, Array.isEmpty, Array.size_map]
  have hfound : s.swap.conflicts.toList = s.conflicts.toList.map Conflict.swap := Array.toList_map
  rw [finish, finish, hslice, hnone, hfound]
  cases documents.base.slice (.span s.baseLine documents.base.lineCount) with
  | error e => rfl
  | ok unchanged => cases s.conflicts.isEmpty <;> rfl

end MergeState

section Align

variable (policy : Policy) (options : CompareOptions) {documents : ThreeSided Document}

/-- The list of changes is the same with left and right exchanged. -/
theorem compareThreeWay_swap (documents : ThreeSided Document) :
    compareThreeWay policy options documents.swap =
      (compareThreeWay policy options documents).map (List.map Change.swap) := by
  rw [compareThreeWay, align_swap]
  exact mapM_ofRegion_swap policy fun r hr =>
    ⟨isEmpty_eq_false_of_mem_align hr, (not_run_of_mem_align hr).1⟩

/-- If every character counts and no line holds a line feed, a merge gives the same with left and
right exchanged. -/
theorem merge_swap (hfree : ∀ side, (documents.get side).NewlineFree) :
    ∃ outcome, merge .exact options documents = .ok outcome ∧
      merge .exact options documents.swap = .ok outcome.swap := by
  obtain ⟨s, hrun, hs, hswapped⟩ := MergeState.run_swap hfree
    (fun r hr => ⟨holdsChange_of_mem_align .exact options hfree r hr,
      isEmpty_eq_false_of_mem_align hr⟩)
    (show MergeState.initial.baseLine ≤ documents.base.lineCount from Nat.zero_le _)
  have hinitial : MergeState.initial.swap = .initial := by
    rw [MergeState.swap, MergeState.initial, Array.map_empty]
  rw [hinitial, ← align_swap] at hswapped
  have hmerge := merge_eq_finish .exact options hrun
  have hmergeSwapped := merge_eq_finish .exact options hswapped
  rw [s.finish_swap documents, ← hmerge] at hmergeSwapped
  rw [MergeState.finish_ok hs] at hmerge
  rw [hmerge] at hmergeSwapped
  exact ⟨_, hmerge, hmergeSwapped⟩

end Align

/-- Exchanging left and right exchanges the ranges of every region found, and the ranges and flags
of every change: the same requests are refused, and the kinds of change are the same. If every
character counts and no line holds a line feed, neither merge is refused, and both give the same
text, or the same conflicts with the ranges and lines of left and right exchanged. -/
theorem threeWay_symmetric (policy : Policy) (options : CompareOptions)
    (documents : ThreeSided Document) :
    align policy options documents.swap =
        (align policy options documents).map ThreeSided.swap ∧
      compareThreeWay policy options documents.swap =
        (compareThreeWay policy options documents).map (List.map Change.swap) ∧
      ((∀ side, (documents.get side).NewlineFree) →
        ∃ outcome, merge .exact options documents = .ok outcome ∧
          merge .exact options documents.swap = .ok outcome.swap) :=
  ⟨align_swap policy options documents, compareThreeWay_swap policy options documents,
    merge_swap options⟩

/-- Each side inserted a line of its own in the same place, and both deleted the last one. -/
theorem threeWay_symmetric_inserted :
    let documents : ThreeSided Document :=
      ⟨.ofText "a\nx\nb", .ofText "a\nb\nc", .ofText "a\ny\nb"⟩
    (∀ side, (documents.get side).NewlineFree) ∧
      ∃ outcome, merge .exact {} documents = .ok outcome ∧
        merge .exact {} documents.swap = .ok outcome.swap := by
  intro documents
  have hfree (side : ThreeSide) : (documents.get side).NewlineFree := by
    cases side <;> exact Document.newlineFree_ofText _
  exact ⟨hfree, (threeWay_symmetric .exact {} documents).2.2 hfree⟩

end Linewise
