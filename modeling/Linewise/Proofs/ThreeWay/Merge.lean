import Linewise.Proofs.ThreeWay.Regions
import Linewise.ThreeWay.Merge

/-!
# Merging is never refused

A merge passes the regions found one by one. Each of them holds a literal change,
so it is judged, and it lies within all three documents, so its lines can be read:
neither a merge nor a list of changes is ever refused, whatever the policy.
-/

namespace Linewise

/-- The region lies within all three documents, and a side differs there from the base. -/
structure HoldsChange (documents : ThreeSided Document) (r : Region) : Prop where
  bounds : ∀ side : ThreeSide, (r.get side).stop ≤ (documents.get side).lineCount
  differs : ∃ side, Differs documents r side

/-- The lines of a region on a side. -/
def sideLines (documents : ThreeSided Document) (r : Region) (side : Side) : List String :=
  (documents.get side.toThreeSide).linesIn (r.get side.toThreeSide)

namespace MergeState

variable {policy : Policy} {documents : ThreeSided Document} {r : Region} {s : MergeState}

/-- The state after a region that was judged `k`: the unchanged lines before it are copied, and then
it is recorded as a conflict or gives the lines of a side. -/
def pass (documents : ThreeSided Document) (s : MergeState) (r : Region) (k : Classification) :
    MergeState :=
  let lines := s.lines ++ documents.base.linesIn (.span s.baseLine r.base.start)
  if k.isConflict then
    ⟨lines, s.conflicts.push ⟨r, lines.size, documents.base.linesIn r.base,
      documents.left.linesIn r.left, documents.right.linesIn r.right⟩, r.base.stop⟩
  else
    ⟨lines ++ sideLines documents r (if k.leftChanged then .left else .right), s.conflicts,
      r.base.stop⟩

/-- After a region the base goes on at the region's end. -/
@[simp] theorem baseLine_pass (documents : ThreeSided Document) (s : MergeState) (r : Region)
    (k : Classification) : (s.pass documents r k).baseLine = r.base.stop := by
  unfold pass
  split <;> rfl

/-- A region that was judged and lies within all three documents is passed. -/
theorem step_eq {k : Classification} (hk : classify policy documents r = .ok k)
    (hr : ∀ side : ThreeSide, (r.get side).stop ≤ (documents.get side).lineCount)
    (hs : s.baseLine ≤ documents.base.lineCount) :
    step policy documents s r = .ok (s.pass documents r k) := by
  have hbase : r.base.stop ≤ documents.base.lineCount := hr .base
  have hleft : r.left.stop ≤ documents.left.lineCount := hr .left
  have hright : r.right.stop ≤ documents.right.lineCount := hr .right
  have hgap : (LineRange.span s.baseLine r.base.start).stop ≤ documents.base.lineCount := by
    have := r.base.start_le_stop
    exact Nat.max_le.mpr ⟨hs, by omega⟩
  have hchange : Change.ofRegion policy documents r = .ok ⟨r, k⟩ := by
    rw [Change.ofRegion, hk]
    rfl
  rw [step, hchange, Document.slice_of_le hgap, Document.slice_of_le hbase,
    Document.slice_of_le hleft, Document.slice_of_le hright, pass]
  cases hconflict : k.isConflict with
  | true =>
    simp only [Change.isConflict, hconflict, bind, Except.bind, if_true]
    rfl
  | false =>
    simp only [Change.isConflict, hconflict, bind, Except.bind, Bool.false_eq_true, if_false]
    cases k.leftChanged <;> rfl

/-- A step for a region that is judged is not refused. It passes the region, and either records a
conflict or takes, after the unchanged lines before the region, the lines of a side: the left one if
it differs from the base. -/
theorem step_spec {k : Classification} (hk : classify policy documents r = .ok k)
    (hr : ∀ side : ThreeSide, (r.get side).stop ≤ (documents.get side).lineCount)
    (hs : s.baseLine ≤ documents.base.lineCount) :
    ∃ s', step policy documents s r = .ok s' ∧ s'.baseLine = r.base.stop ∧
      (k.isConflict = true → ∃ c, s'.conflicts = s.conflicts.push c) ∧
      (k.isConflict = false → s'.conflicts = s.conflicts ∧
        s'.lines.toList = s.lines.toList ++
          (documents.base.linesIn (.span s.baseLine r.base.start) ++
            sideLines documents r (if k.leftChanged then .left else .right))) := by
  refine ⟨s.pass documents r k, step_eq hk hr hs, baseLine_pass documents s r k, ?_⟩
  unfold pass
  cases k.isConflict with
  | true => exact ⟨fun _ => ⟨_, rfl⟩, fun h => Bool.noConfusion h⟩
  | false =>
    refine ⟨fun h => Bool.noConfusion h, fun _ => ⟨rfl, ?_⟩⟩
    simp only [Bool.false_eq_true, if_false, Array.toList_appendList, List.append_assoc]

/-- All changes are passed, one after the other. -/
def passAll (documents : ThreeSided Document) (s : MergeState) (changes : List Change) :
    MergeState :=
  changes.foldl (fun s d => s.pass documents d.region d.classification) s

/-- Regions that hold a change are judged, and steps for them pass the changes found. -/
theorem exists_changes (policy : Policy) {regions : List Region}
    (hregions : ∀ r ∈ regions, HoldsChange documents r) :
    ∃ changes, regions.mapM (Change.ofRegion policy documents) = .ok changes ∧
      changes.map Change.region = regions ∧
      ∀ s : MergeState, s.baseLine ≤ documents.base.lineCount →
        regions.foldlM (step policy documents) s = .ok (s.passAll documents changes) ∧
          (s.passAll documents changes).baseLine ≤ documents.base.lineCount := by
  induction regions with
  | nil => exact ⟨[], rfl, rfl, fun _ hs => ⟨rfl, hs⟩⟩
  | cons r regions ih =>
    rw [List.forall_mem_cons] at hregions
    obtain ⟨⟨hbounds, hdiffers⟩, hregions⟩ := hregions
    obtain ⟨k, hk, _⟩ := classify_of_differs policy hbounds hdiffers
    obtain ⟨changes, hchanges, hmap, hrun⟩ := ih hregions
    refine ⟨⟨r, k⟩ :: changes, ?_, by rw [List.map_cons, hmap], ?_⟩
    · rw [List.mapM_cons, hchanges, Change.ofRegion, hk]
      rfl
    · intro s hs
      have hline : (s.pass documents r k).baseLine ≤ documents.base.lineCount := by
        rw [baseLine_pass]
        exact hbounds .base
      rw [List.foldlM_cons, step_eq hk hbounds hs]
      exact hrun _ hline

/-- Regions that hold a change are passed without refusal. -/
theorem run_ok (policy : Policy) {regions : List Region}
    (hregions : ∀ r ∈ regions, HoldsChange documents r)
    (hs : s.baseLine ≤ documents.base.lineCount) :
    ∃ s', regions.foldlM (step policy documents) s = .ok s' ∧
      s'.baseLine ≤ documents.base.lineCount := by
  obtain ⟨changes, _, _, hrun⟩ := exists_changes policy hregions
  exact ⟨_, hrun s hs⟩

/-- The last step is never refused. -/
theorem finish_ok (hs : s.baseLine ≤ documents.base.lineCount) :
    s.finish documents = .ok (if s.conflicts.isEmpty then
      .merged (joinLines (s.lines.toList ++
        documents.base.linesIn (.span s.baseLine documents.base.lineCount)))
      else .conflicts s.conflicts.toList) := by
  rw [finish, Document.slice_of_le (by rw [LineRange.span_stop hs])]
  simp only [bind, Except.bind, Array.toList_appendList]
  rfl

end MergeState

section Align

variable (policy : Policy) (options : CompareOptions) {documents : ThreeSided Document}

/-- When all regions found are passed, the last step gives what comes of the merge. -/
theorem merge_eq_finish {s : MergeState} (hrun : (align policy options documents).foldlM
    (MergeState.step policy documents) .initial = .ok s) :
    merge policy options documents = s.finish documents := by
  rw [merge, hrun]
  rfl

/-- Every region found holds a change. -/
theorem holdsChange_of_mem_align (hfree : ∀ side, (documents.get side).NewlineFree) :
    ∀ r ∈ align policy options documents, HoldsChange documents r :=
  fun _ hr => ⟨(not_run_of_mem_align hr).1, exists_differs_of_mem_align hfree hr⟩

/-- The changes in regions that hold one are all judged. -/
theorem mapM_ofRegion_ok {regions : List Region}
    (hregions : ∀ r ∈ regions, HoldsChange documents r) :
    ∃ changes, regions.mapM (Change.ofRegion policy documents) = .ok changes := by
  obtain ⟨changes, hchanges, _⟩ := MergeState.exists_changes policy hregions
  exact ⟨changes, hchanges⟩

/-- If no line holds a line feed, every region found lies within all three documents, holds a
literal change of a side and is judged, so that neither the list of changes nor a merge is refused.
-/
theorem align_never_refused (hfree : ∀ side, (documents.get side).NewlineFree) :
    (∀ r ∈ align policy options documents,
      (∀ side : ThreeSide, (r.get side).stop ≤ (documents.get side).lineCount) ∧
      (documents.left.contentIn r.left ≠ documents.base.contentIn r.base ∨
        documents.right.contentIn r.right ≠ documents.base.contentIn r.base) ∧
      ∃ k, classify policy documents r = .ok k) ∧
    (∃ changes, compareThreeWay policy options documents = .ok changes) ∧
    ∃ outcome, merge policy options documents = .ok outcome := by
  have hregions := holdsChange_of_mem_align policy options hfree
  refine ⟨fun r hr => ?_, mapM_ofRegion_ok policy hregions, ?_⟩
  · obtain ⟨hbounds, hdiffers⟩ := hregions r hr
    obtain ⟨k, hk, _⟩ := classify_of_differs policy hbounds hdiffers
    exact ⟨hbounds, Side.exists_iff.mp hdiffers, k, hk⟩
  · obtain ⟨s, hrun, hs⟩ := MergeState.run_ok policy hregions
      (show MergeState.initial.baseLine ≤ documents.base.lineCount from Nat.zero_le _)
    have hmerge : merge policy options documents = s.finish documents := by
      rw [merge, hrun]
      rfl
    exact ⟨_, hmerge.trans (MergeState.finish_ok hs)⟩

/-- Both sides change the only line of the base, each in its own way, and no list of changes and no
merge is refused. -/
theorem align_never_refused_conflict :
    let documents : ThreeSided Document := ⟨.ofText "x", .ofText "a", .ofText "y"⟩
    (∀ side, (documents.get side).NewlineFree) ∧
      (∃ changes, compareThreeWay .trim {} documents = .ok changes) ∧
      ∃ outcome, merge .trim {} documents = .ok outcome := by
  intro documents
  have hfree (side : ThreeSide) : (documents.get side).NewlineFree := by
    cases side <;> exact Document.newlineFree_ofText _
  exact ⟨hfree, (align_never_refused .trim {} hfree).2⟩

end Align

end Linewise
