import Linewise.Proofs.Comparison
import Linewise.Proofs.Text.Lines
import Linewise.Proofs.ThreeWay.Alignment
import Linewise.Proofs.ThreeWay.Classification

/-!
# Every region holds a literal change

The patches of both sides are tight, so the lines of a region are not all the same
on both sides as in the base. They are judged literally, and lines that are the
same agree under every policy: no region is refused, whatever the policy by which
it was found.
-/

namespace Linewise

namespace Document

variable {d e : Document} {r s : LineRange}

/-- Ranges with the same lines are a run. -/
theorem run_of_linesIn_eq (hr : r.stop ≤ d.lineCount) (hs : s.stop ≤ e.lineCount)
    (h : d.linesIn r = e.linesIn s) :
    Run (Agree ⟨d.lines, e.lines⟩) r.start s.start r.stop s.stop := by
  have hsize := congrArg List.length h
  rw [length_linesIn hr, length_linesIn hs] at hsize
  refine ⟨r.start_le_stop, s.start_le_stop, hsize, ?_⟩
  intro k hk
  have hline : d.lines[r.start + k]? = e.lines[s.start + k]? := by
    rw [← getElem?_linesIn hr hk, ← getElem?_linesIn hs (hsize ▸ hk), h]
  refine Agree.of_getElem?_eq ?_ hline
  unfold lineCount at hr
  simp only
  omega

/-- The ranges of a run have the same lines. -/
theorem linesIn_eq_of_run (hr : r.stop ≤ d.lineCount) (hs : s.stop ≤ e.lineCount)
    (h : Run (Agree ⟨d.lines, e.lines⟩) r.start s.start r.stop s.stop) :
    d.linesIn r = e.linesIn s := by
  have hsize : r.size = s.size := h.same_length
  apply List.ext_getElem?
  intro k
  by_cases hk : k < r.size
  · obtain ⟨line, hleft, hright⟩ := h.pairs k hk
    rw [getElem?_linesIn hr hk, getElem?_linesIn hs (hsize ▸ hk), hleft, hright]
  · rw [List.getElem?_eq_none (by rw [length_linesIn hr]; omega),
      List.getElem?_eq_none (by rw [length_linesIn hs]; omega)]

end Document

/-- The lines of the base and of a side that agree under a policy. -/
def SideAgrees (policy : Policy) (documents : ThreeSided Document) (side : Side) :
    Nat → Nat → Prop :=
  LinesAgree policy ⟨documents.base.lines, (documents.get side.toThreeSide).lines⟩

/-- The content of a region on a side differs from the base. -/
def Differs (documents : ThreeSided Document) (r : Region) (side : Side) : Prop :=
  (documents.get side.toThreeSide).contentIn (r.get side.toThreeSide) ≠
    documents.base.contentIn r.base

instance (documents : ThreeSided Document) (r : Region) (side : Side) :
    Decidable (Differs documents r side) :=
  inferInstanceAs (Decidable (_ ≠ _))

section Align

variable (policy : Policy) (options : CompareOptions) (documents : ThreeSided Document)

/-- The regions found cover the patches of both sides. -/
theorem covers_align :
    Covers (SideAgrees policy documents) documents.base.lineCount
      ⟨documents.left.lineCount, documents.right.lineCount⟩ 0 ⟨0, 0⟩
      ⟨compare policy options documents.base documents.left,
        compare policy options documents.base documents.right⟩
      (align policy options documents) := by
  refine covers_regionsFrom ⟨0, 0⟩ (fun side => ?_) (fun side => ?_)
  · cases side with
    | left => exact (compareLines_spec policy options _ _).1
    | right => exact (compareLines_spec policy options _ _).1
  · cases side <;> rfl

variable {policy options documents}

/-- Every region found lies within all three documents, and does not run on side by side with the
base on both sides. -/
theorem not_run_of_mem_align {r : Region} (hr : r ∈ align policy options documents) :
    (∀ side : ThreeSide, (r.get side).stop ≤ (documents.get side).lineCount) ∧
      ∃ side : Side, ¬Run (SideAgrees policy documents side) r.base.start
        (r.get side.toThreeSide).start r.base.stop (r.get side.toThreeSide).stop := by
  have htight (side : Side) : ((⟨compare policy options documents.base documents.left,
      compare policy options documents.base documents.right⟩ : TwoSided Patch).get side).Tight
        (SideAgrees policy documents side) := by
    cases side with
    | left => exact (compareLines_spec policy options _ _).2.2
    | right => exact (compareLines_spec policy options _ _).2.2
  obtain ⟨hbase, hsides, hdiffers⟩ := (covers_align policy options documents).not_run htight hr
  refine ⟨fun side => ?_, hdiffers⟩
  cases side with
  | left => exact hsides .left
  | base => exact hbase
  | right => exact hsides .right

/-- In every region found the content of a side differs literally from the base. -/
theorem exists_differs_of_mem_align (hfree : ∀ side, (documents.get side).NewlineFree) {r : Region}
    (hr : r ∈ align policy options documents) : ∃ side, Differs documents r side := by
  obtain ⟨hbounds, side, hnot⟩ := not_run_of_mem_align hr
  refine ⟨side, fun hsame => hnot ?_⟩
  have hlines := (Document.contentIn_eq_iff (hfree side.toThreeSide) (hfree .base)
    (hbounds side.toThreeSide) (hbounds .base)).mp hsame
  exact (Document.run_of_linesIn_eq (hbounds .base) (hbounds side.toThreeSide) hlines.symm).mono
    fun _ _ => LinesAgree.of_agree

end Align

/-- A region within all three documents has contents. -/
theorem Region.contents_of_bounds {documents : ThreeSided Document} {r : Region}
    (h : ∀ side : ThreeSide, (r.get side).stop ≤ (documents.get side).lineCount) :
    r.contents documents = .ok ⟨documents.left.contentIn r.left, documents.base.contentIn r.base,
      documents.right.contentIn r.right⟩ := by
  rw [Region.contents,
    Document.rangeContent_of_le (show r.left.stop ≤ documents.left.lineCount from h .left),
    Document.rangeContent_of_le (show r.base.stop ≤ documents.base.lineCount from h .base),
    Document.rangeContent_of_le (show r.right.stop ≤ documents.right.lineCount from h .right)]
  rfl

/-- A region within all three documents of which a side differs from the base is judged. -/
theorem classify_of_differs (policy : Policy) {documents : ThreeSided Document} {r : Region}
    (hbounds : ∀ side : ThreeSide, (r.get side).stop ≤ (documents.get side).lineCount)
    (hdiffers : ∃ side, Differs documents r side) :
    ∃ k, classify policy documents r = .ok k ∧
      (∀ side, k.changed side = true ↔ Differs documents r side) ∧
      (k.isConflict = true ↔ (∀ side, Differs documents r side) ∧
        Classification.sidesEqual policy (documents.left.contentIn r.left)
          (documents.right.contentIn r.right) = false) := by
  obtain ⟨k, hk, hleft, hright, hconflict⟩ := Classification.ofContents_spec policy
    (c := ⟨documents.left.contentIn r.left, documents.base.contentIn r.base,
      documents.right.contentIn r.right⟩) (Side.exists_iff.mp hdiffers)
  refine ⟨k, ?_, Side.forall_iff.mpr ⟨hleft, hright⟩, ?_⟩
  · rw [classify, Region.contents_of_bounds hbounds]
    exact hk
  · rw [hconflict, Side.forall_iff, and_assoc]
    rfl

end Linewise
