import Linewise.Proofs.ThreeWay.Merge
import Linewise.Proofs.ThreeWay.Tiling
import Linewise.Proofs.Unchanged

/-!
# Merging a change that nothing opposes

A side is unopposed in a region if the other side either left the base alone there or
holds the same. Where a side is unopposed in every region, a merge has no conflicts and
gives that side's lines: literally in the regions, and from the base, so only up to the
policy, everywhere else. This is so if one side alone changed the base, and if both
made the same document of it.
-/

namespace Linewise

/-- Each side that differs from the base in the region holds the same there as the given one. -/
def Unopposed (documents : ThreeSided Document) (r : Region) (side : Side) : Prop :=
  ∀ other, Differs documents r other →
    (documents.get other.toThreeSide).contentIn (r.get other.toThreeSide) =
      (documents.get side.toThreeSide).contentIn (r.get side.toThreeSide)

namespace Document

variable {policy : Policy} {d e : Document} {r s : LineRange} {i j : Nat}

/-- The lines of a range inside a document are a window of all its lines. -/
theorem linesIn_eq_window (hr : r.stop ≤ d.lineCount) :
    d.linesIn r = Patch.window d.lines r.start r.stop := by
  rw [linesIn, Patch.window, if_pos ⟨r.start_le_stop, hr⟩]

/-- Lines up to `j` and lines from there on make up the lines from `i` on. -/
theorem drop_eq_linesIn_append (hij : i ≤ j) (hj : j ≤ d.lineCount) :
    d.lines.toList.drop i = d.linesIn (.span i j) ++ d.lines.toList.drop j := by
  have hspan := LineRange.span_stop hij
  rw [linesIn_eq_window (by rwa [hspan]), hspan]
  exact Patch.drop_eq_window_append hij hj

/-- There is no line after the last one. -/
theorem drop_lineCount (d : Document) : d.lines.toList.drop d.lineCount = [] :=
  List.drop_of_length_le (Nat.le_of_eq Array.length_toList)

/-- The lines of a run are equal one by one. -/
theorem forall₂_linesIn_of_run (hr : r.stop ≤ d.lineCount) (hs : s.stop ≤ e.lineCount)
    (h : Run (LinesAgree policy ⟨d.lines, e.lines⟩) r.start s.start r.stop s.stop) :
    List.Forall₂ (fun x y => policy.linesEqual x y = true) (d.linesIn r) (e.linesIn s) := by
  rw [linesIn_eq_window hr, linesIn_eq_window hs]
  refine Patch.forall₂_window_of_run ?_ h hr hs
  rintro i j hi hj ⟨x, y, hx, hy, hequal⟩
  rw [Array.getElem?_eq_getElem hi, Option.some.injEq] at hx
  rw [Array.getElem?_eq_getElem hj, Option.some.injEq] at hy
  rwa [hx, hy]

end Document

/-! ## Passing unopposed regions -/

namespace MergeState

variable {policy : Policy} {documents : ThreeSided Document} {r : Region} {s : MergeState}
  {side : Side}

/-- A step for a region in which a side is unopposed takes the lines of that side. -/
theorem step_unopposed (policy : Policy) (hfree : ∀ side, (documents.get side).NewlineFree)
    (hr : HoldsChange documents r) (hside : Unopposed documents r side)
    (hs : s.baseLine ≤ documents.base.lineCount) :
    ∃ s', step policy documents s r = .ok s' ∧ s'.baseLine = r.base.stop ∧
      s'.conflicts = s.conflicts ∧ s'.lines.toList = s.lines.toList ++
        (documents.base.linesIn (.span s.baseLine r.base.start) ++
          sideLines documents r side) := by
  obtain ⟨k, hk, hchanged, hconflict⟩ := classify_of_differs policy hr.bounds hr.differs
  obtain ⟨s', hstep, hline, _, htaken⟩ := step_spec hk hr.bounds hs
  have hlines (other : Side) (hother : Differs documents r other) :
      sideLines documents r other = sideLines documents r side :=
    (Document.contentIn_eq_iff (hfree _) (hfree _) (hr.bounds _) (hr.bounds _)).mp
      (hside other hother)
  have hresolved : k.isConflict = false := by
    by_contra hopposed
    obtain ⟨hboth, hunequal⟩ := hconflict.mp (by simpa using hopposed)
    have hleft : documents.left.contentIn r.left = _ := hside .left (hboth .left)
    have hright : documents.right.contentIn r.right = _ := hside .right (hboth .right)
    rw [hleft, ← hright] at hunequal
    exact Bool.noConfusion (hunequal.symm.trans (Classification.sidesEqual_self policy _))
  obtain ⟨hsame, hall⟩ := htaken hresolved
  refine ⟨s', hstep, hline, hsame, ?_⟩
  rw [hall]
  by_cases hleft : k.leftChanged = true
  · rw [if_pos hleft, hlines .left ((hchanged .left).mp hleft)]
  · have hnotLeft : ¬Differs documents r .left := fun h => hleft ((hchanged .left).mpr h)
    have hright := (Side.exists_iff.mp hr.differs).resolve_left hnotLeft
    rw [if_neg hleft, hlines .right hright]

/-- Passing regions in which a side is unopposed records no conflict, and the merged lines are equal
to those of the side one by one: in the regions they are its lines, and outside they are lines of
the base that agree with them. -/
theorem run_unopposed {gap i : Nat} {here : TwoSided Nat} {regions : List Region}
    (hfree : ∀ side, (documents.get side).NewlineFree)
    (hregions : ∀ r ∈ regions, HoldsChange documents r ∧ Unopposed documents r side)
    (hagree : AgreeOutside policy documents gap i here regions) (hline : s.baseLine = i)
    (hs : s.baseLine ≤ documents.base.lineCount) :
    ∃ s', regions.foldlM (step policy documents) s = .ok s' ∧ s'.conflicts = s.conflicts ∧
      s'.baseLine ≤ documents.base.lineCount ∧ ∃ later,
        s'.lines.toList ++ documents.base.linesIn (.span s'.baseLine documents.base.lineCount) =
          s.lines.toList ++ later ∧
        List.Forall₂ (fun x y => policy.linesEqual x y = true) later
          ((documents.get side.toThreeSide).lines.toList.drop (here.get side)) := by
  have hspan {i j n : Nat} (hij : i ≤ j) (hj : j ≤ n) : (LineRange.span i j).stop ≤ n := by
    rwa [LineRange.span_stop hij]
  induction regions generalizing gap i here s with
  | nil =>
    have hrun := hagree side
    have hend := Document.drop_eq_linesIn_append hrun.le₂ (Nat.le_refl _)
    rw [Document.drop_lineCount, List.append_nil] at hend
    refine ⟨s, rfl, rfl, hs, _, rfl, ?_⟩
    rw [hend, hline]
    refine Document.forall₂_linesIn_of_run (hspan hrun.le₁ (Nat.le_refl _))
      (hspan hrun.le₂ (Nat.le_refl _)) ?_
    rwa [LineRange.span_stop hrun.le₁, LineRange.span_stop hrun.le₂]
  | cons r regions ih =>
    rw [List.forall_mem_cons] at hregions
    obtain ⟨⟨hr, hside⟩, hregions⟩ := hregions
    obtain ⟨⟨_, hsides⟩, hagree⟩ := hagree
    obtain ⟨_, hrun⟩ := hsides side
    obtain ⟨s₁, hstep, hline₁, hsame₁, hlines₁⟩ := step_unopposed policy hfree hr hside hs
    obtain ⟨s', hfold, hsame, hs', later, hall, hlater⟩ :=
      ih hregions hagree hline₁ (hline₁ ▸ hr.bounds .base)
    refine ⟨s', by rw [List.foldlM_cons, hstep]; exact hfold, hsame.trans hsame₁, hs',
      documents.base.linesIn (.span s.baseLine r.base.start) ++
        (sideLines documents r side ++ later), ?_, ?_⟩
    · rw [hall, hlines₁]
      simp only [List.append_assoc]
    · have hbase : r.base.stop ≤ documents.base.lineCount := hr.bounds .base
      have hstop := hr.bounds side.toThreeSide
      have hbaseBlock := r.base.start_le_stop
      have hblock := (r.get side.toThreeSide).start_le_stop
      have hrange : LineRange.span (r.get side.toThreeSide).start (r.get side.toThreeSide).stop =
          r.get side.toThreeSide := LineRange.eq_of_bounds rfl (LineRange.span_stop hblock)
      rw [Document.drop_eq_linesIn_append hrun.le₂ (Nat.le_trans hblock hstop),
        Document.drop_eq_linesIn_append hblock hstop, hrange]
      refine List.rel_append ?_ (List.rel_append ?_ ?_)
      · rw [hline]
        refine Document.forall₂_linesIn_of_run (hspan hrun.le₁ (Nat.le_trans hbaseBlock hbase))
          (hspan hrun.le₂ (Nat.le_trans hblock hstop)) ?_
        rwa [LineRange.span_stop hrun.le₁, LineRange.span_stop hrun.le₂]
      · exact List.forall₂_same.mpr fun line _ => policy.linesEqual_refl line
      · cases side <;> exact hlater

end MergeState

section Align

variable {policy : Policy} {options : CompareOptions} {documents : ThreeSided Document}
  {side : Side} {r : Region}

/-- If a side is unopposed in every region found, a merge gives lines that are equal to those of the
side one by one. -/
theorem merge_of_unopposed (side : Side) (hfree : ∀ side, (documents.get side).NewlineFree)
    (h : ∀ r ∈ align policy options documents, Unopposed documents r side) :
    ∃ lines, merge policy options documents = .ok (.merged (joinLines lines)) ∧
      List.Forall₂ (fun x y => policy.linesEqual x y = true) lines
        (documents.get side.toThreeSide).lines.toList := by
  have hagree : AgreeOutside policy documents 0 0 ⟨0, 0⟩ (align policy options documents) :=
    (covers_align policy options documents).agreeOutside (separated_align policy options documents)
      fun _ _ => Nat.zero_le _
  obtain ⟨s, hrun, hnone, hs, lines, hall, hlines⟩ := MergeState.run_unopposed hfree
    (fun r hr => ⟨holdsChange_of_mem_align policy options hfree r hr, h r hr⟩) hagree
    (show MergeState.initial.baseLine = 0 from rfl) (Nat.zero_le _)
  have hempty : s.conflicts.isEmpty = true := by
    rw [hnone]
    rfl
  refine ⟨lines, ?_, ?_⟩
  · rw [merge_eq_finish policy options hrun, MergeState.finish_ok hs, if_pos hempty, hall]
    rfl
  · cases side <;> exact hlines

/-- If a side is unopposed in every region found and every character counts, a merge gives the text
of the side. -/
theorem merge_exact_of_unopposed (side : Side) (hfree : ∀ side, (documents.get side).NewlineFree)
    (h : ∀ r ∈ align .exact options documents, Unopposed documents r side) :
    merge .exact options documents = .ok (.merged (documents.get side.toThreeSide).text) := by
  obtain ⟨lines, hmerge, hlines⟩ := merge_of_unopposed side hfree h
  rw [hmerge, eq_of_forall₂_exact hlines]
  rfl

/-! ## One change against the base -/

/-- Each bound of a region found on a side is where the fragments of that side put it. -/
theorem isMovedBy_of_mem_align (hr : r ∈ align policy options documents) (side : Side) :
    r.IsMovedBy side
      (compare policy options documents.base (documents.get side.toThreeSide)) := by
  have hcovers := covers_align policy options documents
  have hseparated := separated_align policy options documents
  have hnone : ∀ f ∈ ([] : Patch), ∀ r ∈ align policy options documents, f.stop₁ < r.base.start :=
    fun f hf => absurd hf List.not_mem_nil
  cases side with
  | left => exact hcovers.isMovedBy [] hseparated hnone rfl r hr
  | right => exact hcovers.isMovedBy [] hseparated hnone rfl r hr

/-- Where a side has no fragments, the range of a region is that in the base. -/
theorem Region.IsMovedBy.eq_base (h : r.IsMovedBy side []) : r.get side.toThreeSide = r.base := by
  obtain ⟨hstart, hstop⟩ := h
  rw [Patch.growthBefore, List.filter_nil, Patch.growth_nil] at hstart hstop
  exact LineRange.eq_of_bounds (by omega) (by omega)

/-- Sides with the same fragments have the same range in a region. -/
theorem Region.IsMovedBy.eq {side' : Side} {p : Patch} (h : r.IsMovedBy side p)
    (h' : r.IsMovedBy side' p) : r.get side.toThreeSide = r.get side'.toThreeSide := by
  obtain ⟨hstart, hstop⟩ := h
  obtain ⟨hstart', hstop'⟩ := h'
  exact LineRange.eq_of_bounds (by omega) (by omega)

/-- A side that holds the document of the base does not differ from it in any region found. -/
theorem not_differs_of_eq_base (hr : r ∈ align policy options documents)
    (h : documents.get side.toThreeSide = documents.base) : ¬Differs documents r side := by
  have hmoved := isMovedBy_of_mem_align hr side
  rw [h, compare_self] at hmoved
  rw [Differs, hmoved.eq_base, h, not_not]

/-- A side is unopposed if the other one holds the document of the base. -/
theorem unopposed_of_other_eq_base (hr : r ∈ align policy options documents)
    (h : documents.get side.other.toThreeSide = documents.base) : Unopposed documents r side := by
  intro other hother
  by_cases hside : other = side
  · rw [hside]
  · have hother' : other = side.other := by
      cases other <;> cases side <;> first | rfl | exact absurd rfl hside
    rw [hother'] at hother
    exact absurd hother (not_differs_of_eq_base hr h)

/-- A side is unopposed if both sides hold the same document. -/
theorem unopposed_of_left_eq_right (hr : r ∈ align policy options documents)
    (h : documents.left = documents.right) : Unopposed documents r .left := by
  intro other _
  have hleft := isMovedBy_of_mem_align hr .left
  have hright := isMovedBy_of_mem_align hr .right
  change r.IsMovedBy .left (compare policy options documents.base documents.left) at hleft
  change r.IsMovedBy .right (compare policy options documents.base documents.right) at hright
  rw [← h] at hright
  have hrange : r.left = r.right := hleft.eq hright
  cases other with
  | left => rfl
  | right =>
    change documents.right.contentIn r.right = documents.left.contentIn r.left
    rw [h, hrange]

end Align

/-- If one side alone changed the base, or both made the same document of it, a merge has no
conflicts and gives that document: line by line under the policy, and literally if every character
counts. -/
theorem merge_unopposed (policy : Policy) (options : CompareOptions) {b c : Document}
    (hb : b.NewlineFree) (hc : c.NewlineFree) :
    ∀ documents ∈ [(⟨c, b, b⟩ : ThreeSided Document), ⟨b, b, c⟩, ⟨c, b, c⟩],
      (∃ lines, merge policy options documents = .ok (.merged (joinLines lines)) ∧
        List.Forall₂ (fun x y => policy.linesEqual x y = true) lines c.lines.toList) ∧
      merge .exact options documents = .ok (.merged c.text) := by
  have hfree {left right : Document} (hleft : left.NewlineFree) (hright : right.NewlineFree)
      (side : ThreeSide) : ((⟨left, b, right⟩ : ThreeSided Document).get side).NewlineFree := by
    cases side with
    | left => exact hleft
    | base => exact hb
    | right => exact hright
  intro documents hdocuments
  simp only [List.mem_cons, List.not_mem_nil, or_false] at hdocuments
  rcases hdocuments with rfl | rfl | rfl
  · have hleft := hfree hc hb
    exact ⟨merge_of_unopposed .left hleft fun r hr => unopposed_of_other_eq_base hr rfl,
      merge_exact_of_unopposed .left hleft fun r hr => unopposed_of_other_eq_base hr rfl⟩
  · have hright := hfree hb hc
    exact ⟨merge_of_unopposed .right hright fun r hr => unopposed_of_other_eq_base hr rfl,
      merge_exact_of_unopposed .right hright fun r hr => unopposed_of_other_eq_base hr rfl⟩
  · have hboth := hfree hc hc
    exact ⟨merge_of_unopposed .left hboth fun r hr => unopposed_of_left_eq_right hr rfl,
      merge_exact_of_unopposed .left hboth fun r hr => unopposed_of_left_eq_right hr rfl⟩

/-- The right side alone inserted a line and indented another one. -/
theorem merge_unopposed_indented :
    let b := Document.ofText "if x:\ny\nz"
    let c := Document.ofText "if x:\n  y\n\nz"
    let documents : ThreeSided Document := ⟨b, b, c⟩
    (b.NewlineFree ∧ c.NewlineFree ∧ documents ∈ [⟨c, b, b⟩, ⟨b, b, c⟩, ⟨c, b, c⟩]) ∧
      (∃ lines, merge .trim {} documents = .ok (.merged (joinLines lines)) ∧
        List.Forall₂ (fun x y => Policy.trim.linesEqual x y = true) lines c.lines.toList) ∧
      merge .exact {} documents = .ok (.merged "if x:\n  y\n\nz") := by
  intro b c documents
  have hb : b.NewlineFree := Document.newlineFree_ofText _
  have hc : c.NewlineFree := Document.newlineFree_ofText _
  have hmem : documents ∈ [(⟨c, b, b⟩ : ThreeSided Document), ⟨b, b, c⟩, ⟨c, b, c⟩] :=
    List.mem_cons_of_mem _ List.mem_cons_self
  obtain ⟨htrim, hexact⟩ := merge_unopposed .trim {} hb hc documents hmem
  have htext : c.text = "if x:\n  y\n\nz" := joinLines_splitLines _
  rw [htext] at hexact
  exact ⟨⟨hb, hc, hmem⟩, htrim, hexact⟩

end Linewise
