import Linewise.Proofs.ThreeWay.Merge

/-!
# Merging when every character counts

When every character counts, the documents are literally the same outside the
regions found. A region is a conflict if the three documents hold three different
things there. If there is none, the merged lines are the base outside the regions
and, in each of them, the lines of the sides that differ from the base there.
-/

namespace Linewise

/-- The lines of both sides from `here` up to `there` are literally those of the base from `i` up to
`i'`. -/
def SameLines (documents : ThreeSided Document) (i : Nat) (here : TwoSided Nat) (i' : Nat)
    (there : TwoSided Nat) : Prop :=
  i ≤ i' ∧ ∀ side : Side, here.get side ≤ there.get side ∧
    (documents.get side.toThreeSide).linesIn (.span (here.get side) (there.get side)) =
      documents.base.linesIn (.span i i')

/-- From line `i` of the base and the lines `here` of both sides on, all documents have the same
lines before, between and after the regions. -/
def SameOutside (documents : ThreeSided Document) (i : Nat) (here : TwoSided Nat) :
    List Region → Prop
  | [] => SameLines documents i here documents.base.lineCount
      ⟨documents.left.lineCount, documents.right.lineCount⟩
  | r :: regions => SameLines documents i here r.base.start ⟨r.left.start, r.right.start⟩ ∧
      SameOutside documents r.base.stop ⟨r.left.stop, r.right.stop⟩ regions

/-- All three documents hold different things in the region. -/
def Disagree (documents : ThreeSided Document) (r : Region) : Prop :=
  (∀ side, Differs documents r side) ∧
    documents.left.contentIn r.left ≠ documents.right.contentIn r.right

/-- The lines are those of the base from line `i` on, where each region gave way to the lines of the
side that differs there from the base; if both sides do, they have the same lines. -/
def Resolves (documents : ThreeSided Document) (i : Nat) : List Region → List String → Prop
  | [], lines => lines = documents.base.linesIn (.span i documents.base.lineCount)
  | r :: regions, lines => ∃ taken later,
      lines = documents.base.linesIn (.span i r.base.start) ++ (taken ++ later) ∧
      (∃ side, Differs documents r side) ∧
      (∀ side, Differs documents r side → taken = sideLines documents r side) ∧
      Resolves documents r.base.stop regions later

section SameOutside

variable {documents : ThreeSided Document} {i i' : Nat} {here there : TwoSided Nat}

/-- Lines that run on side by side and agree in every character are the same lines. -/
theorem sameLines_of_run (hbase : i' ≤ documents.base.lineCount)
    (hsides : ∀ side : Side, there.get side ≤ (documents.get side.toThreeSide).lineCount)
    (h : ∀ side, Run (SideAgrees .exact documents side) i (here.get side) i' (there.get side)) :
    SameLines documents i here i' there := by
  refine ⟨(h .left).le₁, fun side => ⟨(h side).le₂, ?_⟩⟩
  have hle := (h side).le₁
  have hle' := (h side).le₂
  refine (Document.linesIn_eq_of_run ?_ ?_ ?_).symm
  · rwa [LineRange.span_stop hle]
  · rw [LineRange.span_stop hle']
    exact hsides side
  · rw [LineRange.span_stop hle, LineRange.span_stop hle']
    refine (h side).mono fun k l ⟨x, y, hx, hy, hequal⟩ => ⟨x, hx, ?_⟩
    rw [hy, show y = x from (Policy.linesEqual_iff.mp hequal).symm]

/-- Outside regions that cover the fragments of both sides, the documents have the same lines. -/
theorem Covers.sameOutside {rest : TwoSided Patch} {regions : List Region}
    (h : Covers (SideAgrees .exact documents) documents.base.lineCount
      ⟨documents.left.lineCount, documents.right.lineCount⟩ i here rest regions) :
    SameOutside documents i here regions := by
  induction regions generalizing i here rest with
  | nil =>
    refine sameLines_of_run (Nat.le_refl _) (fun side => ?_) fun side => (h side).2
    cases side <;> exact Nat.le_refl _
  | cons r regions ih =>
    obtain ⟨later, _, hsides, hrest⟩ := h
    obtain ⟨hn, hends⟩ := hrest.le
    have hbase := r.base.start_le_stop
    refine ⟨sameLines_of_run (by omega) (fun side => ?_) (fun side => ?_), ih hrest⟩
    · have hend := hends side
      cases side with
      | left => exact Nat.le_trans r.left.start_le_stop hend
      | right => exact Nat.le_trans r.right.start_le_stop hend
    · obtain ⟨taken, _, hrun, _⟩ := hsides side
      cases side <;> exact hrun

end SameOutside

variable {documents : ThreeSided Document} {r : Region}

/-- When every character counts, a region of which a side differs from the base is a conflict
exactly if all three documents disagree. -/
theorem classify_exact
    (hbounds : ∀ side : ThreeSide, (r.get side).stop ≤ (documents.get side).lineCount)
    (hdiffers : ∃ side, Differs documents r side) :
    ∃ k, classify .exact documents r = .ok k ∧
      (∀ side, k.changed side = true ↔ Differs documents r side) ∧
      (k.isConflict = true ↔ Disagree documents r) := by
  obtain ⟨k, hk, hchanged, hconflict⟩ := classify_of_differs .exact hbounds hdiffers
  refine ⟨k, hk, hchanged, ?_⟩
  rw [hconflict, Disagree, ← Bool.not_eq_true, Classification.sidesEqual_exact]

/-- Two sides that both differ from the base have the same lines, unless all three documents
disagree. -/
theorem sideLines_eq (hfree : ∀ side, (documents.get side).NewlineFree)
    (hbounds : ∀ side : ThreeSide, (r.get side).stop ≤ (documents.get side).lineCount)
    (hagree : ¬Disagree documents r) (hleft : Differs documents r .left)
    (hright : Differs documents r .right) :
    sideLines documents r .left = sideLines documents r .right := by
  apply (Document.contentIn_eq_iff (hfree .left) (hfree .right) (hbounds .left)
    (hbounds .right)).mp
  by_contra hne
  exact hagree ⟨Side.forall_iff.mpr ⟨hleft, hright⟩, hne⟩

namespace MergeState

variable {s : MergeState}

/-- A step when every character counts records a conflict if all three documents disagree. If they
do not, it takes the lines of every side that differs from the base. -/
theorem step_exact (hfree : ∀ side, (documents.get side).NewlineFree)
    (hr : HoldsChange documents r) (hs : s.baseLine ≤ documents.base.lineCount) :
    ∃ s', step .exact documents s r = .ok s' ∧ s'.baseLine = r.base.stop ∧
      (Disagree documents r → ∃ c, s'.conflicts = s.conflicts.push c) ∧
      (¬Disagree documents r → s'.conflicts = s.conflicts ∧ ∃ taken,
        (∀ side, Differs documents r side → taken = sideLines documents r side) ∧
        s'.lines.toList = s.lines.toList ++
          (documents.base.linesIn (.span s.baseLine r.base.start) ++ taken)) := by
  obtain ⟨k, hk, hchanged, hdisagree⟩ := classify_exact hr.bounds hr.differs
  obtain ⟨s', hstep, hline, hmarked, htaken⟩ := step_spec hk hr.bounds hs
  refine ⟨s', hstep, hline, fun h => hmarked (hdisagree.mpr h), ?_⟩
  intro hagree
  obtain ⟨hsame, hlines⟩ := htaken (Bool.eq_false_iff.mpr fun h => hagree (hdisagree.mp h))
  refine ⟨hsame, _, fun side hside => ?_, hlines⟩
  by_cases hleft : k.leftChanged = true
  · rw [if_pos hleft]
    cases side with
    | left => rfl
    | right => exact sideLines_eq hfree hr.bounds hagree ((hchanged .left).mp hleft) hside
  · rw [if_neg hleft]
    cases side with
    | left => exact absurd ((hchanged .left).mpr hside) hleft
    | right => rfl

/-- A run when every character counts records a conflict exactly if all three documents disagree in
some region. If they do so in none, it takes the lines that resolve the regions. -/
theorem run_exact (hfree : ∀ side, (documents.get side).NewlineFree) {regions : List Region}
    (hregions : ∀ r ∈ regions, HoldsChange documents r)
    (hs : s.baseLine ≤ documents.base.lineCount) :
    ∃ s', regions.foldlM (step .exact documents) s = .ok s' ∧
      s'.baseLine ≤ documents.base.lineCount ∧
      (s'.conflicts = #[] ↔ s.conflicts = #[] ∧ ∀ r ∈ regions, ¬Disagree documents r) ∧
      ((∀ r ∈ regions, ¬Disagree documents r) → ∃ later,
        Resolves documents s.baseLine regions later ∧
        s'.lines.toList ++ documents.base.linesIn (.span s'.baseLine documents.base.lineCount) =
          s.lines.toList ++ later) := by
  induction regions generalizing s with
  | nil => exact ⟨s, rfl, hs, by simp, fun _ => ⟨_, rfl, rfl⟩⟩
  | cons r regions ih =>
    rw [List.forall_mem_cons] at hregions
    obtain ⟨hr, hregions⟩ := hregions
    obtain ⟨s₁, hstep, hline, hmarked, htaken⟩ := step_exact hfree hr hs
    obtain ⟨s', hrun, hs', hconflicts, hresolves⟩ := ih hregions (hline ▸ hr.bounds .base)
    refine ⟨s', by rw [List.foldlM_cons, hstep]; exact hrun, hs', ?_, fun hagree => ?_⟩
    · rw [hconflicts, List.forall_mem_cons]
      by_cases hdisagree : Disagree documents r
      · obtain ⟨c, hc⟩ := hmarked hdisagree
        rw [hc]
        exact ⟨fun h => absurd h.1 Array.push_ne_empty, fun h => absurd hdisagree h.2.1⟩
      · rw [(htaken hdisagree).1]
        exact ⟨fun h => ⟨h.1, hdisagree, h.2⟩, fun h => ⟨h.1, h.2.2⟩⟩
    · rw [List.forall_mem_cons] at hagree
      obtain ⟨_, taken, hsides, hlines⟩ := htaken hagree.1
      obtain ⟨later, hlater, hall⟩ := hresolves hagree.2
      rw [hline] at hlater
      refine ⟨_, ⟨taken, later, rfl, hr.differs, hsides, hlater⟩, ?_⟩
      rw [hall, hlines]
      simp only [List.append_assoc]

end MergeState

/-- When every character counts and no line holds a line feed, the documents are the same outside
the regions found. A merge gives conflicts exactly if all three documents disagree in some region;
if they do so in none, it gives the text of the lines that resolve the regions. -/
theorem merge_exact (options : CompareOptions) (hfree : ∀ side, (documents.get side).NewlineFree) :
    SameOutside documents 0 ⟨0, 0⟩ (align .exact options documents) ∧
      ((∃ found, merge .exact options documents = .ok (.conflicts found)) ↔
        ∃ r ∈ align .exact options documents, Disagree documents r) ∧
      ((∀ r ∈ align .exact options documents, ¬Disagree documents r) → ∃ lines,
        Resolves documents 0 (align .exact options documents) lines ∧
        merge .exact options documents = .ok (.merged (joinLines lines))) := by
  obtain ⟨s, hrun, hs, hconflicts, hresolves⟩ := MergeState.run_exact hfree
    (holdsChange_of_mem_align .exact options hfree)
    (show MergeState.initial.baseLine ≤ documents.base.lineCount from Nat.zero_le _)
  have hmerge : merge .exact options documents = s.finish documents := by
    rw [merge, hrun]
    rfl
  rw [MergeState.finish_ok hs] at hmerge
  have hempty : s.conflicts.isEmpty = true ↔
      ∀ r ∈ align .exact options documents, ¬Disagree documents r := by
    rw [Array.isEmpty_iff, hconflicts]
    exact ⟨fun h => h.2, fun h => ⟨rfl, h⟩⟩
  refine ⟨(covers_align .exact options documents).sameOutside, ?_, fun hagree => ?_⟩
  · rw [hmerge]
    by_cases hagree : s.conflicts.isEmpty = true
    · rw [if_pos hagree]
      constructor
      · rintro ⟨found, hfound⟩
        cases hfound
      · rintro ⟨r, hr, hdisagree⟩
        exact absurd hdisagree (hempty.mp hagree r hr)
    · rw [if_neg hagree]
      constructor
      · intro _
        by_contra hnone
        exact hagree (hempty.mpr fun r hr hdisagree => hnone ⟨r, hr, hdisagree⟩)
      · exact fun _ => ⟨_, rfl⟩
  · obtain ⟨lines, hlines, hall⟩ := hresolves hagree
    refine ⟨lines, hlines, ?_⟩
    rw [hmerge, if_pos (hempty.mpr hagree), hall]
    rfl

/-- Each side changed one end of the base, and both changed the line in the middle alike. No region
is a conflict, and the merged text has all three changes. -/
theorem merge_exact_both_ends :
    let documents : ThreeSided Document := ⟨.ofLines ["x", "b", "m", "d", "e"],
      .ofLines ["a", "b", "c", "d", "e"], .ofLines ["a", "b", "m", "d", "y"]⟩
    (∀ side, (documents.get side).NewlineFree) ∧
      align .exact {} documents = [⟨.span 0 1, .span 0 1, .span 0 1⟩,
        ⟨.span 2 3, .span 2 3, .span 2 3⟩, ⟨.span 4 5, .span 4 5, .span 4 5⟩] ∧
      SameOutside documents 0 ⟨0, 0⟩ (align .exact {} documents) ∧
      (∀ r ∈ align .exact {} documents, ¬Disagree documents r) ∧
      Resolves documents 0 (align .exact {} documents) ["x", "b", "m", "d", "y"] ∧
      merge .exact {} documents = .ok (.merged "x\nb\nm\nd\ny") := by
  intro documents
  have hfree (side : ThreeSide) : (documents.get side).NewlineFree := by
    cases side <;> decide
  have hleft : compare .exact {} documents.base documents.left =
      [⟨.span 0 1, .span 0 1⟩, ⟨.span 2 3, .span 2 3⟩] := by
    rw [compare, compareLines, internLines_eq_toArray]
    dsimp only [documents]
    cbv
  have hright : compare .exact {} documents.base documents.right =
      [⟨.span 2 3, .span 2 3⟩, ⟨.span 4 5, .span 4 5⟩] := by
    rw [compare, compareLines, internLines_eq_toArray]
    dsimp only [documents]
    cbv
  have halign : align .exact {} documents = [⟨.span 0 1, .span 0 1, .span 0 1⟩,
      ⟨.span 2 3, .span 2 3, .span 2 3⟩, ⟨.span 4 5, .span 4 5, .span 4 5⟩] := by
    rw [align, hleft, hright]
    cbv
  have hagree : ∀ r ∈ align .exact {} documents, ¬Disagree documents r := by
    rw [halign]
    simp only [List.forall_mem_cons]
    refine ⟨fun h => h.1 .right ?_, fun h => h.2 ?_, fun h => h.1 .left ?_, by simp⟩ <;>
      decide +kernel
  obtain ⟨hsame, _, hmerged⟩ := merge_exact {} hfree
  obtain ⟨lines, hlines, hmerge⟩ := hmerged hagree
  have hall : lines = ["x", "b", "m", "d", "y"] := by
    rw [halign] at hlines
    obtain ⟨first, _, rfl, _, hfirst, middle, _, rfl, _, hmiddle, last, _, rfl, _, hlast, rfl⟩ :=
      hlines
    rw [hfirst .left (by decide), hmiddle .left (by decide), hlast .right (by decide)]
    decide +kernel
  rw [hall] at hlines hmerge
  exact ⟨hfree, halign, hsame, hagree, hlines, hmerge⟩

end Linewise
