import Linewise.Proofs.Key
import Linewise.Proofs.ThreeWay.Merge
import Linewise.Proofs.ThreeWay.Tiling

/-!
# Where conflicts stand

A merge and a list of changes judge the same regions. A merge that ends in conflicts
lists one for each conflicting change, with its lines on all sides. The line at which
it stands counts what is merged above it: the lines of the base outside all changes,
and the lines that resolved changes put in.
-/

namespace Linewise

/-- The lines of a conflict on a side. -/
def Conflict.lines (c : Conflict) : ThreeSide → List String
  | .left => c.left
  | .base => c.base
  | .right => c.right

/-- Number of lines that a change puts into the merged document: none if it is a conflict, else as
many as the left side has there, or the right one if the left did not change the base. -/
def Change.mergedSize (d : Change) : Nat :=
  if d.isConflict then 0
  else if d.classification.leftChanged then d.region.left.size else d.region.right.size

/-- Line `line` of the base lies outside all changes. -/
def OutsideAll (changes : List Change) (line : Nat) : Prop :=
  ∀ d ∈ changes, line < d.region.base.start ∨ d.region.base.stop ≤ line

/-- Whether a line lies outside all changes can be decided. -/
instance (changes : List Change) : DecidablePred (OutsideAll changes) := fun line =>
  inferInstanceAs (Decidable (∀ d ∈ changes, line < d.region.base.start ∨
    d.region.base.stop ≤ line))

/-- Number of lines above line `line` of the base that lie outside all changes. -/
def unchangedBefore (changes : List Change) (line : Nat) : Nat :=
  (List.range line).countP fun k => OutsideAll changes k

/-- Number of lines put into the merged document by the changes that start above line `line` of the
base. -/
def resolvedBefore (changes : List Change) (line : Nat) : Nat :=
  changes.foldr (fun d rest => (if d.region.base.start < line then d.mergedSize else 0) + rest) 0

/-- Number of merged lines above line `line` of the base. -/
def mergedBefore (changes : List Change) (line : Nat) : Nat :=
  unchangedBefore changes line + resolvedBefore changes line

section Count

variable {changes : List Change} {d : Change} {line line' : Nat}

/-- One more line counts if it lies outside all changes. -/
theorem unchangedBefore_succ (changes : List Change) (line : Nat) :
    unchangedBefore changes (line + 1) =
      unchangedBefore changes line + if OutsideAll changes line then 1 else 0 := by
  rw [unchangedBefore, List.range_succ, List.countP_append, List.countP_singleton]
  simp only [decide_eq_true_eq]
  rfl

/-- Where no line lies in a change, every line counts. -/
theorem unchangedBefore_outside (hle : line ≤ line')
    (houtside : ∀ k, line ≤ k → k < line' → OutsideAll changes k) :
    unchangedBefore changes line' = unchangedBefore changes line + (line' - line) := by
  induction line', hle using Nat.le_induction with
  | base => rw [Nat.sub_self, Nat.add_zero]
  | succ k hk ih =>
    have hbelow := ih fun k' hle hlt => houtside k' hle (Nat.lt_succ_of_lt hlt)
    rw [unchangedBefore_succ, if_pos (houtside k hk (Nat.lt_succ_self k))]
    omega

/-- No line of a change counts. -/
theorem unchangedBefore_stop (hd : d ∈ changes) :
    unchangedBefore changes d.region.base.stop = unchangedBefore changes d.region.base.start := by
  have hinside (k : Nat) (hle : d.region.base.start ≤ k) (hk : k ≤ d.region.base.stop) :
      unchangedBefore changes k = unchangedBefore changes d.region.base.start := by
    induction k, hle using Nat.le_induction with
    | base => rfl
    | succ k hle ih =>
      have hcovered : ¬OutsideAll changes k := by
        intro houtside
        have := houtside d hd
        omega
      rw [unchangedBefore_succ, if_neg hcovered, Nat.add_zero, ih (Nat.le_of_succ_le hk)]
  exact hinside _ d.region.base.start_le_stop (Nat.le_refl _)

/-- The count of lines grows. -/
theorem unchangedBefore_mono (changes : List Change) (hle : line ≤ line') :
    unchangedBefore changes line ≤ unchangedBefore changes line' :=
  (List.range_sublist.mpr hle).countP_le

/-- A change further down makes no difference to which lines count. -/
theorem unchangedBefore_append (hle : line ≤ d.region.base.start) :
    unchangedBefore (changes ++ [d]) line = unchangedBefore changes line := by
  apply List.countP_congr
  intro k hk
  have hbelow : k < d.region.base.start := Nat.lt_of_lt_of_le (List.mem_range.mp hk) hle
  rw [decide_eq_true_eq, decide_eq_true_eq, OutsideAll, OutsideAll, List.forall_mem_append,
    List.forall_mem_singleton]
  exact and_iff_left (.inl hbelow)

/-- One more change adds its lines if it starts above. -/
theorem resolvedBefore_append (changes : List Change) (d : Change) (line : Nat) :
    resolvedBefore (changes ++ [d]) line =
      resolvedBefore changes line + if d.region.base.start < line then d.mergedSize else 0 := by
  induction changes with
  | nil => exact Nat.add_comm _ _
  | cons e changes ih =>
    rw [resolvedBefore, List.cons_append, List.foldr_cons, ← resolvedBefore, ih, resolvedBefore,
      resolvedBefore, List.foldr_cons, Nat.add_assoc]

/-- The lines put in are as many up to any line below all changes. -/
theorem resolvedBefore_eq (hline : ∀ d ∈ changes, d.region.base.start < line)
    (hline' : ∀ d ∈ changes, d.region.base.start < line') :
    resolvedBefore changes line = resolvedBefore changes line' := by
  induction changes with
  | nil => rfl
  | cons d changes ih =>
    rw [List.forall_mem_cons] at hline hline'
    have hrest := ih hline.2 hline'.2
    rw [resolvedBefore, resolvedBefore] at hrest ⊢
    rw [List.foldr_cons, List.foldr_cons, hrest, if_pos hline.1, if_pos hline'.1]

/-- Further down no fewer lines are put in. -/
theorem resolvedBefore_mono (changes : List Change) (hle : line ≤ line') :
    resolvedBefore changes line ≤ resolvedBefore changes line' := by
  induction changes with
  | nil => exact Nat.le_refl 0
  | cons d changes ih =>
    rw [resolvedBefore, resolvedBefore] at ih ⊢
    rw [List.foldr_cons, List.foldr_cons]
    split_ifs <;> omega

/-- A change further down makes no difference to the lines merged. -/
theorem mergedBefore_append (hle : line ≤ d.region.base.start) :
    mergedBefore (changes ++ [d]) line = mergedBefore changes line := by
  rw [mergedBefore, mergedBefore, unchangedBefore_append hle, resolvedBefore_append,
    if_neg (by omega), Nat.add_zero]

/-- Of two changes with an unchanged line in between, the second stands further down in the merged
document. -/
theorem mergedBefore_lt {e : Change} (h : Separated (changes.map Change.region)) (hd : d ∈ changes)
    (hlt : d.region.base.stop < e.region.base.start) :
    mergedBefore changes d.region.base.start < mergedBefore changes e.region.base.start := by
  have hblock := d.region.base.start_le_stop
  have houtside (k : Nat) (hle : d.region.base.stop ≤ k) (hk : k < d.region.base.stop + 1) :
      OutsideAll changes k := by
    intro d' hd'
    by_contra hinside
    have hsame := h.eq_of_overlap (List.mem_map_of_mem hd) (List.mem_map_of_mem hd') (by omega)
      (by omega)
    rw [hsame] at hinside
    omega
  have hline := unchangedBefore_outside (Nat.le_succ _) houtside
  have hgap := unchangedBefore_mono changes (Nat.succ_le_of_lt hlt)
  have hblock' := unchangedBefore_stop hd
  have hresolved := resolvedBefore_mono changes
    (Nat.le_of_lt (Nat.lt_of_le_of_lt hblock hlt))
  rw [mergedBefore, mergedBefore]
  omega

end Count

/-- The conflict recorded for a change, if it is one. -/
def Change.conflictAmong (documents : ThreeSided Document) (changes : List Change) (d : Change) :
    Conflict :=
  ⟨d.region, mergedBefore changes d.region.base.start, documents.base.linesIn d.region.base,
    documents.left.linesIn d.region.left, documents.right.linesIn d.region.right⟩

namespace MergeState

variable {policy : Policy} {documents : ThreeSided Document} {changes : List Change} {d : Change}
  {s : MergeState}

/-- The state after the changes passed so far: what is merged is as long as the count says, and the
conflicts are those among them. -/
structure HasPassed (documents : ThreeSided Document) (changes : List Change) (s : MergeState) :
    Prop where
  baseLine_le : s.baseLine ≤ documents.base.lineCount
  merged : ∀ line, (∀ d ∈ changes, d.region.base.stop < line) →
    s.baseLine ≤ line ∧ s.lines.size + (line - s.baseLine) = mergedBefore changes line
  conflicts : s.conflicts.toList =
    (changes.filter Change.isConflict).map (Change.conflictAmong documents changes)

/-- Lines added to others are as many as both. -/
theorem size_append_lines (lines : Array String) (more : List String) :
    (lines ++ more).size = lines.size + more.length := by
  rw [← Array.length_toList, Array.toList_appendList, List.length_append, Array.length_toList]

/-- Up to a region the lines of the base that are not yet passed are copied. -/
theorem size_lines_append (hs : s.baseLine ≤ d.region.base.start)
    (hbase : d.region.base.stop ≤ documents.base.lineCount) :
    (s.lines ++ documents.base.linesIn (.span s.baseLine d.region.base.start)).size =
      s.lines.size + (d.region.base.start - s.baseLine) := by
  have hgap : (LineRange.span s.baseLine d.region.base.start).stop ≤ documents.base.lineCount := by
    rw [LineRange.span_stop hs]
    exact Nat.le_trans d.region.base.start_le_stop hbase
  rw [size_append_lines, Document.length_linesIn hgap, LineRange.size, LineRange.span_stop hs,
    LineRange.span_start]

/-- Passing a change merges the unchanged lines before it and the lines it puts in. -/
theorem size_lines_pass (hs : s.baseLine ≤ d.region.base.start)
    (hbounds : ∀ side : ThreeSide, (d.region.get side).stop ≤ (documents.get side).lineCount) :
    (s.pass documents d.region d.classification).lines.size =
      s.lines.size + (d.region.base.start - s.baseLine) + d.mergedSize := by
  rw [← size_lines_append hs (hbounds .base)]
  unfold pass Change.mergedSize Change.isConflict
  cases d.classification.isConflict with
  | true => rfl
  | false =>
    rw [if_neg Bool.false_ne_true, if_neg Bool.false_ne_true, size_append_lines]
    cases d.classification.leftChanged with
    | true => exact congrArg (_ + ·) (Document.length_linesIn (hbounds .left))
    | false => exact congrArg (_ + ·) (Document.length_linesIn (hbounds .right))

/-- Passing a change further down counts it and records it if it is a conflict. -/
theorem HasPassed.pass (h : s.HasPassed documents changes)
    (hlater : ∀ e ∈ changes, e.region.base.stop < d.region.base.start)
    (hbounds : ∀ side : ThreeSide, (d.region.get side).stop ≤ (documents.get side).lineCount) :
    (s.pass documents d.region d.classification).HasPassed documents (changes ++ [d]) := by
  obtain ⟨hs, hmerged⟩ := h.merged _ hlater
  have hblock := d.region.base.start_le_stop
  constructor
  · rw [baseLine_pass]
    exact hbounds .base
  · intro line hafter
    rw [List.forall_mem_append, List.forall_mem_singleton] at hafter
    obtain ⟨hearlier, hstop⟩ := hafter
    -- below the change no line lies in any
    have houtside (k : Nat) (hk : d.region.base.stop ≤ k) (_ : k < line) :
        OutsideAll (changes ++ [d]) k := by
      intro e he
      rcases List.mem_append.mp he with he | he
      · have := hlater e he
        omega
      · obtain rfl := List.mem_singleton.mp he
        exact .inr hk
    have hrest := unchangedBefore_outside (Nat.le_of_lt hstop) houtside
    have hchange := unchangedBefore_stop
      (List.mem_append_right changes (List.mem_singleton_self d))
    have hstart (e : Change) (he : e ∈ changes) (line : Nat) (hlt : e.region.base.stop < line) :
        e.region.base.start < line := Nat.lt_of_le_of_lt e.region.base.start_le_stop hlt
    have hresolved := resolvedBefore_eq (fun e he => hstart e he line (hearlier e he))
      fun e he => hstart e he _ (hlater e he)
    rw [unchangedBefore_append (Nat.le_refl _)] at hchange
    rw [mergedBefore] at hmerged
    rw [baseLine_pass, size_lines_pass hs hbounds, mergedBefore, resolvedBefore_append,
      if_pos (Nat.lt_of_le_of_lt hblock hstop)]
    omega
  · have hsame : ∀ e ∈ changes.filter Change.isConflict,
        e.conflictAmong documents (changes ++ [d]) = e.conflictAmong documents changes := by
      intro e he
      have := hlater e (List.mem_of_mem_filter he)
      have := e.region.base.start_le_stop
      rw [Change.conflictAmong, mergedBefore_append (by omega), Change.conflictAmong]
    rw [List.filter_append, List.map_append, List.map_congr_left hsame, ← h.conflicts]
    have hplace : (s.lines ++ documents.base.linesIn (.span s.baseLine d.region.base.start)).size =
        mergedBefore (changes ++ [d]) d.region.base.start := by
      rw [size_lines_append hs (hbounds .base), hmerged, mergedBefore_append (Nat.le_refl _)]
    unfold MergeState.pass
    cases hconflict : d.classification.isConflict with
    | true =>
      have hd : d.isConflict = true := hconflict
      rw [List.filter_cons_of_pos hd]
      simp only [if_true, Array.toList_push, hplace]
      rfl
    | false =>
      have hd : ¬d.isConflict = true := by
        rw [Change.isConflict, hconflict]
        exact Bool.false_ne_true
      rw [List.filter_cons_of_neg hd]
      simp only [Bool.false_eq_true, if_false, List.filter_nil, List.map_nil, List.append_nil]

/-- Passing separated changes from the start counts all of them and records the conflicts. -/
theorem hasPassed_passAll (hseparated : Separated (changes.map Change.region))
    (hbounds : ∀ d ∈ changes, ∀ side : ThreeSide,
      (d.region.get side).stop ≤ (documents.get side).lineCount) :
    (MergeState.initial.passAll documents changes).HasPassed documents changes := by
  induction changes using List.reverseRecOn with
  | nil =>
    refine ⟨Nat.zero_le _, fun line _ => ⟨Nat.zero_le line, ?_⟩, rfl⟩
    have hall := unchangedBefore_outside (Nat.zero_le line) fun k _ _ d hd =>
      absurd hd List.not_mem_nil
    have hnone : unchangedBefore [] 0 = 0 := rfl
    rw [mergedBefore, hall, hnone]
    exact Nat.add_zero _
  | append_singleton changes d ih =>
    rw [Separated, List.map_append, List.pairwise_append] at hseparated
    rw [List.forall_mem_append, List.forall_mem_singleton] at hbounds
    have hpassed := ih hseparated.1 hbounds.1
    rw [passAll, List.foldl_append]
    refine hpassed.pass ?_ hbounds.2
    intro e he
    exact hseparated.2.2 _ (List.mem_map_of_mem he) _ (List.mem_map_of_mem List.mem_cons_self)

end MergeState

/-- A merge judges the regions found as a list of changes does. It gives a text if no change is a
conflict, else the conflicts among them. -/
theorem exists_merge (policy : Policy) (options : CompareOptions) {documents : ThreeSided Document}
    (hfree : ∀ side, (documents.get side).NewlineFree) :
    ∃ changes, compareThreeWay policy options documents = .ok changes ∧
      changes.map Change.region = align policy options documents ∧
      ∃ text, merge policy options documents = .ok
        (if ∀ d ∈ changes, d.isConflict = false then .merged text
          else .conflicts
            ((changes.filter Change.isConflict).map (Change.conflictAmong documents changes))) := by
  obtain ⟨changes, hchanges, hmap, hrun⟩ := MergeState.exists_changes policy
    (holdsChange_of_mem_align policy options hfree)
  have hseparated : Separated (changes.map Change.region) := by
    rw [hmap]
    exact separated_align policy options documents
  have hbounds : ∀ d ∈ changes, ∀ side : ThreeSide,
      (d.region.get side).stop ≤ (documents.get side).lineCount := by
    intro d hd
    have hmem : d.region ∈ changes.map Change.region := List.mem_map_of_mem hd
    rw [hmap] at hmem
    exact (not_run_of_mem_align hmem).1
  have hconflicts := (MergeState.hasPassed_passAll hseparated hbounds).conflicts
  obtain ⟨hfold, hline⟩ := hrun .initial (Nat.zero_le _)
  have hmerge := merge_eq_finish policy options hfold
  rw [MergeState.finish_ok hline, hconflicts] at hmerge
  have hempty : (MergeState.initial.passAll documents changes).conflicts.isEmpty = true ↔
      ∀ d ∈ changes, d.isConflict = false := by
    rw [Array.isEmpty_iff, ← Array.toList_eq_nil_iff, hconflicts, List.map_eq_nil_iff,
      List.filter_eq_nil_iff]
    simp only [Bool.not_eq_true]
  simp only [hempty] at hmerge
  exact ⟨changes, hchanges, hmap, _, hmerge⟩

/-- If no line holds a line feed, a merge gives a text exactly if no change is a conflict. Otherwise
it lists the conflicts: one for each conflicting change, in order and in the same region, with the
lines of all three documents there. Each stands below as many merged lines as the base has above it
outside all changes and the resolved changes above it put in, so the later of two conflicts always
stands further down. -/
theorem merge_lists_conflicts (policy : Policy) (options : CompareOptions)
    {documents : ThreeSided Document} (hfree : ∀ side, (documents.get side).NewlineFree) :
    ∃ changes, compareThreeWay policy options documents = .ok changes ∧
      ((∃ text, merge policy options documents = .ok (.merged text)) ↔
        ∀ d ∈ changes, d.isConflict = false) ∧
      ((∃ d ∈ changes, d.isConflict = true) →
        ∃ found, merge policy options documents = .ok (.conflicts found) ∧
          found.map Conflict.region = (changes.filter Change.isConflict).map Change.region ∧
          (∀ c ∈ found, ∀ side,
            (documents.get side).slice (c.region.get side) = .ok (c.lines side)) ∧
          (∀ c ∈ found, c.mergedLine = unchangedBefore changes c.region.base.start +
            resolvedBefore changes c.region.base.start) ∧
          found.Pairwise fun c c' => c.mergedLine < c'.mergedLine) := by
  obtain ⟨changes, hchanges, hmap, text, hmerge⟩ := exists_merge policy options hfree
  refine ⟨changes, hchanges, ?_, ?_⟩
  · rw [hmerge]
    split_ifs with hnone
    · exact iff_of_true ⟨_, rfl⟩ hnone
    · refine iff_of_false ?_ hnone
      rintro ⟨text, htext⟩
      cases htext
  · rintro ⟨d, hd, hconflict⟩
    have hsome : ¬∀ d ∈ changes, d.isConflict = false := by
      intro hnone
      rw [hnone d hd] at hconflict
      cases hconflict
    rw [if_neg hsome] at hmerge
    refine ⟨_, hmerge, ?_, ?_, ?_, ?_⟩
    · rw [List.map_map]
      rfl
    · intro c hc side
      obtain ⟨d, hd, rfl⟩ := List.mem_map.mp hc
      have hmem : d.region ∈ changes.map Change.region :=
        List.mem_map_of_mem (List.mem_of_mem_filter hd)
      rw [hmap] at hmem
      have hslice := Document.slice_of_le ((not_run_of_mem_align hmem).1 side)
      cases side <;> exact hslice
    · intro c hc
      obtain ⟨d, _, rfl⟩ := List.mem_map.mp hc
      rfl
    · have hseparated := separated_align policy options documents
      rw [← hmap] at hseparated
      rw [List.pairwise_map]
      refine ((List.pairwise_map.mp hseparated).sublist List.filter_sublist).imp_of_mem ?_
      intro d e hd _ hlt
      exact mergedBefore_lt hseparated (List.mem_of_mem_filter hd) hlt

/-- Below a line that the left side alone replaced by two, both sides changed two more lines with
one in between. -/
theorem merge_lists_conflicts_apart :
    let documents : ThreeSided Document := ⟨.ofLines ["A", "A'", "b", "C", "d", "E"],
      .ofLines ["a", "b", "c", "d", "e"], .ofLines ["a", "b", "K", "d", "L"]⟩
    (∀ side, (documents.get side).NewlineFree) ∧
      ∃ found, merge .exact {} documents = .ok (.conflicts found) ∧
        found.map Conflict.region = [⟨.span 3 4, .span 2 3, .span 2 3⟩,
          ⟨.span 5 6, .span 4 5, .span 4 5⟩] ∧
        found.map Conflict.mergedLine = [3, 4] := by
  intro documents
  have hfree (side : ThreeSide) : (documents.get side).NewlineFree := by
    cases side <;> decide
  have hleft : compare .exact {} documents.base documents.left =
      [⟨.span 0 1, .span 0 2⟩, ⟨.span 2 3, .span 3 4⟩, ⟨.span 4 5, .span 5 6⟩] := by
    rw [compare, compareLines, internLines_eq_toArray]
    dsimp only [documents]
    cbv
  have hright : compare .exact {} documents.base documents.right =
      [⟨.span 2 3, .span 2 3⟩, ⟨.span 4 5, .span 4 5⟩] := by
    rw [compare, compareLines, internLines_eq_toArray]
    dsimp only [documents]
    cbv
  have halign : align .exact {} documents = [⟨.span 0 2, .span 0 1, .span 0 1⟩,
      ⟨.span 3 4, .span 2 3, .span 2 3⟩, ⟨.span 5 6, .span 4 5, .span 4 5⟩] := by
    rw [align, hleft, hright]
    cbv
  have hchanges : compareThreeWay .exact {} documents = .ok
      [⟨⟨.span 0 2, .span 0 1, .span 0 1⟩, .leftOnly .modified⟩,
        ⟨⟨.span 3 4, .span 2 3, .span 2 3⟩, .both .conflict⟩,
        ⟨⟨.span 5 6, .span 4 5, .span 4 5⟩, .both .conflict⟩] := by
    rw [compareThreeWay, halign]
    decide +kernel
  obtain ⟨changes, hsame, _, hconflicts⟩ := merge_lists_conflicts .exact {} hfree
  have hall := Except.ok.inj (hsame.symm.trans hchanges)
  obtain ⟨found, hmerge, hregions, _, hlines, _⟩ :=
    hconflicts ⟨_, hall ▸ List.mem_cons_of_mem _ List.mem_cons_self, rfl⟩
  have hplaces : found.map Conflict.mergedLine = (found.map Conflict.region).map fun r =>
      unchangedBefore changes r.base.start + resolvedBefore changes r.base.start := by
    rw [List.map_map]
    exact List.map_congr_left hlines
  rw [hregions, hall] at hplaces
  rw [hall] at hregions
  exact ⟨hfree, found, hmerge, hregions, hplaces.trans (by decide)⟩

end Linewise
