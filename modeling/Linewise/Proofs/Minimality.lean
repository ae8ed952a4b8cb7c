import Linewise.Proofs.CommonLines
import Linewise.Proofs.Patch.MatchedPairs
import Linewise.Proofs.Text.Lines

/-!
# How little a comparison reports

A comparison never reports an unchanged stretch as changed. If important lines are
matched first, as many of them stay matched as the important lines of both documents
have in common, and if every line is important, no patch changes fewer lines. The
first patch matches that many; sliding, fusing, joining and trimming never match
fewer important lines, and no aligned patch could match more.
-/

namespace Linewise

/-- Lines that agree under a policy are both important or both not. -/
theorem importantAt_eq_of_linesAgree {policy : Policy} {lines : TwoSided (Array String)}
    {i j : Nat} (threshold : Nat) (h : LinesAgree policy lines i j) :
    importantAt threshold lines.left i = importantAt threshold lines.right j := by
  obtain ⟨x, y, hx, hy, hequal⟩ := h
  have hcount : Line.visibleCount x = Line.visibleCount y := by
    rw [← Line.visibleCount_lineKey policy x, Policy.linesEqual_iff.mp hequal,
      Line.visibleCount_lineKey]
  rw [importantAt, importantAt, hx, hy, Option.any_some, Option.any_some, hcount]

/-- Every line is important if no visible character is asked for. -/
theorem importantAt_zero {i : Nat} {lines : Array String} (hi : i < lines.size) :
    importantAt 0 lines i = true := by
  simp [importantAt, hi]

/-- An unimportant line is not important. -/
theorem importantAt_eq_false {threshold i : Nat} {lines : Array String}
    (h : Patch.unimportantAt threshold lines i = true) : importantAt threshold lines i = false := by
  obtain ⟨line, hline, hcount⟩ := (Option.any_eq_true _ _).mp h
  have hcount := of_decide_eq_true hcount
  rw [importantAt, hline, Option.any_some, decide_eq_false_iff_not]
  omega

/-- All pairs that a patch leaves matched are of important lines if no visible character is asked
for. -/
theorem Patch.Aligned.countP_importantAt_zero {R : Nat → Nat → Prop} {p : Patch} {i j n m : Nat}
    {lines : Array String} (h : p.Aligned R i j n m) (hn : n ≤ lines.size) :
    (p.matchedFrom i j n m).countP (fun x => importantAt 0 lines x.1) =
      (p.matchedFrom i j n m).length := by
  rw [List.countP_eq_length]
  intro x hx
  have hbounds := h.bounds_of_mem_matchedFrom hx
  exact importantAt_zero (by omega)

namespace Script

variable {keys₁ keys₂ : Array Nat} {lines₁ lines₂ : Array String}

/-- The important indices are those of important lines. -/
theorem mem_importantIndices_iff {threshold i : Nat} {lines : Array String} :
    i ∈ (importantIndices threshold lines).toList ↔ importantAt threshold lines i = true := by
  rw [importantIndices, Array.toList_filter, Array.toList_range, List.mem_filter, List.mem_range]
  constructor
  · exact And.right
  · intro h
    obtain ⟨line, hline, _⟩ := (Option.any_eq_true _ _).mp h
    exact ⟨(Array.getElem?_eq_some_iff.mp hline).1, h⟩

/-- The keys of the important lines on both sides have this much in common. -/
def commonImportant (threshold : Nat) (lines₁ lines₂ : Array String) (keys₁ keys₂ : Array Nat) :
    Nat :=
  commonLength ((importantIndices threshold lines₁).toList.map (keys₁.getD · 0))
    ((importantIndices threshold lines₂).toList.map (keys₂.getD · 0))

/-- The anchored patch matches as many important lines as both sides have in common. -/
theorem commonImportant_le_anchoredPatch (threshold : Nat) (hsize₁ : keys₁.size = lines₁.size)
    (hsize₂ : keys₂.size = lines₂.size) :
    commonImportant threshold lines₁ lines₂ keys₁ keys₂ ≤
      ((anchoredPatch threshold lines₁ lines₂ keys₁ keys₂).matchedPairs keys₁.size
        keys₂.size).countP (fun x => importantAt threshold lines₁ x.1) := by
  obtain ⟨_, hmem, hlength⟩ := anchors_spec threshold hsize₁ hsize₂
  have hall : (anchors threshold lines₁ lines₂ keys₁ keys₂).countP
      (fun x => importantAt threshold lines₁ x.1) =
        (anchors threshold lines₁ lines₂ keys₁ keys₂).length := by
    rw [List.countP_eq_length]
    intro x hx
    exact mem_importantIndices_iff.mp (hmem x hx).1
  rw [commonImportant, ← hlength, ← hall]
  exact (anchors_sublist_matchedPairs threshold hsize₁ hsize₂).countP_le

/-- The shortest patch matches as many lines as both sides have in common. -/
theorem commonImportant_le_shortestPatch (hsize₁ : keys₁.size = lines₁.size)
    (hsize₂ : keys₂.size = lines₂.size) :
    commonImportant 0 lines₁ lines₂ keys₁ keys₂ ≤
      ((shortestPatch keys₁ keys₂).matchedPairs keys₁.size keys₂.size).countP
        (fun x => importantAt 0 lines₁ x.1) := by
  have haligned := aligned_shortestPatch keys₁ keys₂
  have hkeys (keys : Array Nat) (lines : Array String) (hsize : keys.size = lines.size) :
      ((importantIndices 0 lines).toList.map (keys.getD · 0)).Sublist keys.toList := by
    rw [toList_eq_map_range keys 0, importantIndices, Array.toList_filter, Array.toList_range,
      hsize]
    exact List.filter_sublist.map _
  have hmono := commonLength_mono (hkeys keys₁ lines₁ hsize₁) (hkeys keys₂ lines₂ hsize₂)
  have hlength := haligned.cost_add_length_matchedFrom
  have hcost := cost_shortestPatch keys₁ keys₂
  rw [Patch.matchedPairs, haligned.countP_importantAt_zero (Nat.le_of_eq hsize₁), commonImportant]
  omega

end Script

section Compare

variable (policy : Policy) (options : CompareOptions) (lines₁ lines₂ : Array String)

/-- No matter how lines are chosen as important, no more of them are matched than both sides have in
common. -/
theorem countP_compareLines_le (threshold : Nat) :
    ((compareLines policy options lines₁ lines₂).matchedPairs lines₁.size lines₂.size).countP
        (fun x => importantAt threshold lines₁ x.1) ≤
      Script.commonImportant threshold lines₁ lines₂ (internLines policy lines₁ lines₂).1
        (internLines policy lines₁ lines₂).2 := by
  obtain ⟨haligned, _, _⟩ := compareLines_spec policy options lines₁ lines₂
  have hagree {x : Nat × Nat} (hx : x ∈ (Patch.matchedPairs
      (compareLines policy options lines₁ lines₂) lines₁.size lines₂.size).filter
        (fun x => importantAt threshold lines₁ x.1)) :
      LinesAgree policy ⟨lines₁, lines₂⟩ x.1 x.2 ∧ importantAt threshold lines₁ x.1 = true := by
    obtain ⟨hx, himportant⟩ := List.mem_filter.mp hx
    exact ⟨haligned.rel_of_mem_matchedFrom hx, himportant⟩
  rw [List.countP_eq_length_filter]
  have hincreasing : Increasing ((Patch.matchedPairs (compareLines policy options lines₁ lines₂)
      lines₁.size lines₂.size).filter (fun x => importantAt threshold lines₁ x.1)) :=
    haligned.increasing_matchedFrom.sublist List.filter_sublist
  refine hincreasing.length_le_commonLength _ _
    (Script.pairwise_importantIndices threshold lines₁)
    (Script.pairwise_importantIndices threshold lines₂) ?_ ?_
  · intro x hx
    obtain ⟨hequal, himportant⟩ := hagree hx
    rw [Script.mem_importantIndices_iff, Script.mem_importantIndices_iff,
      ← importantAt_eq_of_linesAgree threshold hequal]
    exact ⟨himportant, himportant⟩
  · intro x hx
    exact Script.getD_eq_of_agree (agree_internLines.mpr (hagree hx).1)

/-- The first patch matches as many important lines as both sides have in common, if these are
matched first or every line is important. -/
theorem commonImportant_le_raw (h : options.anchored = true ∨ options.threshold = 0)
    (keys : Array Nat × Array Nat) (hkeys : keys = internLines policy lines₁ lines₂) :
    let raw := if options.anchored then
        Script.anchoredPatch options.threshold lines₁ lines₂ keys.1 keys.2
      else Script.shortestPatch keys.1 keys.2
    Script.commonImportant options.threshold lines₁ lines₂ keys.1 keys.2 ≤
      (raw.matchedPairs keys.1.size keys.2.size).countP
        (fun x => importantAt options.threshold lines₁ x.1) := by
  obtain ⟨hsize₁, hsize₂⟩ := size_internLines policy lines₁ lines₂
  rw [← hkeys] at hsize₁ hsize₂
  intro raw
  by_cases hanchored : options.anchored = true
  · simp only [raw, if_pos hanchored]
    exact Script.commonImportant_le_anchoredPatch options.threshold hsize₁ hsize₂
  · have hzero : options.threshold = 0 := h.resolve_left hanchored
    simp only [raw, if_neg hanchored, hzero]
    exact Script.commonImportant_le_shortestPatch hsize₁ hsize₂

/-- The later stages never match fewer important lines than the first patch does. -/
theorem commonImportant_le_compareLines (h : options.anchored = true ∨ options.threshold = 0) :
    Script.commonImportant options.threshold lines₁ lines₂ (internLines policy lines₁ lines₂).1
        (internLines policy lines₁ lines₂).2 ≤
      ((compareLines policy options lines₁ lines₂).matchedPairs lines₁.size lines₂.size).countP
        (fun x => importantAt options.threshold lines₁ x.1) := by
  obtain ⟨keys, hkeys⟩ : ∃ keys, keys = internLines policy lines₁ lines₂ := ⟨_, rfl⟩
  have hraw := commonImportant_le_raw policy options lines₁ lines₂ h keys hkeys
  have haligned := (raw_spec policy options lines₁ lines₂ keys hkeys).1
  unfold compareLines
  simp only [← hkeys]
  generalize (if options.anchored then
    Script.anchoredPatch options.threshold lines₁ lines₂ keys.1 keys.2
      else Script.shortestPatch keys.1 keys.2) = raw at hraw haligned ⊢
  have hagree (i j : Nat) (hij : Agree ⟨keys.1, keys.2⟩ i j) :
      LinesAgree policy ⟨lines₁, lines₂⟩ i j := by
    rw [hkeys] at hij
    exact agree_internLines.mp hij
  have hkept := Patch.map_matchedPairs_settle ⟨lines₁, lines₂⟩ (fun i j hij =>
    importantAt_eq_of_linesAgree options.threshold (hagree i j hij)) haligned
  have hsettled := Patch.Aligned.settle ⟨lines₁, lines₂⟩ haligned
  obtain ⟨hsize₁, hsize₂⟩ := size_internLines policy lines₁ lines₂
  rw [← hkeys] at hsize₁ hsize₂
  simp only [hsize₁, hsize₂] at hraw hkept hsettled
  -- The pairs may move, but whether each of them is important does not.
  have hcount := congrArg (List.countP id) hkept
  rw [List.countP_map, List.countP_map] at hcount
  refine Nat.le_trans hraw (Nat.le_trans (Nat.le_of_eq hcount.symm) ?_)
  exact (hsettled.1.mono hagree).countP_le_tidy (fun x hleft _ => importantAt_eq_false hleft)
    (fun _ _ => LinesAgree.of_agree) (Nat.le_refl lines₁.size) hsettled.2

/-- As many important lines are matched as both sides have in common, if these are matched first or
every line is important. -/
theorem countP_compareLines (h : options.anchored = true ∨ options.threshold = 0) :
    ((compareLines policy options lines₁ lines₂).matchedPairs lines₁.size lines₂.size).countP
        (fun x => importantAt options.threshold lines₁ x.1) =
      Script.commonImportant options.threshold lines₁ lines₂ (internLines policy lines₁ lines₂).1
        (internLines policy lines₁ lines₂).2 :=
  Nat.le_antisymm (countP_compareLines_le policy options lines₁ lines₂ options.threshold)
    (commonImportant_le_compareLines policy options lines₁ lines₂ h)

end Compare

/-- Every line is important if no visible character is asked for. -/
theorem Document.importantLines_zero (d : Document) : d.importantLines 0 = d.lines.toList := by
  simp [importantLines]

/-- Ranges whose lines are equal one by one under the policy are a run. -/
theorem Document.run_of_forall₂_linesIn {policy : Policy} {a b : Document} {r s : LineRange}
    (hr : r.stop ≤ a.lineCount) (hs : s.stop ≤ b.lineCount)
    (h : List.Forall₂ (fun x y => policy.linesEqual x y = true) (a.linesIn r) (b.linesIn s)) :
    Run (LinesAgree policy ⟨a.lines, b.lines⟩) r.start s.start r.stop s.stop := by
  obtain ⟨hsize, hequal⟩ := List.forall₂_iff_get.mp h
  rw [length_linesIn hr, length_linesIn hs] at hsize
  refine ⟨r.start_le_stop, s.start_le_stop, hsize, ?_⟩
  intro k hk
  have hleft : k < (a.linesIn r).length := by rwa [length_linesIn hr]
  have hright : k < (b.linesIn s).length := by
    rw [length_linesIn hs, ← hsize]
    exact hk
  have hline := hequal k hleft hright
  simp only [linesIn, List.get_eq_getElem, Array.getElem_toList, Array.getElem_extract] at hline
  exact ⟨_, _, Array.getElem?_eq_getElem _, Array.getElem?_eq_getElem _, hline⟩

/-- What relates each element to itself and to all later ones relates those at `k` and `l` if `k` is
no larger. -/
theorem rel_of_getElem?_of_le {α : Type} {r : α → α → Prop} {xs : List α} {x y : α} {k l : Nat}
    (hself : ∀ x ∈ xs, r x x) (hpair : xs.Pairwise r) (hkl : k ≤ l) (hx : xs[k]? = some x)
    (hy : xs[l]? = some y) : r x y := by
  obtain ⟨hk, rfl⟩ := List.getElem?_eq_some_iff.mp hx
  obtain ⟨hl, rfl⟩ := List.getElem?_eq_some_iff.mp hy
  rcases Nat.eq_or_lt_of_le hkl with rfl | hlt
  · exact hself _ (List.getElem_mem hk)
  · exact List.pairwise_iff_getElem.mp hpair k l hk hl hlt

/-- A fragment of an aligned patch starts no later than the same or a later one ends. -/
theorem Patch.Aligned.start_le_stop {R : Nat → Nat → Prop} {p : Patch} {i j n m k l : Nat}
    {f g : Fragment} (h : p.Aligned R i j n m) (hkl : k ≤ l) (hf : p[k]? = some f)
    (hg : p[l]? = some g) : f.start₁ ≤ g.stop₁ ∧ f.start₂ ≤ g.stop₂ := by
  refine rel_of_getElem?_of_le (r := fun f g => f.start₁ ≤ g.stop₁ ∧ f.start₂ ≤ g.stop₂)
    (fun f _ => ⟨f.start₁_le_stop₁, f.start₂_le_stop₂⟩) (h.pairwise.imp ?_) hkl hf hg
  intro f g hfg
  have := f.start₁_le_stop₁
  have := f.start₂_le_stop₂
  have := g.start₁_le_stop₁
  have := g.start₂_le_stop₂
  omega

/-- From the start of a fragment to the end of the same or a later one, the lines of both documents
are not equal one by one under the policy: an unchanged stretch is never reported as changed. -/
theorem compare_reports_no_unchanged (policy : Policy) (options : CompareOptions) (a b : Document)
    {p q : Nat} {f g : Fragment} (hpq : p ≤ q) (hf : (compare policy options a b)[p]? = some f)
    (hg : (compare policy options a b)[q]? = some g) :
    ¬List.Forall₂ (fun x y => policy.linesEqual x y = true)
      (a.linesIn (.span f.start₁ g.stop₁)) (b.linesIn (.span f.start₂ g.stop₂)) := by
  obtain ⟨haligned, _, htight⟩ := compareLines_spec policy options a.lines b.lines
  obtain ⟨hle₁, hle₂⟩ := haligned.start_le_stop hpq hf hg
  obtain ⟨_, _, hend₁, hend₂⟩ := haligned.bounds (List.mem_of_getElem? hg)
  have hspan₁ := LineRange.span_stop hle₁
  have hspan₂ := LineRange.span_stop hle₂
  intro hequal
  have hrun := Document.run_of_forall₂_linesIn (by rwa [hspan₁]) (by rwa [hspan₂]) hequal
  rw [hspan₁, hspan₂] at hrun
  exact rel_of_getElem?_of_le htight.single htight.pair hpq hf hg hrun

/-- A deletion that a later insertion makes up for: as many lines on both sides, yet not equal. -/
theorem compare_reports_no_unchanged_shifted :
    let a := Document.ofLines ["p", "keep", "q"]
    let b := Document.ofLines ["keep", "q", "r"]
    let f : Fragment := ⟨.span 0 1, .emptyAt 0⟩
    let g : Fragment := ⟨.emptyAt 3, .span 2 3⟩
    (compare .exact {} a b)[0]? = some f ∧ (compare .exact {} a b)[1]? = some g ∧
      ¬List.Forall₂ (fun x y => Policy.exact.linesEqual x y = true)
        (a.linesIn (.span f.start₁ g.stop₁)) (b.linesIn (.span f.start₂ g.stop₂)) := by
  intro a b f g
  obtain ⟨hkeys₁, hkeys₂⟩ := internLines_eq .exact #["p", "keep", "q"] #["keep", "q", "r"]
  have hkeys : internLines .exact #["p", "keep", "q"] #["keep", "q", "r"] =
      (#[0, 1, 2], #[1, 2, 3]) :=
    Prod.ext (Array.toList_inj.mp (hkeys₁.trans (by decide)))
      (Array.toList_inj.mp (hkeys₂.trans (by decide)))
  have hpatch : compare .exact {} a b = [f, g] := by
    change compareLines _ _ #["p", "keep", "q"] #["keep", "q", "r"] = _
    rw [compareLines, hkeys]
    dsimp only
    cbv
  have hf : (compare .exact {} a b)[0]? = some f := by rw [hpatch]; rfl
  have hg : (compare .exact {} a b)[1]? = some g := by rw [hpatch]; rfl
  exact ⟨hf, hg, compare_reports_no_unchanged .exact {} a b (by decide) hf hg⟩

/-- If every line is important, a comparison deletes and inserts together as few lines as what both
documents have in common under the policy allows, whether important lines are matched first or
not. -/
theorem compare_minimal (policy : Policy) (anchored : Bool) (a b : Document) :
    ∃ k, IsLongestCommonUnder (fun x y => policy.linesEqual x y = true) k a.lines.toList
        b.lines.toList ∧
      (compare policy ⟨0, anchored⟩ a b).cost + 2 * k = a.lines.size + b.lines.size := by
  have hcommon := isLongestCommonUnder_importantLines policy 0 a.lines b.lines
  rw [Document.importantLines_zero, Document.importantLines_zero] at hcommon
  refine ⟨_, hcommon, ?_⟩
  have haligned := (compareLines_spec policy ⟨0, anchored⟩ a.lines b.lines).1
  have hlength := haligned.cost_add_length_matchedFrom
  have hcount : ((compareLines policy ⟨0, anchored⟩ a.lines b.lines).matchedPairs a.lines.size
      b.lines.size).countP (fun x => importantAt 0 a.lines x.1) =
        Script.commonImportant 0 a.lines b.lines (internLines policy a.lines b.lines).1
          (internLines policy a.lines b.lines).2 :=
    countP_compareLines policy ⟨0, anchored⟩ a.lines b.lines (.inr rfl)
  rw [Patch.matchedPairs, haligned.countP_importantAt_zero (Nat.le_refl _),
    Script.commonImportant] at hcount
  rw [compare]
  omega

/-- If important lines are matched first, the pairs of important lines that a comparison leaves
matched are as many as the important lines of both documents have in common under the policy. -/
theorem compare_keeps_important (policy : Policy) (threshold : Nat) (a b : Document) :
    ∃ k, IsLongestCommonUnder (fun x y => policy.linesEqual x y = true) k
        (a.importantLines threshold) (b.importantLines threshold) ∧
      ((compare policy ⟨threshold, true⟩ a b).matchedPairs a.lines.size b.lines.size).countP
        (fun x => importantAt threshold a.lines x.1 && importantAt threshold b.lines x.2) = k := by
  refine ⟨_, isLongestCommonUnder_importantLines policy threshold a.lines b.lines, ?_⟩
  have haligned := (compareLines_spec policy ⟨threshold, true⟩ a.lines b.lines).1
  refine Eq.trans (List.countP_congr ?_)
    (countP_compareLines policy ⟨threshold, true⟩ a.lines b.lines (.inl rfl))
  intro x hx
  have hsame := importantAt_eq_of_linesAgree threshold (haligned.rel_of_mem_matchedFrom hx)
  simp only at hsame
  rw [← hsame, Bool.and_self]

end Linewise
