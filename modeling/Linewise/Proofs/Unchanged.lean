import Linewise.Proofs.Minimality
import Linewise.Proofs.Text.Equality

/-!
# When nothing is reported

A comparison reports nothing exactly when both documents have as many lines and
these are equal one by one. So it agrees with the equality of texts, which splits and
trims whole texts on its own: both tell the same documents and the same ranges of
them apart, except that texts whose line feeds do not count may be equal although
their lines are not.
-/

namespace Linewise

/-- The range from the first line to the last holds all lines. -/
theorem Document.linesIn_whole (d : Document) :
    d.linesIn (.span 0 d.lineCount) = d.lines.toList := by
  rw [linesIn, LineRange.span_start, LineRange.span_stop (Nat.zero_le _), lineCount,
    Array.extract_size]

/-- A comparison reports nothing exactly when the lines of both documents are equal one by one. -/
theorem compare_eq_nil_iff {policy : Policy} {options : CompareOptions} {a b : Document} :
    compare policy options a b = [] ↔
      List.Forall₂ (fun x y => policy.linesEqual x y = true) a.lines.toList b.lines.toList := by
  constructor
  · intro hnone
    have hreplay := forall₂_apply_compareLines policy options a.lines b.lines
    have hwhole := Patch.drop_eq_window_append (Nat.zero_le _) (Nat.le_refl a.lines.size)
    rw [List.drop_of_length_le (Nat.le_of_eq Array.length_toList), List.append_nil] at hwhole
    rw [← compare, hnone, Patch.apply, Patch.applyFrom, ← hwhole] at hreplay
    exact hreplay
  · intro hequal
    rw [← a.linesIn_whole, ← b.linesIn_whole] at hequal
    have hspanA := LineRange.span_stop (Nat.zero_le a.lineCount)
    have hspanB := LineRange.span_stop (Nat.zero_le b.lineCount)
    have hrun := Document.run_of_forall₂_linesIn (Nat.le_of_eq hspanA) (Nat.le_of_eq hspanB) hequal
    rw [hspanA, hspanB] at hrun
    obtain ⟨haligned, _, htight⟩ := compareLines_spec policy options a.lines b.lines
    by_contra hsome
    exact htight.not_run haligned hsome hrun

/-- A document is not changed against itself. -/
theorem compare_self (policy : Policy) (options : CompareOptions) (a : Document) :
    compare policy options a a = [] :=
  compare_eq_nil_iff.mpr (List.forall₂_same.mpr fun line _ => policy.linesEqual_refl line)

/-- The comparison of lines agrees with the equality of texts. A comparison of two texts that
reports nothing means that they are equal under the policy, and the converse holds where line feeds
count. For any two ranges, lines that are equal one by one mean equal contents, and again the
converse holds where line feeds count. -/
theorem compare_agrees_with_contentEqual (policy : Policy) (options : CompareOptions) :
    (∀ t₁ t₂ : String,
      (compare policy options (.ofText t₁) (.ofText t₂) = [] →
        policy.contentEqual (some t₁) (some t₂) = true) ∧
      (policy ≠ .ignoreWhitespace → policy.contentEqual (some t₁) (some t₂) = true →
        compare policy options (.ofText t₁) (.ofText t₂) = [])) ∧
    ∀ (d e : Document) (r s : LineRange), d.NewlineFree → e.NewlineFree →
      r.stop ≤ d.lineCount → s.stop ≤ e.lineCount →
      ∃ x y xs ys, d.rangeContent r = .ok x ∧ e.rangeContent s = .ok y ∧ d.slice r = .ok xs ∧
        e.slice s = .ok ys ∧
        (List.Forall₂ (fun x y => policy.linesEqual x y = true) xs ys →
          policy.contentEqual x y = true) ∧
        (policy ≠ .ignoreWhitespace → policy.contentEqual x y = true →
          List.Forall₂ (fun x y => policy.linesEqual x y = true) xs ys) := by
  constructor
  · intro t₁ t₂
    have hfree (t : String) : ∀ line ∈ splitLines t, '\n' ∉ line.toList :=
      Document.newlineFree_ofText t
    rw [compare_eq_nil_iff, Document.ofText, Document.ofText, Document.toList_lines_ofLines,
      Document.toList_lines_ofLines, Policy.contentEqual]
    constructor
    · intro hequal
      have htexts := Policy.textsEqual_joinLines_of_forall₂ (splitLines_ne_nil t₁)
        (splitLines_ne_nil t₂) (hfree t₁) (hfree t₂) hequal
      rwa [joinLines_splitLines, joinLines_splitLines] at htexts
    · intro hpolicy htexts
      rw [← joinLines_splitLines t₁, ← joinLines_splitLines t₂] at htexts
      exact (Policy.textsEqual_joinLines_iff hpolicy (splitLines_ne_nil t₁) (splitLines_ne_nil t₂)
        (hfree t₁) (hfree t₂)).mp htexts
  · intro d e r s hd he hr hs
    refine ⟨_, _, _, _, Document.rangeContent_of_le hr, Document.rangeContent_of_le hs,
      Document.slice_of_le hr, Document.slice_of_le hs, ?_, ?_⟩
    · exact Document.contentEqual_contentIn_of_forall₂ hd he hr hs
    · exact fun hpolicy => (Document.contentEqual_contentIn_iff hpolicy hd he hr hs).mp

/-- Blanks at the ends of a line do not count when lines are trimmed, neither for a comparison nor
for the contents of a range. -/
theorem compare_agrees_with_contentEqual_trimmed :
    let d := Document.ofText "if x:\n  y\r"
    let e := Document.ofText "if x: \n\ty"
    compare .trim {} d e = [] ∧
      (d.NewlineFree ∧ e.NewlineFree ∧ 2 ≤ d.lineCount ∧ 2 ≤ e.lineCount) ∧
      ∃ x y xs ys, d.rangeContent (.span 1 2) = .ok x ∧ e.rangeContent (.span 1 2) = .ok y ∧
        d.slice (.span 1 2) = .ok xs ∧ e.slice (.span 1 2) = .ok ys ∧
        (List.Forall₂ (fun x y => Policy.trim.linesEqual x y = true) xs ys →
          Policy.trim.contentEqual x y = true) ∧
        (Policy.trim ≠ .ignoreWhitespace → Policy.trim.contentEqual x y = true →
          List.Forall₂ (fun x y => Policy.trim.linesEqual x y = true) xs ys) := by
  intro d e
  have hd : d.NewlineFree := Document.newlineFree_ofText _
  have he : e.NewlineFree := Document.newlineFree_ofText _
  have hdCount : 2 ≤ d.lineCount := by decide
  have heCount : 2 ≤ e.lineCount := by decide
  obtain ⟨htexts, hranges⟩ := compare_agrees_with_contentEqual .trim {}
  exact ⟨(htexts _ _).2 (by decide) (by decide), ⟨hd, he, hdCount, heCount⟩,
    hranges d e (.span 1 2) (.span 1 2) hd he hdCount heCount⟩

end Linewise
