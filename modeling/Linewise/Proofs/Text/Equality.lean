import Mathlib.Data.List.Forall2
import Linewise.Policy
import Linewise.Proofs.Text.Lines

/-!
# Equality of texts, line by line

A text is its lines with a line feed between each two. As long as a policy keeps the
line feeds apart from what it drops, two texts are equal exactly when they have as
many lines and these are equal one by one. If no blank counts, a line feed does not
count either: texts whose lines are equal one by one are equal, and so are others.
-/

namespace Linewise

/-- Joining undoes splitting. -/
theorem joinLines_splitLines (text : String) : joinLines (splitLines text) = text := by
  rw [← String.toList_inj, joinLines, splitLines, String.toList_intercalate, List.map_map]
  have hlists : (text.toList.splitOn '\n').map (String.toList ∘ String.ofList) =
      text.toList.splitOn '\n' := by
    simp [Function.comp_def]
  rw [hlists]
  exact List.intercalate_splitOn '\n'

/-- The visible characters of joined lines are those of the lines, in order. -/
theorem Line.visible_joinLines (lines : List String) :
    visible (joinLines lines).toList = lines.flatMap fun line => visible line.toList := by
  induction lines with
  | nil => rfl
  | cons line rest ih =>
    cases rest with
    | nil => simp [joinLines]
    | cons next rest =>
      rw [List.flatMap_cons, ← ih, joinLines, joinLines, String.intercalate_cons_cons,
        String.toList_append, String.toList_append]
      simp [visible]

namespace Policy

variable {p : Policy} {xs ys : List String}

/-- Lines are equal one by one exactly when their keys are the same lists. -/
theorem forall₂_linesEqual_iff :
    List.Forall₂ (fun x y => p.linesEqual x y = true) xs ys ↔
      xs.map p.lineKey = ys.map p.lineKey := by
  rw [← List.forall₂_eq_eq_eq, List.forall₂_map_left_iff, List.forall₂_map_right_iff]
  simp only [linesEqual_iff]

/-- Texts in which line feeds count are equal exactly when their lines are equal one by one. -/
theorem textsEqual_joinLines_iff (hp : p ≠ .ignoreWhitespace) (hxs : xs ≠ []) (hys : ys ≠ [])
    (hxsFree : ∀ x ∈ xs, '\n' ∉ x.toList) (hysFree : ∀ y ∈ ys, '\n' ∉ y.toList) :
    p.textsEqual (joinLines xs) (joinLines ys) = true ↔
      List.Forall₂ (fun x y => p.linesEqual x y = true) xs ys := by
  have hsplitXs := splitLines_joinLines hxs hxsFree
  have hsplitYs := splitLines_joinLines hys hysFree
  rw [forall₂_linesEqual_iff]
  cases p with
  | exact =>
    have hkey : lineKey .exact = id := rfl
    rw [hkey, List.map_id, List.map_id, textsEqual, beq_iff_eq]
    constructor
    · intro h
      rw [← hsplitXs, ← hsplitYs, h]
    · exact congrArg joinLines
  | trim =>
    rw [textsEqual, beq_iff_eq, hsplitXs, hsplitYs]
    rfl
  | ignoreWhitespace => exact absurd rfl hp

/-- Texts whose lines are equal one by one are equal under every policy. -/
theorem textsEqual_joinLines_of_forall₂ (hxs : xs ≠ []) (hys : ys ≠ [])
    (hxsFree : ∀ x ∈ xs, '\n' ∉ x.toList) (hysFree : ∀ y ∈ ys, '\n' ∉ y.toList)
    (h : List.Forall₂ (fun x y => p.linesEqual x y = true) xs ys) :
    p.textsEqual (joinLines xs) (joinLines ys) = true := by
  by_cases hp : p = .ignoreWhitespace
  · subst hp
    have hvisible : xs.map (fun x => Line.visible x.toList) =
        ys.map fun y => Line.visible y.toList := by
      have hkeys := congrArg (List.map String.toList) (forall₂_linesEqual_iff.mp h)
      simpa [lineKey, Line.squeezed, Function.comp_def] using hkeys
    rw [textsEqual, beq_iff_eq, Line.squeezed, Line.squeezed, Line.visible_joinLines,
      Line.visible_joinLines, List.flatMap_def, List.flatMap_def, hvisible]
  · exact (textsEqual_joinLines_iff hp hxs hys hxsFree hysFree).mpr h

end Policy

namespace Document

variable {p : Policy} {d e : Document} {r s : LineRange}

/-- Where line feeds count, two ranges hold the same under the policy exactly when their lines are
equal one by one. -/
theorem contentEqual_contentIn_iff (hp : p ≠ .ignoreWhitespace) (hd : d.NewlineFree)
    (he : e.NewlineFree) (hr : r.stop ≤ d.lineCount) (hs : s.stop ≤ e.lineCount) :
    p.contentEqual (d.contentIn r) (e.contentIn s) = true ↔
      List.Forall₂ (fun x y => p.linesEqual x y = true) (d.linesIn r) (e.linesIn s) := by
  have hdFree := hd.linesIn r
  have heFree := he.linesIn s
  rw [contentIn_eq hr, contentIn_eq hs]
  cases hxs : d.linesIn r with
  | nil =>
    cases hys : e.linesIn s with
    | nil => exact ⟨fun _ => .nil, fun _ => rfl⟩
    | cons y ys => exact ⟨fun h => Bool.noConfusion h, fun h => nomatch h⟩
  | cons x xs =>
    cases hys : e.linesIn s with
    | nil => exact ⟨fun h => Bool.noConfusion h, fun h => nomatch h⟩
    | cons y ys =>
      rw [hxs] at hdFree
      rw [hys] at heFree
      exact Policy.textsEqual_joinLines_iff hp (List.cons_ne_nil x xs) (List.cons_ne_nil y ys)
        hdFree heFree

/-- Two ranges whose lines are equal one by one hold the same under every policy. -/
theorem contentEqual_contentIn_of_forall₂ (hd : d.NewlineFree) (he : e.NewlineFree)
    (hr : r.stop ≤ d.lineCount) (hs : s.stop ≤ e.lineCount)
    (h : List.Forall₂ (fun x y => p.linesEqual x y = true) (d.linesIn r) (e.linesIn s)) :
    p.contentEqual (d.contentIn r) (e.contentIn s) = true := by
  have hdFree := hd.linesIn r
  have heFree := he.linesIn s
  rw [contentIn_eq hr, contentIn_eq hs]
  cases hxs : d.linesIn r with
  | nil =>
    rw [hxs, List.forall₂_nil_left_iff] at h
    rw [h]
    rfl
  | cons x xs =>
    cases hys : e.linesIn s with
    | nil =>
      rw [hxs, hys] at h
      nomatch h
    | cons y ys =>
      rw [hxs] at hdFree h
      rw [hys] at heFree h
      exact Policy.textsEqual_joinLines_of_forall₂ (List.cons_ne_nil x xs) (List.cons_ne_nil y ys)
        hdFree heFree h

end Document

end Linewise
