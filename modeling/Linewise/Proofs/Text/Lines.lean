import Linewise.Text.Document

/-!
# Lines and their joined text

Lines without a line feed are found again in their joined text, so two ranges of
such lines have the same content only if they hold the same lines.
-/

namespace Linewise

/-- What is between two separators holds none. -/
theorem notMem_of_mem_splitOn {α : Type} [BEq α] [LawfulBEq α] {sep : α} {xs part : List α}
    (h : part ∈ xs.splitOn sep) : sep ∉ part := by
  induction xs generalizing part with
  | nil =>
    rw [List.splitOn_nil, List.mem_singleton] at h
    rw [h]
    exact List.not_mem_nil
  | cons x xs ih =>
    rw [List.splitOn_cons_eq_if_modifyHead] at h
    split at h
    · rcases List.mem_cons.mp h with rfl | h
      · exact List.not_mem_nil
      · exact ih h
    · rename_i hne
      obtain ⟨first, rest, hparts⟩ := List.exists_cons_of_ne_nil (List.splitOn_ne_nil sep xs)
      rw [hparts] at h ih
      rcases List.mem_cons.mp h with rfl | h
      · rw [List.mem_cons, not_or]
        exact ⟨fun heq => hne (beq_iff_eq.mpr heq.symm), ih List.mem_cons_self⟩
      · exact ih (List.mem_cons_of_mem _ h)

/-- There is one part more than there are separators. -/
theorem length_splitOn {α : Type} [BEq α] [LawfulBEq α] (sep : α) (xs : List α) :
    (xs.splitOn sep).length = xs.count sep + 1 := by
  induction xs with
  | nil => rfl
  | cons x xs ih =>
    rw [List.splitOn_cons_eq_if_modifyHead, List.count_cons]
    split
    · rw [List.length_cons, ih]
    · rw [List.length_modifyHead, ih]

/-- Splitting undoes joining. -/
theorem splitLines_joinLines {lines : List String} (hne : lines ≠ [])
    (hfree : ∀ line ∈ lines, '\n' ∉ line.toList) : splitLines (joinLines lines) = lines := by
  have hsplit : ((joinLines lines).toList.splitOn '\n') = lines.map String.toList := by
    rw [joinLines, String.toList_intercalate]
    refine List.splitOn_intercalate '\n' (fun chars hchars => ?_) (by simpa using hne)
    obtain ⟨line, hline, rfl⟩ := List.mem_map.mp hchars
    exact hfree line hline
  rw [splitLines, hsplit, List.map_map]
  simp [Function.comp_def]

/-- The text of lines with a line feed after each of them. -/
def terminated (lines : List String) : String := String.join (lines.map (· ++ "\n"))

/-- One line is its own text. -/
@[simp] theorem joinLines_singleton (line : String) : joinLines [line] = line :=
  String.intercalate_singleton

/-- No lines make up the empty terminated text. -/
@[simp] theorem terminated_nil : terminated [] = "" := rfl

/-- The first line of a terminated text stands before the others. -/
theorem terminated_cons (line : String) (lines : List String) :
    terminated (line :: lines) = line ++ "\n" ++ terminated lines := by
  rw [terminated, terminated, List.map_cons, String.join_cons]

/-- Terminated texts are put together like their lines. -/
theorem terminated_append (xs ys : List String) :
    terminated (xs ++ ys) = terminated xs ++ terminated ys := by
  rw [terminated, terminated, terminated, List.map_append, String.join_append]

/-- The lines before the last ones are terminated in a joined text. -/
theorem joinLines_append (xs : List String) {ys : List String} (hys : ys ≠ []) :
    joinLines (xs ++ ys) = terminated xs ++ joinLines ys := by
  induction xs with
  | nil => rw [List.nil_append, terminated_nil, String.empty_append]
  | cons x xs ih =>
    have hne : xs ++ ys ≠ [] := List.append_ne_nil_of_right_ne_nil xs hys
    rw [joinLines] at ih
    rw [List.cons_append, joinLines, String.intercalate_cons_of_ne_nil hne, ih, terminated_cons,
      ← String.append_assoc]

/-- The last line of a joined text stands after the terminated ones before it. -/
theorem joinLines_append_singleton (lines : List String) (last : String) :
    joinLines (lines ++ [last]) = terminated lines ++ last := by
  rw [joinLines_append lines (List.cons_ne_nil last []), joinLines_singleton]

/-- A terminated text is a joined one with one more line feed. -/
theorem terminated_eq {lines : List String} (h : lines ≠ []) :
    terminated lines = joinLines lines ++ "\n" := by
  obtain ⟨front, last, hlines⟩ := (List.eq_nil_or_concat lines).resolve_left h
  rw [hlines, List.concat_eq_append, joinLines_append_singleton, terminated_append,
    terminated_cons, terminated_nil, String.append_empty, String.append_assoc]

/-- A joined text begins with the joined text of its first lines. -/
theorem exists_joinLines_append {xs : List String} (hxs : xs ≠ []) (ys : List String) :
    ∃ rest, joinLines (xs ++ ys) = joinLines xs ++ rest := by
  by_cases hys : ys = []
  · exact ⟨"", by rw [hys, List.append_nil, String.append_empty]⟩
  · exact ⟨"\n" ++ joinLines ys, by
      rw [joinLines_append xs hys, terminated_eq hxs, String.append_assoc]⟩

/-- Lines without a line feed are given by their terminated text. -/
theorem eq_of_terminated_eq {xs ys : List String} (hxs : ∀ x ∈ xs, '\n' ∉ x.toList)
    (hys : ∀ y ∈ ys, '\n' ∉ y.toList) (h : terminated xs = terminated ys) : xs = ys := by
  -- Cutting a terminated text leaves an empty line at the end.
  have hsplit (lines : List String) (hfree : ∀ line ∈ lines, '\n' ∉ line.toList) :
      splitLines (terminated lines) = lines ++ [""] := by
    have hjoin : terminated lines = joinLines (lines ++ [""]) := by
      rw [joinLines_append_singleton, String.append_empty]
    rw [hjoin]
    refine splitLines_joinLines (List.append_ne_nil_of_right_ne_nil lines (by simp)) ?_
    intro line hline
    rcases List.mem_append.mp hline with hline | hline
    · exact hfree line hline
    · rw [List.mem_singleton.mp hline]
      exact List.not_mem_nil
  have hsame := hsplit xs hxs
  rw [h, hsplit ys hys] at hsame
  exact (List.append_cancel_right hsame).symm

namespace Document

/-- No line holds a line feed. -/
def NewlineFree (d : Document) : Prop := ∀ line ∈ d.lines.toList, '\n' ∉ line.toList

instance (d : Document) : Decidable d.NewlineFree :=
  inferInstanceAs (Decidable (∀ line ∈ d.lines.toList, '\n' ∉ line.toList))

/-- The lines of a text hold no line feed. -/
theorem newlineFree_ofText (text : String) : (ofText text).NewlineFree := by
  intro line hline
  obtain ⟨chars, hchars, rfl⟩ := List.mem_map.mp hline
  rw [String.toList_ofList]
  exact notMem_of_mem_splitOn hchars

variable {d e : Document} {r s : LineRange} {k : Nat}

/-- A range inside a document has as many lines as it says. -/
theorem length_linesIn (h : r.stop ≤ d.lineCount) : (d.linesIn r).length = r.size := by
  rw [linesIn, Array.length_toList, Array.size_extract, LineRange.size]
  unfold lineCount at h
  omega

/-- The lines of a range are those of the document from its start on. -/
theorem getElem?_linesIn (hr : r.stop ≤ d.lineCount) (hk : k < r.size) :
    (d.linesIn r)[k]? = d.lines[r.start + k]? := by
  unfold lineCount at hr
  unfold LineRange.size at hk
  rw [linesIn, Array.getElem?_toList, Array.getElem?_extract, if_pos (by omega)]

/-- The lines of a range inside the document are not refused. -/
theorem slice_of_le (hr : r.stop ≤ d.lineCount) : d.slice r = .ok (d.linesIn r) := by
  rw [slice, LineRange.checkBounds, if_pos hr]
  rfl

/-- The content of a range inside the document is not refused. -/
theorem rangeContent_of_le (hr : r.stop ≤ d.lineCount) :
    d.rangeContent r = .ok (d.contentIn r) := by
  rw [rangeContent, LineRange.checkBounds, if_pos hr]
  rfl

/-- The lines of a range hold no line feed if no line of the document does. -/
theorem NewlineFree.linesIn (h : d.NewlineFree) (r : LineRange) :
    ∀ line ∈ d.linesIn r, '\n' ∉ line.toList := by
  intro line hline
  simp only [Document.linesIn, Array.toList_extract, List.extract_eq_take_drop] at hline
  exact h line (List.mem_of_mem_drop (List.mem_of_mem_take hline))

/-- A range inside a document has a content exactly if it has a line. -/
theorem contentIn_eq (h : r.stop ≤ d.lineCount) :
    d.contentIn r = if d.linesIn r = [] then none else some (joinLines (d.linesIn r)) := by
  have hempty : r.isEmpty = true ↔ d.linesIn r = [] := by
    rw [LineRange.isEmpty_iff_size, ← length_linesIn h, List.length_eq_zero_iff]
  rw [contentIn]
  simp only [hempty]

/-- Two ranges of documents without line feeds in their lines have the same content exactly when
they hold the same lines. -/
theorem contentIn_eq_iff (hd : d.NewlineFree) (he : e.NewlineFree) (hr : r.stop ≤ d.lineCount)
    (hs : s.stop ≤ e.lineCount) :
    d.contentIn r = e.contentIn s ↔ d.linesIn r = e.linesIn s := by
  rw [contentIn_eq hr, contentIn_eq hs]
  constructor
  · intro h
    by_cases hxs : d.linesIn r = []
    · by_cases hys : e.linesIn s = []
      · rw [hxs, hys]
      · rw [if_pos hxs, if_neg hys] at h
        exact absurd h.symm (Option.some_ne_none _)
    · by_cases hys : e.linesIn s = []
      · rw [if_neg hxs, if_pos hys] at h
        exact absurd h (Option.some_ne_none _)
      · rw [if_neg hxs, if_neg hys, Option.some.injEq] at h
        have hsplit := congrArg splitLines h
        rwa [splitLines_joinLines hxs (hd.linesIn r), splitLines_joinLines hys (he.linesIn s)]
          at hsplit
  · intro h
    rw [h]

end Document

end Linewise
