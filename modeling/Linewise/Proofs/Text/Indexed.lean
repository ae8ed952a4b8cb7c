import Mathlib.Data.List.Induction
import Mathlib.Data.String.Basic
import Linewise.Proofs.Text.Equality
import Linewise.Text.Indexed

/-!
# Documents kept as one text hold their lines

The place of each line follows from the lines before it, whichever way the text came
about: cutting a text at its line feeds and adding line after line lead to the same
spans. So every line and the content of every range is read back out of the text, also
where characters take several bytes, lines are empty or there are none.
-/

namespace Linewise

/-- The bytes of a text in UTF-8. -/
def utf8Bytes (text : String) : List UInt8 := text.toByteArray.data.toList

/-- The bytes of two texts follow each other. -/
theorem utf8Bytes_append (s t : String) : utf8Bytes (s ++ t) = utf8Bytes s ++ utf8Bytes t := by
  rw [utf8Bytes, String.toByteArray_append, ByteArray.data_append, Array.toList_append]
  rfl

/-- A text has as many bytes as it is long. -/
theorem length_utf8Bytes (text : String) : (utf8Bytes text).length = text.utf8ByteSize := by
  rw [utf8Bytes, Array.length_toList, ← String.size_toByteArray]
  rfl

/-- Of all characters only the line feed has the byte of a line feed in it. -/
theorem eq_of_mem_utf8EncodeChar {c : Char} (h : '\n'.toUInt8 ∈ String.utf8EncodeChar c) :
    c = '\n' := by
  have hbyte (v : Nat) : '\n'.toUInt8 = UInt8.ofNat v ↔ v % 256 = 10 := by
    rw [← UInt8.toNat_inj, UInt8.toNat_ofNat']
    exact eq_comm
  have hval : c.val.toNat = 10 := by
    -- A character of one byte is that byte, and all bytes of longer ones are 128 or more.
    simp only [String.utf8EncodeChar] at h
    split_ifs at h <;> simp only [List.mem_cons, List.not_mem_nil, or_false, hbyte] at h <;> omega
  exact Char.ext (UInt32.toNat_inj.mp hval)

/-- The bytes of a line without a line feed hold none. -/
theorem feed_notMem_utf8Bytes {line : String} (h : '\n' ∉ line.toList) :
    '\n'.toUInt8 ∉ utf8Bytes line := by
  intro hmem
  have hbytes : utf8Bytes line = line.toList.flatMap String.utf8EncodeChar := by
    rw [utf8Bytes]
    conv_lhs => rw [← String.ofList_toList (s := line), String.toByteArray_ofList]
    rw [List.utf8Encode, List.data_toByteArray]
  rw [hbytes, List.mem_flatMap] at hmem
  obtain ⟨c, hc, hbyte⟩ := hmem
  exact h (eq_of_mem_utf8EncodeChar hbyte ▸ hc)

/-- What stands between two other parts of a text is read out of it by their lengths. -/
theorem ByteSpan.read_append (a b c : String) :
    read (a ++ b ++ c) ⟨a.utf8ByteSize, (a ++ b).utf8ByteSize⟩ = b := by
  have hread := String.extract_of_valid a.toList b.toList c.toList
  rwa [String.ofList_append, String.ofList_append, String.utf8Len_toList, String.utf8Len_toList,
    String.ofList_toList, String.ofList_toList, String.ofList_toList,
    ← String.utf8ByteSize_append] at hread

namespace Document

variable {d : Document} {r : LineRange} {span : ByteSpan} {start i : Nat} {lines : List String}

/-- Lines that come later have their places after the earlier ones, each with its line feed. -/
theorem spansFrom_append (start : Nat) (xs ys : List String) :
    spansFrom start (xs ++ ys) =
      spansFrom start xs ++ spansFrom (start + (terminated xs).utf8ByteSize) ys := by
  induction xs generalizing start with
  | nil => rfl
  | cons x xs ih =>
    have hfeed : "\n".utf8ByteSize = 1 := rfl
    rw [List.cons_append, spansFrom, ih, spansFrom, List.cons_append, terminated_cons,
      String.utf8ByteSize_append, String.utf8ByteSize_append, hfeed]
    simp only [Nat.add_assoc]

/-- No line has its place before the first one. -/
theorem le_start_of_mem_spansFrom (h : span ∈ spansFrom start lines) : start ≤ span.start := by
  induction lines generalizing start with
  | nil => exact absurd h List.not_mem_nil
  | cons line rest ih =>
    rcases List.mem_cons.mp h with rfl | h
    · exact Nat.le_refl _
    · have := ih h
      omega

/-- Every line stops before any later one starts. -/
theorem pairwise_spansFrom (start : Nat) (lines : List String) :
    (spansFrom start lines).Pairwise fun before after => before.stop < after.start := by
  induction lines generalizing start with
  | nil => exact List.Pairwise.nil
  | cons line rest ih =>
    exact List.Pairwise.cons (fun after hafter => le_start_of_mem_spansFrom hafter) (ih _)

/-- A document goes on with a line after the lines before it. -/
theorem take_succ (hi : i < d.lines.size) :
    d.lines.toList.take (i + 1) = d.lines.toList.take i ++ [d.lines[i]] := by
  rw [List.take_succ_eq_append_getElem hi]
  rfl

/-- The lines of a document up to one of them are not none. -/
theorem take_succ_ne_nil (hi : i < d.lines.size) : d.lines.toList.take (i + 1) ≠ [] := by
  rw [take_succ hi]
  exact List.append_ne_nil_of_right_ne_nil _ (List.cons_ne_nil _ [])

/-- A line starts after the lines before it, each with its line feed, and stops where the text of
all lines up to it does. -/
theorem getElem?_spans (hi : i < d.lines.size) :
    d.spans[i]? = some ⟨(terminated (d.lines.toList.take i)).utf8ByteSize,
      (joinLines (d.lines.toList.take (i + 1))).utf8ByteSize⟩ := by
  have hlength : (spansFrom 0 (d.lines.toList.take i)).length = i := by
    rw [length_spansFrom, List.length_take, Array.length_toList, Nat.min_eq_left hi.le]
  have hsplit : d.lines.toList =
      d.lines.toList.take i ++ d.lines[i] :: d.lines.toList.drop (i + 1) := by
    rw [← Array.getElem_toList, List.getElem_cons_drop, List.take_append_drop]
  rw [take_succ hi, joinLines_append_singleton, String.utf8ByteSize_append, spans]
  conv_lhs => rw [hsplit]
  rw [spansFrom_append, List.getElem?_append_right hlength.le, hlength, Nat.sub_self,
    Nat.zero_add, spansFrom, List.getElem?_cons_zero]

/-- A span that is found is that of a line. -/
theorem bounds_of_getElem?_spans (d : Document) (h : d.spans[i]? = some span) :
    i < d.lines.size ∧ span = ⟨(terminated (d.lines.toList.take i)).utf8ByteSize,
      (joinLines (d.lines.toList.take (i + 1))).utf8ByteSize⟩ := by
  have hi : i < d.lines.size := by
    rw [← Array.length_toList, ← length_spansFrom 0]
    exact (List.getElem?_eq_some_iff.mp h).1
  rw [getElem?_spans hi, Option.some.injEq] at h
  exact ⟨hi, h.symm⟩

/-- The text goes on with the later lines after the earlier ones, each with its line feed. -/
theorem text_eq_terminated (hi : i < d.lines.size) :
    d.text = terminated (d.lines.toList.take i) ++ joinLines (d.lines.toList.drop i) := by
  have hne : d.lines.toList.drop i ≠ [] := by
    rw [← List.length_pos_iff, List.length_drop]
    exact Nat.sub_pos_of_lt hi
  rw [← joinLines_append _ hne, List.take_append_drop, text]

/-- The text begins with the text of the earlier lines. -/
theorem exists_text_eq (hi : i < d.lines.size) :
    ∃ rest, d.text = joinLines (d.lines.toList.take (i + 1)) ++ rest := by
  have hrest := exists_joinLines_append (take_succ_ne_nil hi) (d.lines.toList.drop (i + 1))
  rwa [List.take_append_drop] at hrest

/-- The lines up to the end of a range are those before it and its own. -/
theorem take_stop (d : Document) (r : LineRange) :
    d.lines.toList.take r.stop = d.lines.toList.take r.start ++ d.linesIn r := by
  rw [linesIn, Array.toList_extract, List.extract_eq_take_drop, ← List.take_add,
    Nat.add_sub_cancel' r.start_le_stop]

/-- From the start of the first line of a range to the end of its last one the text is that of the
range. -/
theorem read_linesIn (hr : r.stop ≤ d.lineCount) (hne : r.isEmpty = false) :
    ByteSpan.read d.text ⟨(terminated (d.lines.toList.take r.start)).utf8ByteSize,
      (joinLines (d.lines.toList.take r.stop)).utf8ByteSize⟩ = joinLines (d.linesIn r) := by
  have hsize : r.size ≠ 0 := by
    rw [Ne, ← LineRange.isEmpty_iff_size, hne]
    exact Bool.false_ne_true
  have hlines : d.linesIn r ≠ [] := by
    rwa [← List.length_eq_zero_iff.ne, length_linesIn hr]
  have hlast : r.stop - 1 < d.lines.size ∧ r.stop - 1 + 1 = r.stop := by
    unfold LineRange.size at hsize
    unfold lineCount at hr
    omega
  obtain ⟨rest, hrest⟩ := exists_text_eq hlast.1
  rw [hrest, hlast.2, take_stop, joinLines_append _ hlines]
  exact ByteSpan.read_append ..

/-- The document kept as its text. -/
def indexed (d : Document) : IndexedText := ⟨d.text, d.spans.toArray⟩

/-- There are as many spans as lines. -/
@[simp] theorem lineCount_indexed (d : Document) : d.indexed.lineCount = d.lineCount :=
  length_spansFrom 0 d.lines.toList

/-- Every line is found where its span says. -/
@[simp] theorem span?_indexed (d : Document) (index : Nat) :
    d.indexed.span? index = d.span? index :=
  List.getElem?_toArray

/-- Each line is read back out of the text. -/
@[simp] theorem line?_indexed (d : Document) (index : Nat) :
    d.indexed.line? index = d.line? index := by
  rw [IndexedText.line?, span?_indexed, span?, line?]
  by_cases hi : index < d.lines.size
  · let r : LineRange := ⟨index, index + 1, Nat.le_succ index⟩
    have hempty : r.isEmpty = false := by simp [r, LineRange.isEmpty]
    have hlines : d.linesIn r = [d.lines[index]] :=
      List.append_cancel_left ((take_stop d r).symm.trans (take_succ hi))
    have hread := read_linesIn (d := d) (r := r) hi hempty
    rw [hlines, joinLines_singleton] at hread
    rw [getElem?_spans hi, Option.map_some, Array.getElem?_eq_getElem hi]
    exact congrArg some hread
  · have hspans : d.spans.length ≤ index := by
      rw [spans, length_spansFrom]
      exact Nat.le_of_not_lt hi
    rw [List.getElem?_eq_none hspans, Array.getElem?_eq_none (Nat.le_of_not_lt hi)]
    rfl

/-- The lines are read back out of the text. -/
@[simp] theorem lines_indexed (d : Document) : d.indexed.lines = d.lines.toList := by
  apply List.ext_getElem?
  intro i
  rw [IndexedText.lines, List.getElem?_map, Array.getElem?_toList, Array.getElem?_toList]
  exact line?_indexed d i

/-- The lines of a range are read back out of the text, and the same ranges are refused. -/
theorem slice_indexed (d : Document) (r : LineRange) : d.indexed.slice r = d.slice r := by
  have hlines : (d.indexed.spans.extract r.start r.stop).toList.map
      (ByteSpan.read d.indexed.text) = d.linesIn r := by
    rw [linesIn, Array.toList_extract, Array.toList_extract, ← lines_indexed, IndexedText.lines,
      List.extract_eq_take_drop, List.extract_eq_take_drop, List.map_take, List.map_drop]
  rw [IndexedText.slice, hlines, lineCount_indexed, slice]

/-- The content of a range inside the document is read back out of the text. -/
theorem contentIn_indexed (hr : r.stop ≤ d.lineCount) :
    d.indexed.contentIn r = d.contentIn r := by
  rw [IndexedText.contentIn, contentIn]
  split
  · rfl
  · rename_i hempty
    have hne : r.start < r.stop := by
      rw [LineRange.isEmpty, beq_iff_eq] at hempty
      exact Nat.lt_of_le_of_ne r.start_le_stop hempty
    unfold lineCount at hr
    rw [span?_indexed, span?_indexed, span?, span?, getElem?_spans (by omega),
      getElem?_spans (by omega), Nat.sub_add_cancel (by omega)]
    exact congrArg some (read_linesIn hr (Bool.not_eq_true _ ▸ hempty))

/-- The content of a range is read back out of the text, and the same ranges are refused. -/
theorem rangeContent_indexed (d : Document) (r : LineRange) :
    d.indexed.rangeContent r = d.rangeContent r := by
  rw [IndexedText.rangeContent, rangeContent, lineCount_indexed, LineRange.checkBounds]
  split
  · rename_i hr
    rw [contentIn_indexed hr]
  · rfl

end Document

namespace IndexedText

variable {lines : List String}

/-- Cutting bytes goes on behind a part without line feeds. -/
theorem cutAtFeeds_append {part : List UInt8} (h : '\n'.toUInt8 ∉ part) (start offset : Nat)
    (rest : List UInt8) :
    cutAtFeeds start offset (part ++ rest) = cutAtFeeds start (offset + part.length) rest := by
  induction part generalizing offset with
  | nil => rfl
  | cons byte part ih =>
    rw [List.mem_cons, not_or] at h
    rw [List.cons_append, cutAtFeeds, if_neg (Ne.symm h.1), ih h.2, List.length_cons,
      Nat.add_right_comm, Nat.add_assoc]

/-- Cutting the text of lines finds the place of each. -/
theorem cutAtFeeds_joinLines (hne : lines ≠ []) (hfree : ∀ line ∈ lines, '\n' ∉ line.toList)
    (start : Nat) :
    cutAtFeeds start start (utf8Bytes (joinLines lines)) = Document.spansFrom start lines := by
  induction lines generalizing start with
  | nil => exact absurd rfl hne
  | cons line rest ih =>
    have hline := feed_notMem_utf8Bytes (hfree line List.mem_cons_self)
    by_cases hrest : rest = []
    · have hcut := cutAtFeeds_append hline start start []
      rw [List.append_nil, length_utf8Bytes] at hcut
      rw [hrest, joinLines_singleton, hcut]
      rfl
    · have hfeed : utf8Bytes "\n" = ['\n'.toUInt8] := by decide
      have hfree (line : String) (hline : line ∈ rest) := hfree line (List.mem_cons_of_mem _ hline)
      rw [joinLines, String.intercalate_cons_of_ne_nil hrest, utf8Bytes_append, utf8Bytes_append,
        List.append_assoc, cutAtFeeds_append hline, length_utf8Bytes, hfeed, List.singleton_append,
        cutAtFeeds, if_pos rfl, ← joinLines, ih hrest hfree, Document.spansFrom]

/-- Cutting a text at its line feeds keeps the document of its lines. -/
theorem ofText_eq (text : String) : ofText text = (Document.ofText text).indexed := by
  have hspans := cutAtFeeds_joinLines (splitLines_ne_nil text)
    (Document.newlineFree_ofText text) 0
  rw [joinLines_splitLines] at hspans
  rw [ofText, ← utf8Bytes, hspans, Document.indexed, Document.text, Document.spans,
    Document.ofText, Document.toList_lines_ofLines, joinLines_splitLines]

/-- A line added to the text of a document is one more line of it. -/
theorem push_indexed (lines : List String) (line : String) :
    (Document.ofLines lines).indexed.push line = (Document.ofLines (lines ++ [line])).indexed := by
  let d := Document.ofLines lines
  have hbefore : (if d.indexed.spans.isEmpty then d.indexed.text else d.indexed.text ++ "\n") =
      terminated lines := by
    cases lines with
    | nil => rfl
    | cons first rest => exact (terminated_eq (List.cons_ne_nil first rest)).symm
  have htext : (Document.ofLines (lines ++ [line])).text = terminated lines ++ line := by
    rw [Document.text, Document.toList_lines_ofLines, joinLines_append_singleton]
  have hspans : (Document.ofLines (lines ++ [line])).spans = d.spans ++
      [⟨(terminated lines).utf8ByteSize, (terminated lines ++ line).utf8ByteSize⟩] := by
    rw [Document.spans, Document.toList_lines_ofLines, Document.spansFrom_append, Nat.zero_add,
      String.utf8ByteSize_append]
    rfl
  have hright : (Document.ofLines (lines ++ [line])).indexed = ⟨terminated lines ++ line,
      d.indexed.spans.push ⟨(terminated lines).utf8ByteSize,
        (terminated lines ++ line).utf8ByteSize⟩⟩ := by
    rw [Document.indexed, htext, hspans, ← List.push_toArray]
    rfl
  rw [hright, ← hbefore]
  rfl

/-- Adding line after line keeps the document of these lines. -/
theorem ofLines_eq (lines : List String) : ofLines lines = (Document.ofLines lines).indexed := by
  induction lines using List.reverseRecOn with
  | nil => rfl
  | append_singleton lines line ih =>
    rw [ofLines] at ih
    rw [ofLines, List.foldl_append, ih]
    exact push_indexed lines line

/-- What a text with spans keeps of its lines. The spans lie in the text, in order, between two
characters each, and one line feed stands between neighbours. The text is that of the lines. Only
ranges that reach past the end are refused; of any other one the lines are given, and its content is
their text, which an empty range does not have. -/
structure Sound (s : IndexedText) : Prop where
  boundaries : ∀ span ∈ s.spans.toList, span.start ≤ span.stop ∧
    String.Pos.Raw.IsValid s.text ⟨span.start⟩ ∧ String.Pos.Raw.IsValid s.text ⟨span.stop⟩
  ordered : s.spans.toList.Pairwise fun before after => before.stop < after.start
  separated : ∀ i before after, s.span? i = some before → s.span? (i + 1) = some after →
    after.start = before.stop + 1 ∧ ByteSpan.read s.text ⟨before.stop, after.start⟩ = "\n"
  text_eq : s.text = joinLines s.lines
  slice_eq : ∀ r : LineRange, s.slice r = if r.stop ≤ s.lineCount then
      .ok ((s.lines.take r.stop).drop r.start)
    else .error (.outOfBounds r.start r.stop s.lineCount)
  rangeContent_eq : ∀ r : LineRange, s.rangeContent r =
    (s.slice r).map fun lines => if r.isEmpty then none else some (joinLines lines)

/-- A document kept as its text keeps its lines. -/
theorem sound_indexed (d : Document) : d.indexed.Sound where
  boundaries span hspan := by
    obtain ⟨i, hi⟩ := List.mem_iff_getElem?.mp hspan
    obtain ⟨hlt, hspan⟩ := d.bounds_of_getElem?_spans hi
    obtain ⟨rest, hrest⟩ := Document.exists_text_eq hlt
    have hstart := Document.text_eq_terminated hlt
    rw [hspan]
    refine ⟨?_, ?_, ?_⟩
    · rw [Document.take_succ hlt, joinLines_append_singleton, String.utf8ByteSize_append]
      exact Nat.le_add_right _ _
    · exact String.Pos.Raw.isValid_iff_exists_append.mpr ⟨_, _, hstart, rfl⟩
    · exact String.Pos.Raw.isValid_iff_exists_append.mpr ⟨_, _, hrest, rfl⟩
  ordered := Document.pairwise_spansFrom 0 d.lines.toList
  separated i before after hbefore hafter := by
    rw [Document.span?_indexed] at hbefore hafter
    obtain ⟨hlt, rfl⟩ := d.bounds_of_getElem?_spans hbefore
    obtain ⟨hlt', rfl⟩ := d.bounds_of_getElem?_spans hafter
    have hne := Document.take_succ_ne_nil hlt
    have htext := Document.text_eq_terminated hlt'
    rw [terminated_eq hne] at htext
    refine ⟨?_, ?_⟩
    · rw [terminated_eq hne, String.utf8ByteSize_append]
      rfl
    · have hread := ByteSpan.read_append (joinLines (d.lines.toList.take (i + 1))) "\n"
        (joinLines (d.lines.toList.drop (i + 1)))
      rw [← htext, ← terminated_eq hne] at hread
      exact hread
  text_eq := by
    rw [Document.lines_indexed]
    rfl
  slice_eq r := by
    rw [Document.slice_indexed, Document.lines_indexed, Document.lineCount_indexed]
    split
    · rename_i hr
      rw [Document.slice_of_le hr, Document.linesIn, Array.toList_extract,
        List.extract_eq_take_drop, List.drop_take]
    · rename_i hr
      rw [Document.slice, LineRange.checkBounds, if_neg hr]
      rfl
  rangeContent_eq r := by
    rw [Document.rangeContent_indexed, Document.slice_indexed, Document.rangeContent,
      Document.slice]
    cases r.checkBounds d.lineCount <;> rfl

/-- A text has one line more than line feeds, its lines hold none and make up the text again, and
adding them line by line leads to the same spans. Any lines are held as they are, even if there are
line feeds in them, and their text has one line feed between each two. Whichever way a text with
spans came about, it keeps its lines. -/
theorem holds_lines :
    (∀ text : String,
      (ofText text).lineCount = text.toList.count '\n' + 1 ∧
        (∀ line ∈ (ofText text).lines, '\n' ∉ line.toList) ∧
        joinLines (ofText text).lines = text ∧
        ofLines (ofText text).lines = ofText text ∧ (ofText text).Sound) ∧
    ∀ lines : List String,
      (ofLines lines).lines = lines ∧ (ofLines lines).text = joinLines lines ∧
        (ofLines lines).Sound := by
  constructor
  · intro text
    have hlines : (ofText text).lines = splitLines text := by
      rw [ofText_eq, Document.lines_indexed, Document.ofText, Document.toList_lines_ofLines]
    have hcount : (ofText text).lineCount = (ofText text).lines.length := by
      rw [lines, List.length_map, Array.length_toList, lineCount]
    refine ⟨?_, ?_, ?_, ?_, ?_⟩
    · rw [hcount, hlines, splitLines, List.length_map, length_splitOn]
    · rw [hlines]
      exact Document.newlineFree_ofText text
    · rw [hlines, joinLines_splitLines]
    · rw [hlines, ofLines_eq, ofText_eq, Document.ofText]
    · rw [ofText_eq]
      exact sound_indexed _
  · intro lines
    rw [ofLines_eq]
    exact ⟨Document.lines_indexed _, rfl, sound_indexed _⟩

/-- A character of two bytes, an empty line and a line feed at the end. -/
example : (ofText "é\n\na\n").spans = #[⟨0, 2⟩, ⟨3, 3⟩, ⟨4, 5⟩, ⟨6, 6⟩] := by decide +kernel

end IndexedText

end Linewise
