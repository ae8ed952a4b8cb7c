import Mathlib.Data.List.Basic
import Linewise.Key
import Linewise.Proofs.Patch.Run

/-!
# Keys stand for lines

The table of keys holds the distinct entries seen so far, each with its place among
them. So a key is the place of an entry in the list of distinct entries of both
documents, and two lines have the same key exactly when they are equal under the
policy.
-/

namespace Linewise

variable {table : KeyTable} {seen entries : List String}

/-- The distinct entries of `seen`, followed by those of the list that are new. -/
def distinctFrom (seen : List String) : List String → List String
  | [] => seen
  | entry :: rest =>
    if entry ∈ seen then distinctFrom seen rest else distinctFrom (seen ++ [entry]) rest

/-- A table holds the entries of a list, each with its place. -/
def KeyTable.Numbers (table : KeyTable) (seen : List String) : Prop :=
  table.size = seen.length ∧ ∀ entry : String,
    table[entry]? = if entry ∈ seen then some (seen.idxOf entry) else none

/-- The empty table holds no entries. -/
theorem KeyTable.numbers_empty : KeyTable.Numbers ∅ [] := by
  simp [KeyTable.Numbers]

/-- Later entries are added at the end. -/
theorem distinctFrom_eq_append (seen entries : List String) :
    ∃ more, distinctFrom seen entries = seen ++ more := by
  induction entries generalizing seen with
  | nil => exact ⟨[], by simp [distinctFrom]⟩
  | cons entry rest ih =>
    rw [distinctFrom]
    split
    · exact ih seen
    · obtain ⟨more, hmore⟩ := ih (seen ++ [entry])
      exact ⟨entry :: more, by simpa using hmore⟩

/-- The distinct entries are those of both lists. -/
theorem mem_distinctFrom_iff {entry : String} :
    entry ∈ distinctFrom seen entries ↔ entry ∈ seen ∨ entry ∈ entries := by
  induction entries generalizing seen with
  | nil => simp [distinctFrom]
  | cons first rest ih =>
    rw [distinctFrom]
    split
    · rename_i hfirst
      rw [ih, List.mem_cons]
      constructor
      · rintro (h | h)
        · exact .inl h
        · exact .inr (.inr h)
      · rintro (h | rfl | h)
        · exact .inl h
        · exact .inl hfirst
        · exact .inr h
    · rw [ih, List.mem_append, List.mem_singleton, List.mem_cons, or_assoc]

/-- Every entry of the list is among the distinct ones. -/
theorem mem_distinctFrom {entry : String} (h : entry ∈ seen ∨ entry ∈ entries) :
    entry ∈ distinctFrom seen entries := mem_distinctFrom_iff.mpr h

/-- The distinct entries of two lists, one after the other. -/
theorem distinctFrom_append (seen entries more : List String) :
    distinctFrom seen (entries ++ more) = distinctFrom (distinctFrom seen entries) more := by
  induction entries generalizing seen with
  | nil => rfl
  | cons entry rest ih =>
    simp only [List.cons_append, distinctFrom]
    split
    · exact ih seen
    · exact ih (seen ++ [entry])

/-- The place of an entry among the distinct ones stays when more are added. -/
theorem idxOf_distinctFrom {entry : String} (h : entry ∈ seen) (entries : List String) :
    (distinctFrom seen entries).idxOf entry = seen.idxOf entry := by
  obtain ⟨more, hmore⟩ := distinctFrom_eq_append seen entries
  rw [hmore, List.idxOf_append_of_mem h]

/-- Numbering an entry keeps the table in step with the distinct entries. -/
theorem KeyTable.Numbers.insertIfNew (h : table.Numbers seen) (entry : String) :
    KeyTable.Numbers (table.insertIfNew entry table.size)
      (if entry ∈ seen then seen else seen ++ [entry]) := by
  obtain ⟨hsize, hget⟩ := h
  have hmem : entry ∈ table ↔ entry ∈ seen := by
    rw [Std.HashMap.mem_iff_isSome_getElem?, hget]
    split <;> simp_all
  by_cases hentry : entry ∈ seen
  · rw [if_pos hentry]
    refine ⟨by rw [Std.HashMap.size_insertIfNew, if_pos (hmem.mpr hentry), hsize], ?_⟩
    intro other
    rw [Std.HashMap.getElem?_insertIfNew, if_neg (fun hnew => hnew.2 (hmem.mpr hentry)), hget]
  · have hnot : entry ∉ table := fun hin => hentry (hmem.mp hin)
    rw [if_neg hentry]
    refine ⟨by rw [Std.HashMap.size_insertIfNew, if_neg hnot, hsize]; simp, ?_⟩
    intro other
    rw [Std.HashMap.getElem?_insertIfNew, hget]
    by_cases hother : entry = other
    · subst hother
      simp [hnot, hentry, hsize, List.idxOf_append_of_notMem]
    · by_cases hseen : other ∈ seen
      · simp [hother, hseen, List.idxOf_append_of_mem]
      · simp [hother, hseen, Ne.symm hother]

/-- The key of each entry is its place among the distinct entries, and the table holds these. -/
theorem assignKeys_spec (h : table.Numbers seen) (entries : List String) :
    (assignKeys table entries).1 = entries.map (distinctFrom seen entries).idxOf ∧
      (assignKeys table entries).2.Numbers (distinctFrom seen entries) := by
  induction entries generalizing table seen with
  | nil => exact ⟨rfl, h⟩
  | cons entry rest ih =>
    have hnext := h.insertIfNew entry
    have hdistinct : distinctFrom seen (entry :: rest) =
        distinctFrom (if entry ∈ seen then seen else seen ++ [entry]) rest := by
      rw [distinctFrom]
      split <;> rfl
    have hmem : entry ∈ (if entry ∈ seen then seen else seen ++ [entry]) := by
      split
      · assumption
      · simp
    have hkey : table.getD entry table.size =
        (if entry ∈ seen then seen else seen ++ [entry]).idxOf entry := by
      rw [Std.HashMap.getD_eq_getD_getElem?, h.2, h.1]
      split
      · rfl
      · rename_i hentry
        simp [List.idxOf_append_of_notMem hentry]
    obtain ⟨hkeys, htable⟩ := ih hnext
    rw [assignKeys, hdistinct]
    refine ⟨?_, htable⟩
    rw [hkeys, hkey, List.map_cons, idxOf_distinctFrom hmem]

/-- The key of each line is the place of its normal form among the distinct normal forms of both
documents. -/
theorem internLines_eq (policy : Policy) (lines₁ lines₂ : Array String) :
    let seen := distinctFrom [] ((lines₁.toList ++ lines₂.toList).map policy.lineKey)
    (internLines policy lines₁ lines₂).1.toList =
        lines₁.toList.map (fun line => seen.idxOf (policy.lineKey line)) ∧
      (internLines policy lines₁ lines₂).2.toList =
        lines₂.toList.map (fun line => seen.idxOf (policy.lineKey line)) := by
  obtain ⟨hfirst, htable⟩ :=
    assignKeys_spec KeyTable.numbers_empty (lines₁.toList.map policy.lineKey)
  obtain ⟨hsecond, _⟩ := assignKeys_spec htable (lines₂.toList.map policy.lineKey)
  simp only [internLines, List.map_append, distinctFrom_append]
  rw [hfirst, hsecond]
  refine ⟨?_, by simp⟩
  simp only [List.map_map]
  refine List.map_congr_left ?_
  intro line hline
  refine (idxOf_distinctFrom (mem_distinctFrom (.inr ?_)) _).symm
  exact List.mem_map_of_mem hline

/-- The keys of two documents are the places of their normal forms, so they can be worked out
without a table. -/
theorem internLines_eq_toArray (policy : Policy) (lines₁ lines₂ : Array String) :
    let seen := distinctFrom [] ((lines₁.toList ++ lines₂.toList).map policy.lineKey)
    internLines policy lines₁ lines₂ =
      ((lines₁.toList.map fun line => seen.idxOf (policy.lineKey line)).toArray,
        (lines₂.toList.map fun line => seen.idxOf (policy.lineKey line)).toArray) := by
  obtain ⟨hfirst, hsecond⟩ := internLines_eq policy lines₁ lines₂
  exact Prod.ext (Array.toList_inj.mp hfirst) (Array.toList_inj.mp hsecond)

/-- There are as many keys as lines. -/
theorem size_internLines (policy : Policy) (lines₁ lines₂ : Array String) :
    (internLines policy lines₁ lines₂).1.size = lines₁.size ∧
      (internLines policy lines₁ lines₂).2.size = lines₂.size := by
  unfold internLines
  simp only [List.size_toArray, length_assignKeys, List.length_map, Array.length_toList, and_self]

/-- The keys of two lines of different documents agree exactly when the lines are equal under the
policy. -/
theorem agree_internLines {policy : Policy} {lines₁ lines₂ : Array String} {i j : Nat} :
    Agree ⟨(internLines policy lines₁ lines₂).1, (internLines policy lines₁ lines₂).2⟩ i j ↔
      ∃ x y, lines₁[i]? = some x ∧ lines₂[j]? = some y ∧ policy.linesEqual x y = true := by
  obtain ⟨hfirst, hsecond⟩ := internLines_eq policy lines₁ lines₂
  simp only [Agree, ← Array.getElem?_toList, hfirst, hsecond, List.getElem?_map,
    Option.map_eq_some_iff, Policy.linesEqual_iff]
  constructor
  · rintro ⟨key, ⟨x, hx, rfl⟩, y, hy, heq⟩
    refine ⟨x, y, hx, hy, (List.idxOf_inj (mem_distinctFrom (.inr ?_))).mp heq.symm⟩
    exact List.mem_map_of_mem (List.mem_append_left _ (List.mem_of_getElem? hx))
  · rintro ⟨x, y, hx, hy, heq⟩
    exact ⟨_, ⟨x, hx, rfl⟩, y, hy, by rw [heq]⟩

/-! ## Numbers by first occurrence -/

/-- The place of a new entry is the number of distinct ones before it. -/
theorem idxOf_distinctFrom_of_new {entry : String} {before : List String} (h : entry ∉ before)
    (after : List String) :
    (distinctFrom [] (before ++ entry :: after)).idxOf entry =
      (distinctFrom [] before).length := by
  have hnew : entry ∉ distinctFrom [] before := fun hin => by
    simpa [h] using mem_distinctFrom_iff.mp hin
  rw [distinctFrom_append, distinctFrom, if_neg hnew, idxOf_distinctFrom (by simp),
    List.idxOf_append_of_notMem hnew, List.idxOf_cons_self, Nat.add_zero]

section NumbersLines

variable {policy : Policy} {lines : List String} {keys keys' : List Nat} {i : Nat} {line : String}

/-- Whether line `i` is the first of its kind: it exists, and no line before it is equal to it under
the policy. -/
def isFirst (policy : Policy) (lines : List String) (i : Nat) : Bool :=
  lines[i]?.any fun line => (lines.take i).all fun earlier => !policy.linesEqual earlier line

/-- The keys number the lines by first occurrence. There is one for each line, two lines have the
same exactly when they are equal under the policy, and the lines that are the first of their kind
have, in order, the keys 0, 1, 2, … -/
structure NumbersLines (policy : Policy) (lines : List String) (keys : List Nat) : Prop where
  length_eq : keys.length = lines.length
  eq_iff : ∀ i j : Nat, ∀ x y, lines[i]? = some x → lines[j]? = some y →
    (keys[i]? = keys[j]? ↔ policy.linesEqual x y = true)
  first : ∀ i, isFirst policy lines i = true →
    keys[i]? = some ((List.range i).countP (isFirst policy lines))

/-- A line is the first of its kind if its normal form is new. -/
theorem isFirst_iff (hline : lines[i]? = some line) :
    isFirst policy lines i = true ↔
      policy.lineKey line ∉ (lines.take i).map policy.lineKey := by
  simp only [isFirst, hline, Option.any_some, List.all_eq_true, Bool.not_eq_true',
    Policy.linesEqual, beq_eq_false_iff_ne, List.mem_map, not_exists, not_and]

/-- Only lines that exist are the first of their kind. -/
theorem exists_of_isFirst (h : isFirst policy lines i = true) : ∃ line, lines[i]? = some line := by
  cases hline : lines[i]? with
  | none => simp [isFirst, hline] at h
  | some line => exact ⟨line, rfl⟩

/-- A line that is not the first of its kind has an equal one before it. -/
theorem exists_lt_of_isFirst_eq_false (hline : lines[i]? = some line)
    (h : isFirst policy lines i = false) :
    ∃ j < i, ∃ earlier, lines[j]? = some earlier ∧ policy.linesEqual earlier line = true := by
  have hseen : policy.lineKey line ∈ (lines.take i).map policy.lineKey := by
    by_contra hnew
    rw [(isFirst_iff hline).mpr hnew] at h
    cases h
  obtain ⟨earlier, hmem, hequal⟩ := List.mem_map.mp hseen
  obtain ⟨j, hj⟩ := List.mem_iff_getElem?.mp hmem
  rw [List.getElem?_take] at hj
  split at hj
  · exact ⟨j, ‹j < i›, earlier, hj, Policy.linesEqual_iff.mpr hequal⟩
  · cases hj

/-- Lines have only one numbering by first occurrence. -/
theorem NumbersLines.unique (h : NumbersLines policy lines keys)
    (h' : NumbersLines policy lines keys') : keys = keys' := by
  refine List.ext_getElem? fun i => ?_
  induction i using Nat.strongRecOn with
  | ind i ih =>
    cases hline : lines[i]? with
    | none =>
      have hlength := List.getElem?_eq_none_iff.mp hline
      rw [List.getElem?_eq_none (h.length_eq ▸ hlength),
        List.getElem?_eq_none (h'.length_eq ▸ hlength)]
    | some line =>
      cases hfirst : isFirst policy lines i with
      | true => rw [h.first i hfirst, h'.first i hfirst]
      | false =>
        obtain ⟨j, hj, earlier, hearlier, hequal⟩ := exists_lt_of_isFirst_eq_false hline hfirst
        rw [← (h.eq_iff j i _ _ hearlier hline).mpr hequal,
          ← (h'.eq_iff j i _ _ hearlier hline).mpr hequal]
        exact ih j hj

/-- There are as many distinct normal forms before line `i` as lines before it that are the first of
their kind. -/
theorem length_distinctFrom_take (policy : Policy) (lines : List String) (i : Nat) :
    (distinctFrom [] ((lines.take i).map policy.lineKey)).length =
      (List.range i).countP (isFirst policy lines) := by
  induction i with
  | zero => rfl
  | succ i ih =>
    rw [List.range_succ, List.countP_append, List.countP_singleton, List.take_add_one,
      List.map_append, distinctFrom_append, ← ih]
    cases hline : lines[i]? with
    | none => simp [isFirst, hline, distinctFrom]
    | some line =>
      have hseen : policy.lineKey line ∈ distinctFrom [] ((lines.take i).map policy.lineKey) ↔
          ¬isFirst policy lines i = true := by
        rw [mem_distinctFrom_iff, isFirst_iff hline, not_not]
        simp
      rw [Option.toList_some, List.map_singleton, distinctFrom, distinctFrom, distinctFrom]
      by_cases hfirst : isFirst policy lines i = true
      · rw [if_neg fun h => hseen.mp h hfirst, if_pos hfirst, List.length_append]
        rfl
      · rw [if_pos (hseen.mpr hfirst), if_neg hfirst]
        rfl

/-- The places of their normal forms among the distinct ones number the lines by first
occurrence. -/
theorem numbersLines_idxOf (policy : Policy) (lines : List String) :
    NumbersLines policy lines (lines.map fun line =>
      (distinctFrom [] (lines.map policy.lineKey)).idxOf (policy.lineKey line)) := by
  refine ⟨List.length_map _, fun i j x y hx hy => ?_, fun i hfirst => ?_⟩
  · have hmem : policy.lineKey x ∈ distinctFrom [] (lines.map policy.lineKey) :=
      mem_distinctFrom (.inr (List.mem_map_of_mem (List.mem_of_getElem? hx)))
    rw [List.getElem?_map, List.getElem?_map, hx, hy, Option.map_some, Option.map_some,
      Option.some_inj, List.idxOf_inj hmem, Policy.linesEqual_iff]
  · obtain ⟨line, hline⟩ := exists_of_isFirst hfirst
    have hsplit : lines.map policy.lineKey = (lines.take i).map policy.lineKey ++
        policy.lineKey line :: (lines.drop (i + 1)).map policy.lineKey := by
      obtain ⟨hi, hget⟩ := List.getElem?_eq_some_iff.mp hline
      rw [← List.map_cons, ← List.map_append, ← hget, List.getElem_cons_drop,
        List.take_append_drop]
    rw [List.getElem?_map, hline, Option.map_some, ← length_distinctFrom_take, hsplit,
      idxOf_distinctFrom_of_new ((isFirst_iff hline).mp hfirst)]

/-- Numbering goes by what the table holds and not by how it holds it. -/
theorem assignKeys_congr {table table' : KeyTable} (h : table.Equiv table')
    (entries : List String) : (assignKeys table entries).1 = (assignKeys table' entries).1 := by
  induction entries generalizing table table' with
  | nil => rfl
  | cons entry rest ih =>
    have hrest := ih (h.insertIfNew entry table.size)
    simp only [assignKeys, h.getD_eq, h.size_eq] at hrest ⊢
    rw [hrest]

/-- The lines of two documents are numbered by first occurrence in the first and then the second:
any two lines, of one document or of both, have the same key exactly when they are equal under the
policy. There is only one such numbering, and the order in which a table holds its entries does not
matter. -/
theorem internLines_numbers (policy : Policy) (lines₁ lines₂ : Array String) :
    let keys := internLines policy lines₁ lines₂
    keys.1.size = lines₁.size ∧ keys.2.size = lines₂.size ∧
      NumbersLines policy (lines₁.toList ++ lines₂.toList) (keys.1.toList ++ keys.2.toList) ∧
      (∀ others, NumbersLines policy (lines₁.toList ++ lines₂.toList) others →
        others = keys.1.toList ++ keys.2.toList) ∧
      ∀ table table' : KeyTable, table.Equiv table' → ∀ entries,
        (assignKeys table entries).1 = (assignKeys table' entries).1 := by
  intro keys
  obtain ⟨hsize₁, hsize₂⟩ := size_internLines policy lines₁ lines₂
  obtain ⟨hkeys₁, hkeys₂⟩ := internLines_eq policy lines₁ lines₂
  have hnumbers :
      NumbersLines policy (lines₁.toList ++ lines₂.toList) (keys.1.toList ++ keys.2.toList) := by
    rw [hkeys₁, hkeys₂, ← List.map_append]
    exact numbersLines_idxOf policy _
  exact ⟨hsize₁, hsize₂, hnumbers, fun others hothers => hothers.unique hnumbers,
    fun table table' h entries => assignKeys_congr h entries⟩

/-- Without blanks at their ends three of four lines are equal. Two tables with the same entries,
put in one way and the other, number a list alike. -/
theorem internLines_numbers_indented :
    let keys := internLines .trim #["a", " a"] #["b", "a\t"]
    let table : KeyTable := ((∅ : KeyTable).insert "a" 0).insert "b" 1
    let table' : KeyTable := ((∅ : KeyTable).insert "b" 1).insert "a" 0
    keys = (#[0, 0], #[1, 0]) ∧
      NumbersLines .trim ["a", " a", "b", "a\t"] [0, 0, 1, 0] ∧
      [0, 0, 1, 0] = keys.1.toList ++ keys.2.toList ∧
      table.Equiv table' ∧
      (assignKeys table ["b", "c", "a"]).1 = (assignKeys table' ["b", "c", "a"]).1 := by
  intro keys table table'
  have hkeys : keys = (#[0, 0], #[1, 0]) := by
    rw [show keys = _ from internLines_eq_toArray .trim #["a", " a"] #["b", "a\t"]]
    decide +kernel
  have hequiv : table.Equiv table' := by
    refine Std.HashMap.Equiv.of_forall_getElem?_eq fun entry => ?_
    simp only [table, table', Std.HashMap.getElem?_insert]
    by_cases ha : "a" = entry
    · subst ha
      simp
    · simp [ha]
  obtain ⟨-, -, hnumbers, hunique, htable⟩ :=
    internLines_numbers .trim #["a", " a"] #["b", "a\t"]
  rw [show internLines .trim #["a", " a"] #["b", "a\t"] = _ from hkeys] at hnumbers hunique
  refine ⟨hkeys, hnumbers, ?_, hequiv, htable table table' hequiv _⟩
  rw [hkeys]
  exact hunique _ hnumbers

end NumbersLines

end Linewise
