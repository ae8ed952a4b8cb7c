import Linewise.Script.Basic
import Linewise.Script.CommonSubsequence
import Mathlib.Data.List.Basic

/-!
# The length of a longest common subsequence

`commonLength` computes by recursion what `IsLongestCommon` describes. A script
between two sequences keeps a common subsequence of them, so the number of its
edits is at least what a longest one leaves, and some script has no more:
`Script.IsShortest` says that a script is such.
-/

namespace Linewise

variable {α : Type} [DecidableEq α] {a b c d s : List α} {x y : α}

/-- The length of a longest common subsequence. -/
def commonLength : List α → List α → Nat
  | [], _ => 0
  | _, [] => 0
  | x :: a, y :: b =>
    if x = y then commonLength a b + 1
    else max (commonLength a (y :: b)) (commonLength (x :: a) b)

omit [DecidableEq α] in
/-- A common subsequence of two sequences with different heads lacks one of the heads. -/
theorem IsCommon.of_cons_of_ne (h : IsCommon s (x :: a) (y :: b)) (hne : x ≠ y) :
    IsCommon s a (y :: b) ∨ IsCommon s (x :: a) b := by
  rcases List.sublist_cons_iff.mp h.1 with ha | ⟨r, rfl, ha⟩
  · exact .inl ⟨ha, h.2⟩
  rcases List.sublist_cons_iff.mp h.2 with hb | ⟨t, heq, hb⟩
  · exact .inr ⟨h.1, hb⟩
  · exact absurd (List.cons.inj heq).1 hne

/-- The recursion gives the length of a longest common subsequence. -/
theorem isLongestCommon_commonLength (a b : List α) :
    IsLongestCommon (commonLength a b) a b := by
  fun_induction commonLength a b with
  | case1 b =>
    refine ⟨⟨[], ⟨List.nil_sublist _, List.nil_sublist _⟩, rfl⟩, ?_⟩
    intro s hs
    simp [List.sublist_nil.mp hs.1]
  | case2 a =>
    refine ⟨⟨[], ⟨List.nil_sublist _, List.nil_sublist _⟩, rfl⟩, ?_⟩
    intro s hs
    simp [List.sublist_nil.mp hs.2]
  | case3 a x b ih =>
    obtain ⟨⟨s, hs, hlength⟩, hmax⟩ := ih
    refine ⟨⟨x :: s, ⟨hs.1.cons_cons x, hs.2.cons_cons x⟩, by simp [hlength]⟩, ?_⟩
    intro t ht
    have htail := hmax t.tail ⟨ht.1.tail, ht.2.tail⟩
    rw [List.length_tail] at htail
    omega
  | case4 x a y b hne ihLeft ihRight =>
    constructor
    · rcases Nat.le_total (commonLength a (y :: b)) (commonLength (x :: a) b) with hle | hle
      · obtain ⟨s, hs, hlength⟩ := ihRight.1
        exact ⟨s, ⟨hs.1, hs.2.cons y⟩, by omega⟩
      · obtain ⟨s, hs, hlength⟩ := ihLeft.1
        exact ⟨s, ⟨hs.1.cons x, hs.2⟩, by omega⟩
    · intro s hs
      rcases hs.of_cons_of_ne hne with hs | hs
      · have := ihLeft.2 s hs
        omega
      · have := ihRight.2 s hs
        omega

/-- No common subsequence is longer. -/
theorem IsCommon.length_le (h : IsCommon s a b) : s.length ≤ commonLength a b :=
  (isLongestCommon_commonLength a b).2 s h

/-- Some common subsequence is as long. -/
theorem exists_isCommon (a b : List α) : ∃ s, IsCommon s a b ∧ s.length = commonLength a b :=
  (isLongestCommon_commonLength a b).1

/-- Longer sequences have no less in common. -/
theorem commonLength_mono (ha : a.Sublist c) (hb : b.Sublist d) :
    commonLength a b ≤ commonLength c d := by
  obtain ⟨s, hs, hlength⟩ := exists_isCommon a b
  have := IsCommon.length_le (⟨hs.1.trans ha, hs.2.trans hb⟩ : IsCommon s c d)
  omega

/-- What is common is no longer than either sequence. -/
theorem commonLength_le (a b : List α) :
    commonLength a b ≤ a.length ∧ commonLength a b ≤ b.length := by
  obtain ⟨s, hs, hlength⟩ := exists_isCommon a b
  have := hs.1.length_le
  have := hs.2.length_le
  omega

/-- A sequence that has all its elements in common with an equally long one equals it. -/
theorem eq_of_commonLength (ha : commonLength a b = a.length) (hb : commonLength a b = b.length) :
    a = b := by
  obtain ⟨s, hs, hlength⟩ := exists_isCommon a b
  rw [← hs.1.eq_of_length (by omega), ← hs.2.eq_of_length (by omega)]

/-- Common subsequences of two parts are one of the whole. -/
theorem commonLength_append_le (a b c d : List α) :
    commonLength a b + commonLength c d ≤ commonLength (a ++ c) (b ++ d) := by
  obtain ⟨s, hs, hs'⟩ := exists_isCommon a b
  obtain ⟨t, ht, ht'⟩ := exists_isCommon c d
  have := IsCommon.length_le
    (⟨hs.1.append ht.1, hs.2.append ht.2⟩ : IsCommon (s ++ t) (a ++ c) (b ++ d))
  rw [List.length_append] at this
  omega

/-- Reversed sequences have as much in common. -/
theorem commonLength_reverse (a b : List α) :
    commonLength a.reverse b.reverse = commonLength a b := by
  have hle (a b : List α) : commonLength a b ≤ commonLength a.reverse b.reverse := by
    obtain ⟨s, hs, hlength⟩ := exists_isCommon a b
    have := IsCommon.length_le
      (⟨hs.1.reverse, hs.2.reverse⟩ : IsCommon s.reverse a.reverse b.reverse)
    rw [List.length_reverse] at this
    omega
  have hback := hle a.reverse b.reverse
  rw [List.reverse_reverse, List.reverse_reverse] at hback
  exact Nat.le_antisymm hback (hle a b)

/-- A shared beginning counts in full. -/
theorem commonLength_append_left (p a b : List α) :
    commonLength (p ++ a) (p ++ b) = p.length + commonLength a b := by
  induction p with
  | nil => simp
  | cons x p ih => simp only [List.cons_append, commonLength, if_pos, ih, List.length_cons]; omega

/-- A shared end counts in full. -/
theorem commonLength_append_right (a b p : List α) :
    commonLength (a ++ p) (b ++ p) = commonLength a b + p.length := by
  rw [← commonLength_reverse, List.reverse_append, List.reverse_append, commonLength_append_left,
    commonLength_reverse, List.length_reverse, Nat.add_comm]

/-- What is added at the back of one sequence adds at most its length. -/
theorem commonLength_append_le_add (a b c : List α) :
    commonLength (a ++ c) b ≤ commonLength a b + c.length := by
  obtain ⟨s, hs, hlength⟩ := exists_isCommon (a ++ c) b
  obtain ⟨t, u, rfl, ht, hu⟩ := List.sublist_append_iff.mp hs.1
  have := IsCommon.length_le (⟨ht, (List.sublist_append_left t u).trans hs.2⟩ : IsCommon t a b)
  have := hu.length_le
  rw [List.length_append] at hlength
  omega

/-- Different last elements are not both matched. -/
theorem commonLength_append_singleton_of_ne (a b : List α) (hne : x ≠ y) :
    commonLength (a ++ [x]) (b ++ [y]) =
      max (commonLength a (b ++ [y])) (commonLength (a ++ [x]) b) := by
  rw [← commonLength_reverse, List.reverse_append, List.reverse_append, List.reverse_singleton,
    List.reverse_singleton, List.singleton_append, List.singleton_append, commonLength,
    if_neg hne, ← commonLength_reverse a, ← commonLength_reverse (a ++ [x])]
  simp only [List.reverse_append, List.reverse_singleton, List.singleton_append]

/-- The order of the sequences does not matter. -/
theorem commonLength_comm (a b : List α) : commonLength a b = commonLength b a :=
  (isLongestCommon_commonLength a b).unique (isLongestCommon_commonLength b a).symm

namespace Script

variable {script t : Script}

/-- A script has no fewer edits than a longest common subsequence leaves. -/
theorem Transforms.length_add_length_le (h : Transforms script a b) :
    a.length + b.length ≤ script.cost + 2 * commonLength a b := by
  induction h with
  | done => simp
  | keep x _ ih =>
    simp only [commonLength, if_pos, cost, List.length_cons]
    omega
  | @delete script a b x _ ih =>
    have := commonLength_mono (List.sublist_cons_self x a) (List.Sublist.refl b)
    simp only [cost, List.length_cons]
    omega
  | @insert script a b x _ ih =>
    have := commonLength_mono (List.Sublist.refl a) (List.sublist_cons_self x b)
    simp only [cost, List.length_cons]
    omega

/-- A script from `a` to `b` with no more edits than a longest common subsequence leaves. -/
structure IsShortest (script : Script) (a b : List α) : Prop where
  transforms : Transforms script a b
  cost_eq : script.cost + 2 * commonLength a b = a.length + b.length

/-- Where nothing is common, replacing all is shortest. -/
theorem isShortest_replaced (h : commonLength a b = 0) :
    IsShortest (replaced a.length b.length) a b :=
  ⟨transforms_replaced a b, by rw [cost_replaced, h]; rfl⟩

/-- There is always a shortest script. -/
theorem exists_isShortest (a b : List α) : ∃ script, IsShortest script a b := by
  fun_induction commonLength a b with
  | case1 b => exact ⟨_, isShortest_replaced (by simpa using (commonLength_le [] b).1)⟩
  | case2 a hne => exact ⟨_, isShortest_replaced (by simpa using (commonLength_le a []).2)⟩
  | case3 a x b ih =>
    obtain ⟨script, htransforms, hcost⟩ := ih
    refine ⟨.keep :: script, htransforms.keep x, ?_⟩
    simp only [cost, commonLength, if_pos, List.length_cons]
    omega
  | case4 x a y b hne ihLeft ihRight =>
    rcases Nat.le_total (commonLength a (y :: b)) (commonLength (x :: a) b) with hle | hle
    · obtain ⟨script, htransforms, hcost⟩ := ihRight
      refine ⟨.insert :: script, htransforms.insert y, ?_⟩
      simp only [cost, commonLength, if_neg hne, List.length_cons] at hcost ⊢
      omega
    · obtain ⟨script, htransforms, hcost⟩ := ihLeft
      refine ⟨.delete :: script, htransforms.delete x, ?_⟩
      simp only [cost, commonLength, if_neg hne, List.length_cons] at hcost ⊢
      omega

/-- Keeping what two sequences share at the front is part of a shortest script. -/
theorem IsShortest.kept_append (p : List α) (h : IsShortest script a b) :
    IsShortest (kept p.length ++ script) (p ++ a) (p ++ b) := by
  refine ⟨(transforms_kept p).append h.transforms, ?_⟩
  have := h.cost_eq
  rw [cost_append, cost_kept, commonLength_append_left, List.length_append, List.length_append]
  omega

/-- Keeping what two sequences share at the back is part of a shortest script. -/
theorem IsShortest.append_kept (p : List α) (h : IsShortest script a b) :
    IsShortest (script ++ kept p.length) (a ++ p) (b ++ p) := by
  refine ⟨h.transforms.append (transforms_kept p), ?_⟩
  have := h.cost_eq
  rw [cost_append, cost_kept, commonLength_append_right, List.length_append, List.length_append]
  omega

end Script

end Linewise
