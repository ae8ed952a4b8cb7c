/-!
# Longest common subsequences

What two sequences have in common is measured by the longest sequence that is a
sublist of both. A script keeps a common subsequence, so it is shortest exactly
when it keeps a longest one.
-/

namespace Linewise

/-- `s` is a common subsequence of `a` and `b`. -/
def IsCommon {α : Type} (s a b : List α) : Prop := s.Sublist a ∧ s.Sublist b

/-- `k` is the length of a longest common subsequence of `a` and `b`. -/
def IsLongestCommon {α : Type} (k : Nat) (a b : List α) : Prop :=
  (∃ s, IsCommon s a b ∧ s.length = k) ∧ ∀ s, IsCommon s a b → s.length ≤ k

/-- Two sequences have only one such length. -/
theorem IsLongestCommon.unique {α : Type} {k l : Nat} {a b : List α}
    (hk : IsLongestCommon k a b) (hl : IsLongestCommon l a b) : k = l := by
  obtain ⟨s, hs, rfl⟩ := hk.1
  obtain ⟨t, ht, rfl⟩ := hl.1
  exact Nat.le_antisymm (hl.2 s hs) (hk.2 t ht)

/-- What is common to `a` and `b` is common to `b` and `a`. -/
theorem IsLongestCommon.symm {α : Type} {k : Nat} {a b : List α} (h : IsLongestCommon k a b) :
    IsLongestCommon k b a :=
  ⟨h.1.imp fun _ hs => ⟨hs.1.symm, hs.2⟩, fun s hs => h.2 s hs.symm⟩

end Linewise
