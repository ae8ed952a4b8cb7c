import Mathlib.Data.List.Forall2
import Linewise.Proofs.Comparison
import Linewise.Proofs.Script.CommonLength

/-!
# Lines in common under a policy

Two lines may be equal under a policy without being the same, so what two documents
have in common is a pair of sublists whose lines are equal one by one. Equal keys
stand for equal lines: the longest such sublists are as long as a longest common
subsequence of the keys, and this holds for the important lines alone as well.
-/

namespace Linewise

/-- `k` is the length of the longest sublists of `a` and `b` whose elements stand one by one in
`r`. -/
def IsLongestCommonUnder {α : Type} (r : α → α → Prop) (k : Nat) (a b : List α) : Prop :=
  (∃ s t, s.Sublist a ∧ t.Sublist b ∧ List.Forall₂ r s t ∧ s.length = k) ∧
    ∀ s t, s.Sublist a → t.Sublist b → List.Forall₂ r s t → s.length ≤ k

/-- Whether there is a line at `index` and it has at least `threshold` visible characters. -/
def importantAt (threshold : Nat) (lines : Array String) (index : Nat) : Bool :=
  lines[index]?.any (threshold ≤ Line.visibleCount ·)

/-- The lines of a document with at least `threshold` visible characters, in order. -/
def Document.importantLines (d : Document) (threshold : Nat) : List String :=
  d.lines.toList.filter (threshold ≤ Line.visibleCount ·)

section Keys

variable {α κ : Type} {r : α → α → Prop} {key : α → κ} {a b s t : List α} {k : Nat}

/-- Elements stand one by one in a relation that is equality of keys exactly when their keys are the
same lists. -/
theorem forall₂_iff_map_eq (h : ∀ x ∈ s, ∀ y ∈ t, r x y ↔ key x = key y) :
    List.Forall₂ r s t ↔ s.map key = t.map key := by
  rw [← List.forall₂_eq_eq_eq, List.forall₂_map_left_iff, List.forall₂_map_right_iff]
  constructor
  · exact fun hst => List.forall₂_iff_get.mpr ⟨hst.length_eq, fun i hi hi' =>
      (h _ (List.get_mem _ _) _ (List.get_mem _ _)).mp (hst.get hi hi')⟩
  · exact fun hst => List.forall₂_iff_get.mpr ⟨hst.length_eq, fun i hi hi' =>
      (h _ (List.get_mem _ _) _ (List.get_mem _ _)).mpr (hst.get hi hi')⟩

/-- Where the relation is equality of keys, the longest sublists in it are as long as a longest
common subsequence of the keys. -/
theorem isLongestCommonUnder_of_map (h : ∀ x ∈ a, ∀ y ∈ b, r x y ↔ key x = key y)
    (hk : IsLongestCommon k (a.map key) (b.map key)) : IsLongestCommonUnder r k a b := by
  obtain ⟨⟨u, ⟨hua, hub⟩, rfl⟩, hmax⟩ := hk
  constructor
  · obtain ⟨s, hs, rfl⟩ := List.sublist_map_iff.mp hua
    obtain ⟨t, ht, heq⟩ := List.sublist_map_iff.mp hub
    refine ⟨s, t, hs, ht, (forall₂_iff_map_eq fun x hx y hy => ?_).mpr heq, by simp⟩
    exact h x (hs.subset hx) y (ht.subset hy)
  · intro s t hs ht hst
    have heq := (forall₂_iff_map_eq fun x hx y hy =>
      h x (hs.subset hx) y (ht.subset hy)).mp hst
    have hle := hmax (s.map key) ⟨hs.map key, heq ▸ ht.map key⟩
    rwa [List.length_map] at hle

end Keys

/-- A sequence is what is found at its indices. -/
theorem toList_eq_map_range {α : Type} (a : Array α) (default : α) :
    a.toList = (List.range a.size).map (a.getD · default) := by
  apply List.ext_getElem
  · simp
  · intro i hi hi'
    have hi : i < a.size := by simpa using hi
    simp [Array.getD_eq_getD_getElem?, hi]

/-- The keys at the indices of the important lines are the keys of these lines. -/
theorem map_getD_importantIndices {key : String → Nat} {keys : Array Nat} {lines : Array String}
    (threshold : Nat) (hkeys : keys.toList = lines.toList.map key) :
    (Script.importantIndices threshold lines).toList.map (keys.getD · 0) =
      ((Document.mk lines).importantLines threshold).map key := by
  have hat (i : Nat) : keys[i]? = lines[i]?.map key := by
    rw [← Array.getElem?_toList, hkeys, List.getElem?_map, Array.getElem?_toList]
  rw [Document.importantLines, toList_eq_map_range lines "", List.filter_map, List.map_map,
    Script.importantIndices, Array.toList_filter, Array.toList_range]
  have hfilter : (List.range lines.size).filter
        (fun i => lines[i]?.any (threshold ≤ Line.visibleCount ·)) =
      (List.range lines.size).filter
        ((fun line => decide (threshold ≤ Line.visibleCount line)) ∘ (lines.getD · "")) := by
    refine List.filter_congr fun i hi => ?_
    have hi := List.mem_range.mp hi
    simp [Array.getD_eq_getD_getElem?, hi]
  rw [hfilter]
  refine List.map_congr_left fun i hi => ?_
  have hi := List.mem_range.mp (List.mem_of_mem_filter hi)
  simp [Array.getD_eq_getD_getElem?, hat, hi]

/-- The important lines of two documents have under a policy as much in common as their keys. -/
theorem isLongestCommonUnder_importantLines (policy : Policy) (threshold : Nat)
    (lines₁ lines₂ : Array String) :
    let keys := internLines policy lines₁ lines₂
    IsLongestCommonUnder (fun x y => policy.linesEqual x y = true)
      (commonLength ((Script.importantIndices threshold lines₁).toList.map (keys.1.getD · 0))
        ((Script.importantIndices threshold lines₂).toList.map (keys.2.getD · 0)))
      ((Document.mk lines₁).importantLines threshold)
      ((Document.mk lines₂).importantLines threshold) := by
  intro keys
  obtain ⟨hkeys₁, hkeys₂⟩ := internLines_eq policy lines₁ lines₂
  rw [map_getD_importantIndices threshold hkeys₁, map_getD_importantIndices threshold hkeys₂]
  refine isLongestCommonUnder_of_map (fun x hx y _ => ?_) (isLongestCommon_commonLength _ _)
  have hx : x ∈ lines₁.toList := List.mem_of_mem_filter hx
  rw [Policy.linesEqual_iff]
  refine ⟨fun h => by rw [h], fun h => (List.idxOf_inj (mem_distinctFrom (.inr ?_))).mp h⟩
  exact List.mem_map_of_mem (List.mem_append_left _ hx)

end Linewise
