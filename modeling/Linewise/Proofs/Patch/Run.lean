import Linewise.Side

/-!
# Runs of matched lines

Between two fragments of a patch both documents run on side by side. A run leads
from one pair of line numbers to another by equal steps on both sides, and every
pair on the way belongs to a given relation, such as equality of the keys or of the
lines themselves.
-/

namespace Linewise

/-- Entry `i` on the left and entry `j` on the right exist and are equal. -/
def Agree {α : Type} (v : TwoSided (Array α)) (i j : Nat) : Prop :=
  ∃ x, v.left[i]? = some x ∧ v.right[j]? = some x

namespace Agree

variable {α : Type} {v : TwoSided (Array α)} {i j : Nat}

/-- An equal entry on the left agrees with the same entries. -/
theorem congr_left (v : TwoSided (Array α)) (i i' j : Nat) (h : v.left[i]? = v.left[i']?)
    (hagree : Agree v i j) : Agree v i' j := by
  obtain ⟨x, hleft, hright⟩ := hagree
  exact ⟨x, h ▸ hleft, hright⟩

/-- An equal entry on the right agrees with the same entries. -/
theorem congr_right (v : TwoSided (Array α)) (j j' i : Nat) (h : v.right[j]? = v.right[j']?)
    (hagree : Agree v i j) : Agree v i j' := by
  obtain ⟨x, hleft, hright⟩ := hagree
  exact ⟨x, hleft, h ▸ hright⟩

/-- Equal entries agree if there are any. -/
theorem of_getElem?_eq (hi : i < v.left.size) (h : v.left[i]? = v.right[j]?) : Agree v i j :=
  ⟨v.left[i], Array.getElem?_eq_getElem hi, h ▸ Array.getElem?_eq_getElem hi⟩

/-- Entries agree only where there are any. -/
theorem lt_size (h : Agree v i j) : i < v.left.size ∧ j < v.right.size := by
  obtain ⟨x, hleft, hright⟩ := h
  exact ⟨(Array.getElem?_eq_some_iff.mp hleft).1, (Array.getElem?_eq_some_iff.mp hright).1⟩

/-- Entries agree exactly if there is one on the left and the same is found on the right. -/
theorem iff_getElem?_eq : Agree v i j ↔ i < v.left.size ∧ v.left[i]? = v.right[j]? := by
  constructor
  · rintro ⟨x, hleft, hright⟩
    exact ⟨(Array.getElem?_eq_some_iff.mp hleft).1, hleft.trans hright.symm⟩
  · rintro ⟨hi, hequal⟩
    exact of_getElem?_eq hi hequal

instance [DecidableEq α] : Decidable (Agree v i j) := decidable_of_iff' _ iff_getElem?_eq

end Agree

/-- The lines from `i` up to `i'` and those from `j` up to `j'` are as many, and each pair of them
belongs to `R`. -/
structure Run (R : Nat → Nat → Prop) (i j i' j' : Nat) : Prop where
  le₁ : i ≤ i'
  le₂ : j ≤ j'
  same_length : i' - i = j' - j
  pairs : ∀ k < i' - i, R (i + k) (j + k)

namespace Run

variable {R S : Nat → Nat → Prop} {i j p q i' j' : Nat}

/-- A run without lines. -/
theorem refl (R : Nat → Nat → Prop) (i j : Nat) : Run R i j i j :=
  ⟨Nat.le_refl _, Nat.le_refl _, by omega, fun k hk => by omega⟩

/-- A run of `length` pairs. -/
theorem of_length {length : Nat} (h : ∀ k < length, R (i + k) (j + k)) :
    Run R i j (i + length) (j + length) :=
  ⟨by omega, by omega, by omega, fun k hk => h k (by omega)⟩

/-- A pair of the relation is a run of length one. -/
theorem single (h : R i j) : Run R i j (i + 1) (j + 1) :=
  of_length fun k hk => by
    have hk : k = 0 := by omega
    simpa only [hk, Nat.add_zero] using h

/-- Two runs, one after the other, are one. -/
theorem trans (h : Run R i j p q) (h' : Run R p q i' j') : Run R i j i' j' := by
  refine ⟨Nat.le_trans h.le₁ h'.le₁, Nat.le_trans h.le₂ h'.le₂, ?_, fun k hk => ?_⟩
  · have := h.le₁
    have := h.le₂
    have := h'.le₁
    have := h'.le₂
    have := h.same_length
    have := h'.same_length
    omega
  · by_cases hfirst : k < p - i
    · exact h.pairs k hfirst
    · have := h.le₁
      have := h.le₂
      have := h.same_length
      have hpair := h'.pairs (k - (p - i)) (by omega)
      have hi : p + (k - (p - i)) = i + k := by omega
      have hj : q + (k - (p - i)) = j + k := by omega
      rwa [hi, hj] at hpair

/-- The pair at distance `k` from the start of a run. -/
theorem pair_at (h : Run R i j i' j') (hi : i ≤ p) (hp : p < i') (hpq : p - i = q - j)
    (hj : j ≤ q) : R p q := by
  have hpair := h.pairs (p - i) (by omega)
  have hfirst : i + (p - i) = p := by omega
  have hsecond : j + (p - i) = q := by omega
  rwa [hfirst, hsecond] at hpair

/-- The beginning of a run is a run. -/
theorem upTo (h : Run R i j i' j') (hi : i ≤ p) (hp : p ≤ i') (hpq : p - i = q - j) (hj : j ≤ q) :
    Run R i j p q :=
  ⟨hi, hj, hpq, fun k hk => h.pairs k (by omega)⟩

/-- The rest of a run is a run. -/
theorem since (h : Run R i j i' j') (hi : i ≤ p) (hp : p ≤ i') (hpq : p - i = q - j) (hj : j ≤ q) :
    Run R p q i' j' := by
  have := h.same_length
  have := h.le₂
  refine ⟨hp, by omega, by omega, ?_⟩
  intro k hk
  exact h.pair_at (by omega) (by omega) (by omega) (by omega)

/-- A run in a relation is a run in every larger one. -/
theorem mono (h : Run R i j i' j') (hRS : ∀ x y, R x y → S x y) : Run S i j i' j' :=
  ⟨h.le₁, h.le₂, h.same_length, fun k hk => hRS _ _ (h.pairs k hk)⟩

/-- A run moved down on both sides. -/
theorem offset {d e : Nat} (h : Run (fun x y => R (x + d) (y + e)) i j i' j') :
    Run R (i + d) (j + e) (i' + d) (j' + e) := by
  have := h.le₁
  have := h.le₂
  have := h.same_length
  refine ⟨by omega, by omega, by omega, ?_⟩
  intro k hk
  have hpair := h.pairs k (by omega)
  rwa [Nat.add_right_comm, Nat.add_right_comm j] at hpair

/-- A run seen from the other side. -/
theorem swap (h : Run R i j i' j') : Run (fun y x => R x y) j i j' i' :=
  ⟨h.le₂, h.le₁, h.same_length.symm, fun k hk => h.pairs k (by rw [h.same_length]; exact hk)⟩

end Run

end Linewise
