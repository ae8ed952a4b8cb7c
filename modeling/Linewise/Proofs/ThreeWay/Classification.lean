import Linewise.ThreeWay.Change

/-!
# What a judgement says

A region of which a side differs from the base is judged, and the judgement says
which sides differ. It is a conflict exactly if both do and are not equal under the
policy.
-/

namespace Linewise

namespace Classification

/-- Two sides without lines are equal. -/
theorem sidesEqual_none (policy : Policy) : sidesEqual policy none none = true := by
  cases policy <;> rfl

/-- What both sides hold alike is equal under every policy. -/
theorem sidesEqual_self (policy : Policy) (content : Option String) :
    sidesEqual policy content content = true := by
  cases policy <;> cases content <;>
    simp [sidesEqual, Policy.contentEqual, Policy.textsEqual]

/-- When every character counts the sides are equal only if they hold the same. -/
theorem sidesEqual_exact {left right : Option String} :
    sidesEqual .exact left right = true ↔ left = right := by
  rw [sidesEqual, if_neg (by decide)]
  cases left <;> cases right <;> simp [Policy.contentEqual, Policy.textsEqual]

/-- A change that both sides made is a conflict if they are not equal. -/
theorem isConflict_ofBoth {policy : Policy} {alike : RegionKind} {left right : Option String}
    (halike : alike ≠ .conflict) :
    (ofBoth policy alike left right).isConflict = true ↔ sidesEqual policy left right = false := by
  unfold ofBoth both isConflict
  cases sidesEqual policy left right <;> simp [halike]

/-- The kind of a change that one side made is no conflict. -/
theorem kindOfSide_ne_conflict (content : Option String) : kindOfSide content ≠ .conflict := by
  cases content <;> simp [kindOfSide]

/-- Contents of which a side differs from the base are judged; the judgement says which sides
differ, and is a conflict if both do and are not equal. -/
theorem ofContents_spec (policy : Policy) {c : ThreeSided (Option String)}
    (h : c.left ≠ c.base ∨ c.right ≠ c.base) :
    ∃ k, ofContents policy c = .ok k ∧ (k.leftChanged = true ↔ c.left ≠ c.base) ∧
      (k.rightChanged = true ↔ c.right ≠ c.base) ∧
      (k.isConflict = true ↔
        c.left ≠ c.base ∧ c.right ≠ c.base ∧ sidesEqual policy c.left c.right = false) := by
  obtain ⟨left, base, right⟩ := c
  simp only at h ⊢
  cases base with
  | none =>
    cases left with
    | none => exact ⟨_, rfl, by simp [rightOnly], by simpa [rightOnly] using h,
        by simp [rightOnly, isConflict]⟩
    | some left =>
      cases right with
      | none => exact ⟨_, rfl, by simp [leftOnly], by simp [leftOnly],
          by simp [leftOnly, isConflict]⟩
      | some right =>
        refine ⟨_, rfl, by simp [ofBoth, both], by simp [ofBoth, both], ?_⟩
        rw [isConflict_ofBoth (by decide)]
        simp
  | some base =>
    by_cases hgone : left = none ∧ right = none
    · obtain ⟨rfl, rfl⟩ := hgone
      refine ⟨_, rfl, by simp [both], by simp [both], ?_⟩
      rw [sidesEqual_none]
      simp [both, isConflict]
    have hlines : (left.isNone && right.isNone) = false := by
      rw [Bool.eq_false_iff, ne_eq, Bool.and_eq_true, Option.isNone_iff_eq_none,
        Option.isNone_iff_eq_none]
      exact hgone
    simp only [ofContents, hlines, Bool.false_eq_true, if_false]
    by_cases hleft : left = some base
    · have hright : right ≠ some base := h.resolve_left fun hne => hne hleft
      rw [if_pos hleft, if_neg hright]
      have hkind := kindOfSide_ne_conflict right
      exact ⟨_, rfl, by simp [rightOnly, hleft], by simpa [rightOnly] using hright,
        by simp [rightOnly, isConflict, hleft, hkind]⟩
    rw [if_neg hleft]
    by_cases hright : right = some base
    · rw [if_pos hright]
      have hkind := kindOfSide_ne_conflict left
      exact ⟨_, rfl, by simpa [leftOnly] using hleft, by simp [leftOnly, hright],
        by simp [leftOnly, isConflict, hright, hkind]⟩
    · rw [if_neg hright]
      refine ⟨_, rfl, by simpa [ofBoth, both] using hleft, by simpa [ofBoth, both] using hright, ?_⟩
      rw [isConflict_ofBoth (by decide)]
      simp [hleft, hright]

end Classification

end Linewise
