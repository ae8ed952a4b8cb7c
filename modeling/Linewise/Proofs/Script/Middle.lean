import Linewise.Proofs.Script.Shortest

/-!
# Splitting at the middle

A gap that is too long to be searched directly is split at its middle snake. The
snake lies inside the gap, both pieces around it are smaller, and longest common
subsequences of the pieces make, with the snake's matches, a longest one of the
gap. So a shortest script is always found by going on with smaller pieces, and never
by replacing all of a gap.
-/

namespace Linewise

namespace Snake

variable {s : Snake} {a b : Array Nat}

/-- Neither what is before the snake nor what is after it is all of two sequences of `n` and `m`
elements. -/
def Splits (s : Snake) (n m : Nat) : Prop :=
  ¬(s.xStart = n ∧ s.yStart = m) ∧ ¬(s.xStop = 0 ∧ s.yStop = 0)

/-- The snake is a run of equal elements inside two sequences. Both pieces around it are smaller
than the whole, and what is common in the pieces and in the snake is as long as what is common in
the whole. -/
structure IsMiddle (s : Snake) (a b : Array Nat) : Prop where
  xStart_le : s.xStart ≤ s.xStop
  yStart_le : s.yStart ≤ s.yStop
  xStop_le : s.xStop ≤ a.size
  yStop_le : s.yStop ≤ b.size
  same_length : s.xStop - s.xStart = s.yStop - s.yStart
  same_elements : a.extract s.xStart s.xStop = b.extract s.yStart s.yStop
  splits : s.Splits a.size b.size
  before_lt : s.xStart + s.yStart < a.size + b.size
  after_lt : (a.size - s.xStop) + (b.size - s.yStop) < a.size + b.size
  common : ∃ before after,
    IsLongestCommon before (a.extract 0 s.xStart).toList (b.extract 0 s.yStart).toList ∧
    IsLongestCommon after (a.extract s.xStop a.size).toList (b.extract s.yStop b.size).toList ∧
    IsLongestCommon (before + (s.xStop - s.xStart) + after) a.toList b.toList

/-- A sequence in three parts is cut at the ends of the second one. -/
theorem extract_of_append {p run r : List Nat} {start stop : Nat}
    (ha : a.toList = p ++ (run ++ r)) (hstart : p.length = start)
    (hstop : (p ++ run).length = stop) :
    (a.extract 0 start).toList = p ∧ (a.extract start stop).toList = run ∧
      (a.extract stop a.size).toList = r := by
  subst hstart hstop
  refine ⟨?_, ?_, ?_⟩
  · rw [Array.toList_extract, ha, List.extract_eq_take_drop, List.drop_zero, Nat.sub_zero,
      List.take_left]
  · rw [Array.toList_extract, ha, List.extract_eq_take_drop, List.drop_left, List.length_append,
      Nat.add_sub_cancel_left, List.take_left]
  · rw [Script.toList_extract_size, ha, ← List.append_assoc, List.drop_left]

/-- A snake that divides two sequences is in their middle. -/
theorem Divides.isMiddle (h : s.Divides a.toList b.toList) : s.IsMiddle a b := by
  obtain ⟨⟨p, q, run, r, t, ha, hb, hxStart, hyStart, hxStop, hyStop, hcommon⟩, hlt, hpos⟩ := h
  obtain ⟨hbefore, hrun, hafter⟩ := extract_of_append ha hxStart hxStop
  obtain ⟨hbefore', hrun', hafter'⟩ := extract_of_append hb hyStart hyStop
  have hsize := congrArg List.length ha
  have hsize' := congrArg List.length hb
  simp only [List.length_append, Array.length_toList] at hsize hsize' hxStop hyStop hlt
  have hlength : s.xStop - s.xStart = run.length := by omega
  refine ⟨by omega, by omega, by omega, by omega, by omega, ?_, ⟨by omega, by omega⟩, by omega,
    by omega, commonLength p q, commonLength r t, ?_, ?_, ?_⟩
  · exact Array.toList_inj.mp (hrun.trans hrun'.symm)
  · rw [hbefore, hbefore']
    exact isLongestCommon_commonLength p q
  · rw [hafter, hafter']
    exact isLongestCommon_commonLength r t
  · rw [hlength, hcommon]
    exact isLongestCommon_commonLength a.toList b.toList

end Snake

namespace Script

/-- Sequences that are not empty and share neither their first nor their last element have a middle
snake. So whatever is left of two sequences without what they share at either end, if it is too
long to be searched directly, is split at its middle snake into smaller pieces, and the script goes
on with these. -/
theorem middle_splits :
    (∀ a b : Array Nat, a ≠ #[] → b ≠ #[] → a[0]? ≠ b[0]? → a.back? ≠ b.back? →
      ∃ s, Snake.middle? a b = some s ∧ s.IsMiddle a b) ∧
    ∀ a b : Array Nat,
      let front := sharedFront a b
      let back := sharedBack front a b
      let a' := inner front back a
      let b' := inner front back b
      a' ≠ #[] → b' ≠ #[] → directLimit < a'.size + b'.size →
        ∃ s, Snake.middle? a' b' = some s ∧ s.IsMiddle a' b' ∧
          shortest a b = kept front ++
            (shortest (a'.extract 0 s.xStart) (b'.extract 0 s.yStart) ++
              kept (s.xStop - s.xStart) ++
              shortest (a'.extract s.xStop a'.size) (b'.extract s.yStop b'.size)) ++
            kept back := by
  constructor
  · intro a b ha hb hfirst hlast
    obtain ⟨s, hs, hdivides⟩ := Snake.middle_spec_of_ends_ne (a := a) (b := b)
      (by simpa using ha) (by simpa using hb)
      (by simpa [List.head?_eq_getElem?] using hfirst) (by simpa using hlast)
    exact ⟨s, hs, hdivides.isMiddle⟩
  · intro a b front back a' b' ha hb hlong
    have hfront : front = sharedFront a b := rfl
    have hback : back = sharedBack front a b := rfl
    obtain ⟨_, _, _, _, _, _, hends⟩ := exists_affixes a b hfront hback
    have hne : a'.toList ≠ [] := by simpa using ha
    have hne' : b'.toList ≠ [] := by simpa using hb
    obtain ⟨hhead, hlast⟩ := hends hne hne'
    obtain ⟨s, hs, hdivides⟩ := Snake.middle_spec_of_ends_ne hne hne' hhead hlast
    have hgo : s.xStart + s.yStart < a'.size + b'.size ∧ 0 < s.xStop + s.yStop :=
      ⟨hdivides.isMiddle.before_lt, hdivides.stop_pos⟩
    have hdirect : ¬(a'.isEmpty || b'.isEmpty || a'.size + b'.size ≤ directLimit) = true := by
      simp only [Bool.or_eq_true, Array.isEmpty_iff, decide_eq_true_eq, ha, hb, false_or]
      exact Nat.not_le.mpr hlong
    refine ⟨s, hs, hdivides.isMiddle, ?_⟩
    rw [shortest, if_neg hdirect, hs]
    dsimp only
    rw [if_pos hgo]

/-- Between two short words there is a middle snake. A line given 1024 times that gives way to
another is too long a gap to be searched directly, so it is split. -/
theorem middle_splits_unrelated :
    (∃ s, Snake.middle? #[0, 1, 2, 0, 1, 1, 0] #[2, 1, 0, 1, 0, 2] = some s ∧
      s.IsMiddle #[0, 1, 2, 0, 1, 1, 0] #[2, 1, 0, 1, 0, 2]) ∧
    let a := Array.replicate 1024 0
    let b := #[1]
    sharedFront a b = 0 ∧ sharedBack 0 a b = 0 ∧ inner 0 0 a = a ∧ inner 0 0 b = b ∧
      ∃ s, Snake.middle? a b = some s ∧ s.IsMiddle a b ∧
        shortest a b = shortest (a.extract 0 s.xStart) (b.extract 0 s.yStart) ++
          kept (s.xStop - s.xStart) ++
          shortest (a.extract s.xStop a.size) (b.extract s.yStop b.size) := by
  refine ⟨middle_splits.1 _ _ (by decide) (by decide) (by decide) (by decide), ?_⟩
  intro a b
  have hfront : sharedFront a b = 0 := by
    rw [sharedFront, Frontier.follow, dif_pos (by simp [a, b]), if_neg (by simp [a, b])]
  have hback : sharedBack 0 a b = 0 := by
    rw [sharedBack, Frontier.follow, dif_pos (by simp [a, b]), if_neg (by simp [a, b])]
  have ha : inner 0 0 a = a := by simp [inner]
  have hb : inner 0 0 b = b := by simp [inner]
  have hsplits := middle_splits.2 a b
  dsimp only at hsplits
  rw [hfront, hback, ha, hb] at hsplits
  obtain ⟨s, hs, hmiddle, hshortest⟩ := hsplits (by simp [a]) (by simp [b])
    (by simp [a, b, directLimit])
  refine ⟨hfront, hback, ha, hb, s, hs, hmiddle, ?_⟩
  simpa [kept] using hshortest

end Script

end Linewise
