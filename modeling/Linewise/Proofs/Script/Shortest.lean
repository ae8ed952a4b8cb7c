import Linewise.Proofs.Patch.Aligned
import Linewise.Proofs.Script.Direct
import Linewise.Proofs.Script.Snake
import Linewise.Script.Shortest

/-!
# Scripts and patches are shortest

Keeping what two sequences share at both ends, solving a short gap directly and
splitting a long one at its middle snake all lead to shortest scripts. The patch
of such a script is well formed and changes as few lines as a longest common
subsequence allows.
-/

namespace Linewise

open Frontier

/-- Sequences with different first and different last elements need two edits. -/
theorem two_le_of_ends_ne {α : Type} [DecidableEq α] {a b : List α} (ha : a ≠ []) (hb : b ≠ [])
    (hhead : a.head? ≠ b.head?) (hlast : a.getLast? ≠ b.getLast?) :
    2 + 2 * commonLength a b ≤ a.length + b.length := by
  obtain ⟨x, a, rfl⟩ := List.exists_cons_of_ne_nil ha
  obtain ⟨y, b, rfl⟩ := List.exists_cons_of_ne_nil hb
  have hne : x ≠ y := fun heq => hhead (by rw [List.head?_cons, List.head?_cons, heq])
  have hleft := commonLength_le a (y :: b)
  have hright := commonLength_le (x :: a) b
  simp only [List.length_cons] at hleft hright ⊢
  rw [commonLength, if_neg hne]
  by_contra hshort
  rcases Nat.le_total (commonLength a (y :: b)) (commonLength (x :: a) b) with hle | hle
  · have heq := eq_of_commonLength (a := x :: a) (b := b) (by rw [List.length_cons]; omega)
      (by omega)
    apply hlast
    rw [← heq, List.getLast?_cons_cons]
  · have heq := eq_of_commonLength (a := a) (b := y :: b) (by omega)
      (by rw [List.length_cons]; omega)
    apply hlast
    rw [heq, List.getLast?_cons_cons]

/-- Sequences with different first and different last elements have a middle snake, and it divides
them. -/
theorem Snake.middle_spec_of_ends_ne {a b : Array Nat} (ha : a.toList ≠ []) (hb : b.toList ≠ [])
    (hhead : a.toList.head? ≠ b.toList.head?) (hlast : a.toList.getLast? ≠ b.toList.getLast?) :
    ∃ s, middle? a b = some s ∧ s.Divides a.toList b.toList := by
  have htwo := two_le_of_ends_ne ha hb hhead hlast
  rw [Array.length_toList, Array.length_toList] at htwo
  exact middle_spec htwo

namespace Script

/-- A shortest script for what is before a snake that divides two sequences, its matches, and a
shortest script for what is after it make a shortest script. -/
theorem IsShortest.of_divides {s : Snake} {a b : List Nat} {before after : Script}
    (hs : s.Divides a b) (hbefore : IsShortest before (a.take s.xStart) (b.take s.yStart))
    (hafter : IsShortest after (a.drop s.xStop) (b.drop s.yStop)) :
    IsShortest (before ++ kept (s.xStop - s.xStart) ++ after) a b := by
  obtain ⟨p, q, run, r, t, rfl, rfl, hp, hq, hxStop, hyStop, hcommon⟩ := hs.exists_run
  have hlength : s.xStop - s.xStart = run.length := by
    rw [List.length_append] at hxStop
    omega
  rw [← hp, ← hq, List.take_left, List.take_left] at hbefore
  rw [← hxStop, ← hyStop, ← List.append_assoc, ← List.append_assoc, List.drop_left,
    List.drop_left] at hafter
  rw [hlength, List.append_assoc]
  refine ⟨hbefore.transforms.append ((transforms_kept run).append hafter.transforms), ?_⟩
  have := hbefore.cost_eq
  have := hafter.cost_eq
  simp only [cost_append, cost_kept, List.length_append]
  omega

/-- Following matches from the beginning splits off what two sequences share there. What remains of
them does not begin alike. -/
theorem exists_shared_front (a b : Array Nat) :
    ∃ p, p.length = follow a b 0 0 ∧ a.toList = p ++ a.toList.drop (follow a b 0 0) ∧
      b.toList = p ++ b.toList.drop (follow a b 0 0) ∧
      ∀ x, (a.toList.drop (follow a b 0 0)).head? = some x →
        (b.toList.drop (follow a b 0 0)).head? ≠ some x := by
  obtain ⟨y, hrun, hstop⟩ := follow_spec a b 0 0
  obtain rfl : y = follow a b 0 0 := by
    have := hrun.same_length
    omega
  obtain ⟨p, hlength, ha, hb⟩ := exists_append_of_run hrun
  rw [List.take_zero, List.nil_append] at ha hb
  refine ⟨p, hlength, ?_, ?_, fun x hx hy => hstop ⟨x, ?_, ?_⟩⟩
  · rw [← ha, List.take_append_drop]
  · rw [← hb, List.take_append_drop]
  · rw [← Array.getElem?_toList, ← hx, List.head?_drop]
  · rw [← Array.getElem?_toList, ← hy, List.head?_drop]

/-- The part of a sequence from `start` to its end. -/
theorem toList_extract_size (a : Array Nat) (start : Nat) :
    (a.extract start a.size).toList = a.toList.drop start := by
  rw [Array.toList_extract, List.extract_eq_take_drop, List.take_of_length_le (by simp)]

/-- What is left of a sequence after its front, without its back, is its inner part. -/
theorem toList_inner_reverse (front back : Nat) (a : Array Nat) :
    (inner front back a).toList.reverse =
      (a.extract front a.size).reverse.toList.drop back := by
  simp only [inner, Array.toList_reverse, Array.toList_extract, List.extract_eq_take_drop,
    List.drop_reverse, List.length_take, List.length_drop, Array.length_toList, Nat.min_self,
    List.take_take]
  congr 2
  omega

/-- What two sequences share at either end goes around their inner parts, which neither begin nor
end alike. -/
theorem exists_affixes (a b : Array Nat) {front back : Nat} (hfront : front = sharedFront a b)
    (hback : back = sharedBack front a b) :
    ∃ p q, p.length = front ∧ q.length = back ∧
      a.toList = p ++ ((inner front back a).toList ++ q) ∧
      b.toList = p ++ ((inner front back b).toList ++ q) ∧
      ((inner front back a).toList ≠ [] → (inner front back b).toList ≠ [] →
        (inner front back a).toList.head? ≠ (inner front back b).toList.head? ∧
        (inner front back a).toList.getLast? ≠ (inner front back b).toList.getLast?) := by
  obtain ⟨p, hp, ha, hb, hfirst⟩ := exists_shared_front a b
  obtain ⟨q, hq, hra, hrb, hlast⟩ := exists_shared_front (a.extract front a.size).reverse
    (b.extract front b.size).reverse
  rw [← sharedFront, ← hfront] at hp ha hb hfirst
  rw [← sharedBack, ← hback] at hq hra hrb hlast
  rw [← toList_inner_reverse] at hra hlast
  rw [← toList_inner_reverse] at hrb hlast
  have hrest (c : Array Nat) (h : (c.extract front c.size).reverse.toList =
      q ++ (inner front back c).toList.reverse) :
      c.toList.drop front = (inner front back c).toList ++ q.reverse := by
    rw [Array.toList_reverse, List.reverse_eq_iff, List.reverse_append, List.reverse_reverse] at h
    rw [← h, toList_extract_size]
  rw [hrest a hra] at ha hfirst
  rw [hrest b hrb] at hb hfirst
  refine ⟨p, q.reverse, hp, by simpa using hq, ha, hb, fun hne hne' => ⟨?_, ?_⟩⟩
  · have hx := List.head?_eq_some_head hne
    have hother := hfirst _ (by rw [List.head?_append, hx, Option.some_or])
    intro heq
    rw [List.head?_append, ← heq, hx, Option.some_or] at hother
    exact hother rfl
  · have hx := List.getLast?_eq_some_getLast hne
    intro heq
    refine hlast _ (by rw [List.head?_reverse, hx]) ?_
    rw [List.head?_reverse, ← heq, hx]

/-- Whatever its way to search, the script found is shortest. -/
theorem isShortest_shortest (a b : Array Nat) : IsShortest (shortest a b) a.toList b.toList := by
  induction hsize : a.size + b.size using Nat.strong_induction_on generalizing a b with
  | _ size ih =>
    obtain ⟨front, hfront⟩ : ∃ front, front = sharedFront a b := ⟨_, rfl⟩
    obtain ⟨back, hback⟩ : ∃ back, back = sharedBack front a b := ⟨_, rfl⟩
    obtain ⟨p, q, hp, hq, ha, hb, hends⟩ := exists_affixes a b hfront hback
    have hleft := size_inner_le front back a
    have hright := size_inner_le front back b
    rw [shortest, ← hfront, ← hback]
    generalize inner front back a = a' at *
    generalize inner front back b = b' at *
    rw [ha, hb, List.append_assoc, ← hp, ← hq]
    apply IsShortest.kept_append
    apply IsShortest.append_kept
    by_cases hdirect : (a'.isEmpty || b'.isEmpty || a'.size + b'.size ≤ directLimit) = true
    · rw [if_pos hdirect]
      exact isShortest_direct a' b'
    · rw [if_neg hdirect]
      simp only [Bool.or_eq_true, not_or, Array.isEmpty_iff_size_eq_zero] at hdirect
      have hne : a'.toList ≠ [] := fun h => hdirect.1.1 (by rw [← Array.length_toList, h]; rfl)
      have hne' : b'.toList ≠ [] := fun h => hdirect.1.2 (by rw [← Array.length_toList, h]; rfl)
      obtain ⟨hhead, hlast⟩ := hends hne hne'
      obtain ⟨s, hs, hdivides⟩ := Snake.middle_spec_of_ends_ne hne hne' hhead hlast
      have hlt := hdivides.start_lt
      have hpos := hdivides.stop_pos
      rw [Array.length_toList, Array.length_toList] at hlt
      simp only [hs]
      rw [if_pos ⟨hlt, hpos⟩]
      apply IsShortest.of_divides hdivides
      · have := ih _ (by simp only [Array.size_extract]; omega) (a'.extract 0 s.xStart)
          (b'.extract 0 s.yStart) rfl
        simpa using this
      · have := ih _ (by simp only [Array.size_extract]; omega) (a'.extract s.xStop a'.size)
          (b'.extract s.yStop b'.size) rfl
        rwa [toList_extract_size, toList_extract_size] at this

section ToPatch

open Patch

variable {R : Nat → Nat → Prop} {xs ys : List Nat} {i₀ j₀ i j n m : Nat} {s : Script}

/-- A run of edits without an edit gives no fragment, and any other gives the one between its two
ends. -/
theorem fragmentOf_cases (hi : i₀ ≤ i) (hj : j₀ ≤ j) :
    (fragmentOf i₀ j₀ i j = [] ∧ i₀ = i ∧ j₀ = j) ∨
      ∃ f : Fragment, fragmentOf i₀ j₀ i j = [f] ∧ f.start₁ = i₀ ∧ f.stop₁ = i ∧ f.start₂ = j₀ ∧
        f.stop₂ = j ∧ f.cost = (i - i₀) + (j - j₀) ∧ 0 < f.cost := by
  unfold fragmentOf
  by_cases hnone : i₀ = i ∧ j₀ = j
  · rw [if_pos hnone]
    exact .inl ⟨rfl, hnone⟩
  · rw [if_neg hnone]
    have hstop₁ := LineRange.span_stop hi
    have hstop₂ := LineRange.span_stop hj
    refine .inr ⟨_, rfl, rfl, hstop₁, rfl, hstop₂, ?_⟩
    rw [Fragment.cost_eq]
    change (LineRange.span i₀ i).stop - i₀ + ((LineRange.span j₀ j).stop - j₀) = _ ∧
      0 < (LineRange.span i₀ i).stop - i₀ + ((LineRange.span j₀ j).stop - j₀)
    omega

/-- The fragment of a run of edits comes before what is aligned from the end of the run on. -/
theorem aligned_fragmentOf_append {rest : Patch} (hi : i₀ ≤ i) (hj : j₀ ≤ j)
    (h : rest.Aligned R i j n m) : Aligned R i₀ j₀ (fragmentOf i₀ j₀ i j ++ rest) n m := by
  rcases fragmentOf_cases hi hj with
    ⟨hnone, rfl, rfl⟩ | ⟨f, hf, hstart₁, hstop₁, hstart₂, hstop₂, _, hcost⟩
  · rwa [hnone]
  · rw [hf, List.singleton_append, Aligned, hstart₁, hstop₁, hstart₂, hstop₂]
    exact ⟨Run.refl R i₀ j₀, hcost, h⟩

/-- The patch of a script is aligned in a relation to which all equal elements belong. -/
theorem aligned_toPatchFrom (h : Transforms s xs ys) (hi : i₀ ≤ i) (hj : j₀ ≤ j)
    (hn : i + xs.length = n) (hm : j + ys.length = m)
    (hR : ∀ x y z, xs[x]? = some z → ys[y]? = some z → R (i + x) (j + y)) :
    (toPatchFrom i₀ j₀ i j s).Aligned R i₀ j₀ n m := by
  induction h generalizing i₀ j₀ i j with
  | done =>
    obtain ⟨rfl, rfl⟩ : i = n ∧ j = m := ⟨hn, hm⟩
    have := aligned_fragmentOf_append hi hj (show Aligned R i j [] i j from Run.refl R i j)
    rwa [List.append_nil] at this
  | keep z _ ih =>
    rw [List.length_cons] at hn hm
    refine aligned_fragmentOf_append hi hj (Aligned.after_run (ih (Nat.le_refl _) (Nat.le_refl _)
      (by omega) (by omega) fun x y w hx hy => ?_) (Run.single (hR 0 0 z rfl rfl)))
    have := hR (x + 1) (y + 1) w (by simpa using hx) (by simpa using hy)
    rwa [Nat.add_comm x, Nat.add_comm y, ← Nat.add_assoc, ← Nat.add_assoc] at this
  | delete z _ ih =>
    rw [List.length_cons] at hn
    refine ih (Nat.le_succ_of_le hi) hj (by omega) hm ?_
    intro x y w hx hy
    have := hR (x + 1) y w (by simpa using hx) hy
    rwa [Nat.add_comm x, ← Nat.add_assoc] at this
  | insert z _ ih =>
    rw [List.length_cons] at hm
    refine ih hi (Nat.le_succ_of_le hj) hn (by omega) ?_
    intro x y w hx hy
    have := hR x (y + 1) w hx (by simpa using hy)
    rwa [Nat.add_comm y, ← Nat.add_assoc] at this

/-- The fragment of a run of edits stands apart from what begins after a kept element. -/
theorem wellFormedFrom_fragmentOf_append {rest : Patch} (hi : i₀ ≤ i) (hj : j₀ ≤ j)
    (h : rest.WellFormedFrom i j 1 n m) :
    WellFormedFrom i₀ j₀ 0 (fragmentOf i₀ j₀ i j ++ rest) n m := by
  rcases fragmentOf_cases hi hj with
    ⟨hnone, rfl, rfl⟩ | ⟨f, hf, hstart₁, hstop₁, hstart₂, hstop₂, _, hcost⟩
  · rw [hnone]
    exact h.earlier (Nat.le_refl _) (Nat.le_refl _) (by omega) (by omega)
  · rw [hf, List.singleton_append, WellFormedFrom, hstart₁, hstop₁, hstart₂, hstop₂]
    exact ⟨Nat.le_refl _, Nat.le_refl _, by omega, hcost, h⟩

/-- The patch of a script is well formed. -/
theorem wellFormedFrom_toPatchFrom (h : Transforms s xs ys) (hi : i₀ ≤ i) (hj : j₀ ≤ j)
    (hn : i + xs.length = n) (hm : j + ys.length = m) :
    (toPatchFrom i₀ j₀ i j s).WellFormedFrom i₀ j₀ 0 n m := by
  induction h generalizing i₀ j₀ i j with
  | done =>
    obtain ⟨rfl, rfl⟩ : i = n ∧ j = m := ⟨hn, hm⟩
    have hend : WellFormedFrom i j 1 [] i j := ⟨Nat.le_refl _, Nat.le_refl _, by omega⟩
    have := wellFormedFrom_fragmentOf_append hi hj hend
    rwa [List.append_nil] at this
  | keep z _ ih =>
    rw [List.length_cons] at hn hm
    have hrest := ih (Nat.le_refl (i + 1)) (Nat.le_refl (j + 1)) (by omega) (by omega)
    exact wellFormedFrom_fragmentOf_append hi hj
      (hrest.earlier (by omega) (by omega) (by omega) (by omega))
  | delete z _ ih =>
    rw [List.length_cons] at hn
    exact ih (Nat.le_succ_of_le hi) hj (by omega) hm
  | insert z _ ih =>
    rw [List.length_cons] at hm
    exact ih hi (Nat.le_succ_of_le hj) hn (by omega)

/-- The fragment of a run of edits changes as many elements as the run has edits. -/
theorem cost_fragmentOf_append (hi : i₀ ≤ i) (hj : j₀ ≤ j) (rest : Patch) :
    Patch.cost (fragmentOf i₀ j₀ i j ++ rest) = (i - i₀) + (j - j₀) + rest.cost := by
  rcases fragmentOf_cases hi hj with ⟨hnone, rfl, rfl⟩ | ⟨f, hf, _, _, _, _, hcost, _⟩
  · rw [hnone, List.nil_append]
    omega
  · rw [hf, List.singleton_append, Patch.cost, List.foldr_cons, hcost, Patch.cost]

/-- The patch of a script changes as many elements as the script has edits. -/
theorem cost_toPatchFrom (s : Script) (hi : i₀ ≤ i) (hj : j₀ ≤ j) :
    (toPatchFrom i₀ j₀ i j s).cost = (i - i₀) + (j - j₀) + s.cost := by
  induction s generalizing i₀ j₀ i j with
  | nil =>
    have := cost_fragmentOf_append hi hj []
    rwa [List.append_nil] at this
  | cons edit s ih =>
    cases edit with
    | keep =>
      have := ih (Nat.le_refl (i + 1)) (Nat.le_refl (j + 1))
      rw [toPatchFrom, cost_fragmentOf_append hi hj, cost]
      omega
    | delete =>
      have := ih (show i₀ ≤ i + 1 by omega) hj
      rw [toPatchFrom, cost]
      omega
    | insert =>
      have := ih hi (show j₀ ≤ j + 1 by omega)
      rw [toPatchFrom, cost]
      omega

end ToPatch

section Affixes

variable {a b : Array Nat} {p q r t xs : List Nat} {x z : Nat}

/-- An entry of a part is one of the whole. -/
theorem getElem?_of_append (ha : a.toList = p ++ (xs ++ q)) (hx : xs[x]? = some z) :
    a[p.length + x]? = some z := by
  have hlt := (List.getElem?_eq_some_iff.mp hx).1
  rw [← Array.getElem?_toList, ha, List.getElem?_append_right (Nat.le_add_right _ _),
    Nat.add_sub_cancel_left, List.getElem?_append_left hlt, hx]

/-- A part that two sequences share is a run. -/
theorem run_of_append (ha : a.toList = p ++ (xs ++ q)) (hb : b.toList = r ++ (xs ++ t)) :
    Run (Agree ⟨a, b⟩) p.length r.length (p.length + xs.length) (r.length + xs.length) :=
  Run.of_length fun k hk =>
    ⟨xs[k], getElem?_of_append ha (List.getElem?_eq_getElem hk),
      getElem?_of_append hb (List.getElem?_eq_getElem hk)⟩

end Affixes

/-- The patch of two sequences is aligned in the equality of their elements. -/
theorem aligned_shortestPatch (a b : Array Nat) :
    (shortestPatch a b).Aligned (Agree ⟨a, b⟩) 0 0 a.size b.size := by
  obtain ⟨front, hfront⟩ : ∃ front, front = sharedFront a b := ⟨_, rfl⟩
  obtain ⟨back, hback⟩ : ∃ back, back = sharedBack front a b := ⟨_, rfl⟩
  obtain ⟨p, q, hp, hq, ha, hb, -⟩ := exists_affixes a b hfront hback
  have hshortest := isShortest_shortest (inner front back a) (inner front back b)
  rw [shortestPatch, ← hfront, ← hback]
  generalize (inner front back a) = a' at *
  generalize (inner front back b) = b' at *
  have hmiddle := aligned_toPatchFrom (R := Agree ⟨a, b⟩) hshortest.transforms
    (Nat.le_refl p.length) (Nat.le_refl p.length) rfl rfl fun x y z hx hy =>
      ⟨z, getElem?_of_append ha hx, getElem?_of_append hb hy⟩
  have hbefore : Run (Agree ⟨a, b⟩) 0 0 p.length p.length := by
    simpa using run_of_append (p := []) (r := []) ha hb
  have hafter : Run (Agree ⟨a, b⟩) (p.length + a'.toList.length) (p.length + b'.toList.length)
      a.size b.size := by
    have ha' : a.toList = (p ++ a'.toList) ++ (q ++ []) := by simpa using ha
    have hb' : b.toList = (p ++ b'.toList) ++ (q ++ []) := by simpa using hb
    have hsize := congrArg List.length ha'
    have hsize' := congrArg List.length hb'
    have hrun := run_of_append ha' hb'
    simp only [List.length_append, Array.length_toList, List.length_nil, Nat.add_zero]
      at hsize hsize' hrun ⊢
    rwa [hsize, hsize']
  have hwhole := (hmiddle.after_run hbefore).append (q := []) hafter
  rwa [List.append_nil, hp] at hwhole

/-- The patch of two sequences is well formed. -/
theorem wellFormed_shortestPatch (a b : Array Nat) :
    (shortestPatch a b).WellFormed a.size b.size := by
  have htransforms := (isShortest_shortest
    (inner (sharedFront a b) (sharedBack (sharedFront a b) a b) a)
    (inner (sharedFront a b) (sharedBack (sharedFront a b) a b) b)).transforms
  have hmiddle := wellFormedFrom_toPatchFrom htransforms (Nat.le_refl (sharedFront a b))
    (Nat.le_refl (sharedFront a b)) rfl rfl
  exact Patch.wellFormed_iff.mpr ⟨(aligned_shortestPatch a b).mono fun _ _ _ => trivial,
    (Patch.wellFormedFrom_iff.mp hmiddle).2.1⟩

/-- The patch of two sequences changes as few elements as a longest common subsequence allows. -/
theorem cost_shortestPatch (a b : Array Nat) :
    (shortestPatch a b).cost + 2 * commonLength a.toList b.toList = a.size + b.size := by
  obtain ⟨front, hfront⟩ : ∃ front, front = sharedFront a b := ⟨_, rfl⟩
  obtain ⟨back, hback⟩ : ∃ back, back = sharedBack front a b := ⟨_, rfl⟩
  obtain ⟨p, q, hp, hq, ha, hb, -⟩ := exists_affixes a b hfront hback
  have hshortest := (isShortest_shortest (inner front back a) (inner front back b)).cost_eq
  rw [shortestPatch, ← hfront, ← hback, cost_toPatchFrom _ (Nat.le_refl _) (Nat.le_refl _),
    ← Array.length_toList, ← Array.length_toList, ha, hb, commonLength_append_left,
    commonLength_append_right]
  simp only [List.length_append]
  omega

/-- The patch of two sequences is well formed, matches only equal elements, and deletes and inserts
together as few elements as a longest common subsequence allows. -/
theorem shortestPatch_minimal (a b : Array Nat) :
    (shortestPatch a b).WellFormed a.size b.size ∧
      (∀ pair ∈ (shortestPatch a b).matchedPairs a.size b.size,
        ∃ key, a[pair.1]? = some key ∧ b[pair.2]? = some key) ∧
      ∃ k, IsLongestCommon k a.toList b.toList ∧
        (shortestPatch a b).cost + 2 * k = a.size + b.size :=
  ⟨wellFormed_shortestPatch a b,
    fun _ hpair => (aligned_shortestPatch a b).rel_of_mem_matchedFrom hpair,
    _, isLongestCommon_commonLength _ _, cost_shortestPatch a b⟩

example : (shortestPatch #[0, 1, 2, 3] #[0, 2, 4, 3]).matchedPairs 4 4 =
    [(0, 0), (2, 1), (3, 3)] := by cbv

end Script

end Linewise
