import Linewise.Proofs.Script.Frontier
import Linewise.Script.Snake

/-!
# The middle snake splits a shortest script

Two frontiers that overlap, one searched from either end, together have at least
as many edits as a shortest script needs. When they have exactly as many they do
overlap, because the point where such a script has spent the edits of the first
lies within both, and then what is matched before, in and after the snake is a
longest common subsequence.
-/

namespace Linewise

open Frontier

variable {a b : Array Nat} {d e i x y distance : Nat}

/-- A script can be cut after each number of edits. -/
theorem Script.Transforms.exists_split {α : Type} {s : Script} {a b : List α}
    (h : Transforms s a b) (hd : d ≤ s.cost) :
    ∃ x y t u, x ≤ a.length ∧ y ≤ b.length ∧ Transforms t (a.take x) (b.take y) ∧
      Transforms u (a.drop x) (b.drop y) ∧ t.cost = d ∧ d + u.cost = s.cost := by
  induction h generalizing d with
  | done =>
    obtain rfl : d = 0 := Nat.le_zero.mp hd
    exact ⟨0, 0, [], [], by simp, by simp, .done, .done, rfl, rfl⟩
  | @keep s a b z h ih =>
    obtain ⟨x, y, t, u, hx, hy, ht, hu, htcost, hucost⟩ := ih hd
    exact ⟨x + 1, y + 1, _, u, by simpa using hx, by simpa using hy, ht.keep z, hu, htcost, hucost⟩
  | @delete s a b z h ih =>
    cases d with
    | zero => exact ⟨0, 0, [], _, by simp, by simp, .done, h.delete z, rfl, by simp⟩
    | succ d =>
      obtain ⟨x, y, t, u, hx, hy, ht, hu, htcost, hucost⟩ := ih (Nat.le_of_succ_le_succ hd)
      refine ⟨x + 1, y, _, u, by simpa using hx, hy, ht.delete z, hu, by simp [cost, htcost], ?_⟩
      simp only [cost]
      omega
  | @insert s a b z h ih =>
    cases d with
    | zero => exact ⟨0, 0, [], _, by simp, by simp, .done, h.insert z, rfl, by simp⟩
    | succ d =>
      obtain ⟨x, y, t, u, hx, hy, ht, hu, htcost, hucost⟩ := ih (Nat.le_of_succ_le_succ hd)
      refine ⟨x, y + 1, _, u, hx, by simpa using hy, ht.insert z, hu, by simp [cost, htcost], ?_⟩
      simp only [cost]
      omega

namespace Snake

/-- What is before a point seen from the end is what is after it seen from the beginning. -/
theorem commonBefore_reverse (hx : x ≤ a.size) (hy : y ≤ b.size) :
    commonBefore a.reverse b.reverse (a.size - x) (b.size - y) =
      commonLength (a.toList.drop x) (b.toList.drop y) := by
  simp only [commonBefore, Array.toList_reverse, List.take_reverse, Array.length_toList,
    Nat.sub_sub_self hx, Nat.sub_sub_self hy]
  exact commonLength_reverse _ _

/-- Two searches that meet in a point have enough edits for a script. -/
theorem size_add_size_le (hx : x ≤ a.size) (hy : y ≤ b.size) (h : Within a b d x y)
    (h' : Within a.reverse b.reverse e (a.size - x) (b.size - y)) :
    a.size + b.size ≤ d + e + 2 * commonLength a.toList b.toList := by
  have := commonBefore_add_le a b x y
  unfold Within at *
  rw [commonBefore_reverse hx hy] at h'
  omega

/-- If two searches have as many edits as a shortest script needs, they meet in a point. -/
theorem exists_meeting
    (hdistance : d + e + 2 * commonLength a.toList b.toList = a.size + b.size) :
    ∃ x y, x ≤ a.size ∧ y ≤ b.size ∧ Within a b d x y ∧
      Within a.reverse b.reverse e (a.size - x) (b.size - y) := by
  obtain ⟨s, htransforms, hcost⟩ := Script.exists_isShortest a.toList b.toList
  simp only [Array.length_toList] at hcost
  obtain ⟨x, y, t, u, hx, hy, ht, hu, htcost, hucost⟩ :=
    htransforms.exists_split (show d ≤ s.cost by omega)
  rw [Array.length_toList] at hx hy
  have htlength := ht.length_add_length_le
  have hulength := hu.length_add_length_le
  simp only [List.length_take, List.length_drop, Array.length_toList] at htlength hulength
  refine ⟨x, y, hx, hy, ?_, ?_⟩
  · unfold Within commonBefore
    omega
  · unfold Within
    rw [commonBefore_reverse hx hy]
    omega

/-- A search that leaves the other no more edits than needed stays inside the grid on each
diagonal that the other reaches. -/
theorem le_size_of_within
    (hdistance : d + e + 2 * commonLength a.toList b.toList = a.size + b.size)
    (h : Within a b d x y) (hleft : a.size + y ≤ b.size + x + e)
    (hright : b.size + x ≤ a.size + y + e) : x ≤ a.size ∧ y ≤ b.size := by
  have : commonBefore a b x y ≤ commonLength a.toList b.toList :=
    commonLength_mono (List.take_sublist _ _) (List.take_sublist _ _)
  unfold Within at h
  omega

/-- The points where the two searches meet with exactly the edits needed are those that all
edits of the first lead to. -/
theorem add_eq_of_meeting
    (hdistance : d + e + 2 * commonLength a.toList b.toList = a.size + b.size)
    (hx : x ≤ a.size) (hy : y ≤ b.size) (h : Within a b d x y)
    (h' : Within a.reverse b.reverse e (a.size - x) (b.size - y)) :
    x + y = d + 2 * commonBefore a b x y := by
  have := commonBefore_add_le a b x y
  unfold Within at *
  rw [commonBefore_reverse hx hy] at h'
  omega

section Overlap

variable {row other : Row}

/-- An overlap means that an entry and the entry of the opposite search on its diagonal both lie
inside the grid and reach past each other. -/
theorem overlaps_iff {n m : Nat} : overlaps n m row other i = true ↔
    row.getD i 0 ≤ n ∧ height (row.size - 1) i (row.getD i 0) ≤ m ∧
      m + 2 * i ≤ n + (row.size - 1) + (other.size - 1) ∧
      ∃ reached,
        other[(n + (row.size - 1) + (other.size - 1) - (m + 2 * i)) / 2]? = some reached ∧
        reached ≤ n ∧
        height (other.size - 1)
          ((n + (row.size - 1) + (other.size - 1) - (m + 2 * i)) / 2) reached ≤ m ∧
        n ≤ row.getD i 0 + reached := by
  simp only [overlaps, Bool.and_eq_true, decide_eq_true_eq, Option.any_eq_true, and_assoc]

/-- An overlapping entry lies inside the grid, and the opposite search has reached it. -/
theorem within_of_overlaps (hrow : IsFrontier a b row)
    (hother : IsFrontier a.reverse b.reverse other) (hi : i < row.size)
    (hparity : (a.size + b.size + row.size + other.size) % 2 = 0)
    (h : overlaps a.size b.size row other i = true) :
    row.getD i 0 ≤ a.size ∧ height (row.size - 1) i (row.getD i 0) ≤ b.size ∧ 0 < other.size ∧
      Within a.reverse b.reverse (other.size - 1) (a.size - row.getD i 0)
        (b.size - height (row.size - 1) i (row.getD i 0)) := by
  obtain ⟨hx, hy, hle, reached, hsome, hreached, -, hmeet⟩ := overlaps_iff.mp h
  have hdiagonal := (hrow i hi).diagonal
  obtain ⟨hj, hget⟩ := Array.getElem?_eq_some_iff.mp hsome
  have hfurthest := hother _ hj
  rw [Array.getD_eq_getD_getElem?, hsome, Option.getD_some] at hfurthest
  refine ⟨hx, hy, by omega, (hfurthest.le_iff ?_).mp (by omega)⟩
  omega

/-- If two frontiers have as many edits as a shortest script needs, some entry of the one overlaps
with the other. -/
theorem exists_overlaps (hrow : IsFrontier a b row) (hrowSize : row.size = d + 1)
    (hother : IsFrontier a.reverse b.reverse other) (hotherSize : other.size = e + 1)
    (hdistance : d + e + 2 * commonLength a.toList b.toList = a.size + b.size) :
    ∃ i < row.size, overlaps a.size b.size row other i = true := by
  obtain ⟨x, y, hx, hy, hforward, hbackward⟩ := exists_meeting hdistance
  have hexact := add_eq_of_meeting hdistance hx hy hforward hbackward
  have hforwardLe := hforward.diagonal_le
  have hbackwardLe := hbackward.diagonal_le
  obtain ⟨i, hi⟩ : ∃ i, x + d = y + 2 * i := ⟨(x + d - y) / 2, by omega⟩
  obtain ⟨j, hj⟩ : ∃ j, a.size - x + e = b.size - y + 2 * j :=
    ⟨(a.size - x + e - (b.size - y)) / 2, by omega⟩
  have hentry := hrow i (by omega)
  have hopposite := hother j (by omega)
  rw [hrowSize, Nat.add_sub_cancel] at hentry
  rw [hotherSize, Nat.add_sub_cancel] at hopposite
  have hdiagonal := hentry.diagonal
  have hdiagonal' := hopposite.diagonal
  have hle := (hentry.le_iff hi).mpr hforward
  have hle' := (hopposite.le_iff hj).mpr hbackward
  have hgrid := le_size_of_within hdistance hentry.within (by omega) (by omega)
  have hgrid' := le_size_of_within (d := e) (e := d) (by
    rw [Array.toList_reverse, Array.toList_reverse, commonLength_reverse, Array.size_reverse,
      Array.size_reverse]
    omega) hopposite.within (by simp only [Array.size_reverse]; omega)
      (by simp only [Array.size_reverse]; omega)
  simp only [Array.size_reverse] at hgrid'
  have hopposite_eq : (a.size + d + e - (b.size + 2 * i)) / 2 = j := by omega
  refine ⟨i, by omega, overlaps_iff.mpr ?_⟩
  rw [hrowSize, hotherSize, Nat.add_sub_cancel, Nat.add_sub_cancel, hopposite_eq]
  refine ⟨hgrid.1, hgrid.2, by omega, other.getD j 0, ?_, hgrid'.1, hgrid'.2, by omega⟩
  rw [Array.getD_eq_getD_getElem?, Array.getElem?_eq_getElem (by omega), Option.getD_some]

end Overlap

/-- The snake is a run of matches, and longest common subsequences of what is before it and of
what is after it make a longest one of the whole. Neither part is the whole. -/
structure Divides (s : Snake) (a b : List Nat) : Prop where
  exists_run : ∃ p q run r t, a = p ++ (run ++ r) ∧ b = q ++ (run ++ t) ∧
    p.length = s.xStart ∧ q.length = s.yStart ∧ (p ++ run).length = s.xStop ∧
    (q ++ run).length = s.yStop ∧
    commonLength p q + run.length + commonLength r t = commonLength a b
  start_lt : s.xStart + s.yStart < a.length + b.length
  stop_pos : 0 < s.xStop + s.yStop

/-- A snake found in the reversed sequences divides the sequences as well. -/
theorem Divides.mirrored {s : Snake} {a b : List Nat} (h : s.Divides a.reverse b.reverse) :
    (s.mirrored a.length b.length).Divides a b := by
  obtain ⟨⟨p, q, run, r, t, ha, hb, hxStart, hyStart, hxStop, hyStop, hcommon⟩, hlt, hpos⟩ := h
  have hlengthA := congrArg List.length ha
  have hlengthB := congrArg List.length hb
  rw [commonLength_reverse] at hcommon
  rw [List.reverse_eq_iff] at ha hb
  simp only [List.length_reverse, List.length_append, List.reverse_append, List.append_assoc]
    at ha hb hlt hlengthA hlengthB hxStop hyStop
  refine ⟨⟨r.reverse, t.reverse, run.reverse, p.reverse, q.reverse, ha, hb, ?_⟩, ?_, ?_⟩
  · simp only [Snake.mirrored, List.length_append, List.length_reverse, commonLength_reverse]
    omega
  · simp only [Snake.mirrored]
    omega
  · simp only [Snake.mirrored]
    omega

/-- A run of matches that ends where two searches meet, with as many edits as a shortest script
needs and at least one on either side, divides the sequences. -/
theorem divides_of_run {x' y' : Nat} (hrun : Run (Agree ⟨a, b⟩) x y x' y') (hx : x' ≤ a.size)
    (hy : y' ≤ b.size) (hforward : Within a b d x' y')
    (hbackward : Within a.reverse b.reverse e (a.size - x') (b.size - y'))
    (hdistance : d + e + 2 * commonLength a.toList b.toList = a.size + b.size) (hd : 0 < d)
    (he : 0 < e) : (⟨x, y, x', y'⟩ : Snake).Divides a.toList b.toList := by
  have hexact := add_eq_of_meeting hdistance hx hy hforward hbackward
  have hbefore := commonBefore_of_run hrun
  have hle := hrun.le₁
  have hle' := hrun.le₂
  have hlength := hrun.same_length
  have htotal := commonBefore_add_le a b x' y'
  obtain ⟨run, hrunLength, ha, hb⟩ := exists_append_of_run hrun
  unfold Within at hbackward
  rw [commonBefore_reverse hx hy] at hbackward
  refine ⟨⟨a.toList.take x, b.toList.take y, run, a.toList.drop x', b.toList.drop y', ?_⟩, ?_, ?_⟩
  · rw [← List.append_assoc, ← List.append_assoc, ← ha, ← hb, List.take_append_drop,
      List.take_append_drop]
    simp only [List.length_take, Array.length_toList, hrunLength]
    unfold commonBefore at hbefore hexact htotal
    refine ⟨trivial, trivial, by omega, by omega, by omega, by omega, by omega⟩
  · simp only [Array.length_toList]
    omega
  · simp only
    omega

section Search

variable {previous other : Row}

/-- An overlap between two frontiers that together have as many edits as a shortest script needs
divides the sequences. -/
theorem divides_ofEntry (hprevious : IsFrontier a b previous)
    (hother : IsFrontier a.reverse b.reverse other) (hotherSize : other.size = e + 1)
    (hi : i ≤ previous.size)
    (hdistance : previous.size + e + 2 * commonLength a.toList b.toList = a.size + b.size)
    (hpos : 0 < previous.size) (he : 0 < e)
    (h : overlaps a.size b.size (next a b previous) other i = true) :
    (ofEntry previous (next a b previous) i).Divides a.toList b.toList := by
  have hrowSize := size_next a b previous
  obtain ⟨hx, hy, -, hbackward⟩ := within_of_overlaps (isFrontier_next hprevious) hother
    (by omega) (by omega) h
  obtain ⟨hreached, hrun⟩ := furthest_follow hprevious hi
  simp only [hrowSize, hotherSize, Nat.add_sub_cancel, getD_next a b hi] at hx hy hbackward
  simp only [ofEntry, getD_next a b hi]
  exact divides_of_run hrun hx hy hreached.within hbackward hdistance hpos he

/-- While two frontiers, of which the one is about to make a round, do not have more edits
together than needed, the entry found after that round divides the sequences, and none is found
only if more edits are needed. -/
theorem firstOverlap_spec (hprevious : IsFrontier a b previous)
    (hother : IsFrontier a.reverse b.reverse other)
    (hsizes : other.size = previous.size ∨ other.size = previous.size + 1)
    (hdistance : distance + 2 * commonLength a.toList b.toList = a.size + b.size)
    (htwo : 2 ≤ distance) (hparity : (distance + 1 + previous.size + other.size) % 2 = 0)
    (hle : previous.size + other.size ≤ distance + 1) :
    (∀ i, firstOverlap? a.size b.size (next a b previous) other = some i →
      (ofEntry previous (next a b previous) i).Divides a.toList b.toList) ∧
    (firstOverlap? a.size b.size (next a b previous) other = none →
      previous.size + other.size < distance + 1) := by
  have hrowSize := size_next a b previous
  have hrow := isFrontier_next hprevious
  constructor
  · intro i hfound
    have hi := List.mem_range.mp (List.mem_of_find?_eq_some hfound)
    have hoverlaps := List.find?_some hfound
    obtain ⟨hx, hy, hpos, hbackward⟩ := within_of_overlaps hrow hother hi (by omega) hoverlaps
    have henough := size_add_size_le hx hy (hrow i hi).within hbackward
    exact divides_ofEntry (e := other.size - 1) hprevious hother (by omega) (by omega) (by omega)
      (by omega) (by omega) hoverlaps
  · intro hnone
    by_contra hnot
    obtain ⟨i, hi, hoverlaps⟩ := exists_overlaps (e := other.size - 1) hrow hrowSize hother
      (by omega) (by omega)
    exact List.find?_eq_none.mp hnone i (List.mem_range.mpr hi) hoverlaps

end Search

section Middle

variable {forward backward : Row}

/-- The search from both ends finds a snake that divides the sequences. -/
theorem search_spec (hforward : IsFrontier a b forward)
    (hbackward : IsFrontier a.reverse b.reverse backward) (hsize : backward.size = forward.size)
    (hdistance : distance + 2 * commonLength a.toList b.toList = a.size + b.size)
    (htwo : 2 ≤ distance) (fuel : Nat) (hle : 2 * forward.size ≤ distance + distance % 2)
    (hfuel : distance + distance % 2 < 2 * (forward.size + fuel)) :
    ∃ s, search a b fuel forward backward = some s ∧ s.Divides a.toList b.toList := by
  induction fuel generalizing forward backward with
  | zero => omega
  | succ fuel ih =>
    have hsizeForward := size_next a b forward
    have hsizeBackward := size_next a.reverse b.reverse backward
    have hforward' := isFrontier_next hforward
    have hbackward' := isFrontier_next hbackward
    simp only [search]
    by_cases hodd : (a.size + b.size) % 2 = 1
    · rw [if_pos hodd]
      obtain ⟨hsome, hnone⟩ := firstOverlap_spec hforward hbackward (.inl hsize) hdistance htwo
        (by omega) (by omega)
      cases hfound : firstOverlap? a.size b.size (next a b forward) backward with
      | some i => exact ⟨_, rfl, hsome i hfound⟩
      | none =>
        have := hnone hfound
        exact ih hforward' hbackward' (by omega) (by omega) (by omega)
    · rw [if_neg hodd]
      have hdistanceReverse : distance + 2 * commonLength a.reverse.toList b.reverse.toList =
          a.reverse.size + b.reverse.size := by
        rw [Array.toList_reverse, Array.toList_reverse, commonLength_reverse, Array.size_reverse,
          Array.size_reverse, hdistance]
      have hmirrored : IsFrontier a.reverse.reverse b.reverse.reverse (next a b forward) := by
        rwa [Array.reverse_reverse, Array.reverse_reverse]
      obtain ⟨hsome, hnone⟩ := firstOverlap_spec hbackward hmirrored (.inr (by omega))
        hdistanceReverse htwo (by omega) (by omega)
      simp only [Array.size_reverse, Array.toList_reverse] at hsome hnone
      cases hfound : firstOverlap? a.size b.size (next a.reverse b.reverse backward)
          (next a b forward) with
      | some i => exact ⟨_, rfl, by simpa using (hsome i hfound).mirrored⟩
      | none =>
        have := hnone hfound
        exact ih hforward' hbackward' (by omega) (by omega) (by omega)

/-- If a script needs at least two edits, there is a middle snake, and it divides the
sequences. -/
theorem middle_spec
    (htwo : 2 + 2 * commonLength a.toList b.toList ≤ a.size + b.size) :
    ∃ s, middle? a b = some s ∧ s.Divides a.toList b.toList := by
  have hempty (a b : Array Nat) : IsFrontier a b #[] := fun i hi => absurd hi (Nat.not_lt_zero i)
  have hzero : (#[] : Row).size = 0 := rfl
  have hdistance : a.size + b.size - 2 * commonLength a.toList b.toList +
      2 * commonLength a.toList b.toList = a.size + b.size := by omega
  exact search_spec (hempty _ _) (hempty _ _) rfl hdistance (by omega) _ (by omega) (by omega)

end Middle

end Snake

end Linewise
