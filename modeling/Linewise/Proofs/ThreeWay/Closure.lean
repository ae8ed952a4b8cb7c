import Linewise.Proofs.ThreeWay.Chains

/-!
# A chunk is the least closed one

A chunk takes fragments from the left and from the right in turn. What it takes does
not depend on that order: a line of the base is closed if no side has a fragment left
to take there, and a chunk ends at the first closed line at or after its start. Then its
growth and what it leaves on a side are what taking from that side alone up to this line
gives. So exchanging the sides exchanges the ranges of all regions, and nothing else.
-/

namespace Linewise

namespace Sweep

variable {rest : TwoSided Patch} {s : Sweep} {start stop stop' : Nat} {growth : Int} {p : Patch}

/-! ## Taking from one side -/

/-- A chunk that ends further down ends no earlier after fragments were taken. -/
theorem stop_absorb_mono (growth growth' : Int) (p : Patch) (h : stop ≤ stop') :
    (absorb stop growth p).stop ≤ (absorb stop' growth' p).stop := by
  induction p generalizing stop stop' growth growth' with
  | nil => exact h
  | cons f later ih =>
    rw [absorb, absorb]
    by_cases htake : f.start₁ ≤ stop
    · rw [if_pos htake, if_pos (Nat.le_trans htake h)]
      exact ih _ _ (by omega)
    · rw [if_neg htake]
      exact Nat.le_trans h (le_stop_absorb stop' growth' (f :: later))

/-- Taking on from where a chunk has come to is the same as taking all at once. -/
theorem absorb_absorb (h : (absorb stop growth p).stop ≤ stop') :
    absorb stop' (absorb stop growth p).growth (absorb stop growth p).rest =
      absorb stop' growth p := by
  induction p generalizing stop growth with
  | nil => rfl
  | cons f later ih =>
    by_cases htake : f.start₁ ≤ stop
    · rw [absorb, if_pos htake] at h ⊢
      have hstop := Nat.le_trans (le_stop_absorb _ _ _) h
      rw [ih h]
      conv_rhs => rw [absorb]
      rw [if_pos (by omega), Nat.max_eq_left (by omega)]
    · rw [absorb.eq_2 stop, if_neg htake]

/-- Nothing is taken if the next fragment starts after the chunk. -/
theorem absorb_of_lt (growth : Int) (h : ∀ f ∈ p.head?, stop < f.start₁) :
    absorb stop growth p = ⟨stop, growth, p⟩ := by
  cases p with
  | nil => rfl
  | cons f later =>
    have hlater := h f rfl
    rw [absorb, if_neg (by omega)]

/-! ## Taking from both sides -/

/-- A chunk that ends at this line of the base has no fragment left to take on any side. -/
def Closed (rest : TwoSided Patch) (stop : Nat) : Prop :=
  ∀ side, (absorb stop 0 (rest.get side)).stop = stop

/-- A chunk under way from line `start` on has taken no more than it must: from its end on, each
side is as if nothing had been taken yet, and no line before its end is closed. -/
structure Needed (start : Nat) (rest : TwoSided Patch) (s : Sweep) : Prop where
  /-- Taking on is the same as taking all at once. -/
  resumes : ∀ side stop, s.stop ≤ stop →
    absorb stop (s.growth.get side) (s.rest.get side) = absorb stop 0 (rest.get side)
  /-- The chunk has not passed a line that is closed. -/
  least : ∀ stop, start ≤ stop → Closed rest stop → s.stop ≤ stop

/-- A chunk that has taken nothing has taken no more than it must. -/
theorem Needed.initial (start : Nat) (rest : TwoSided Patch) :
    Needed start rest ⟨start, ⟨0, 0⟩, rest⟩ := by
  refine ⟨fun side stop _ => ?_, fun stop hstop _ => hstop⟩
  cases side <;> rfl

/-- Taking from one side moves the end of a chunk to no line past a closed one. -/
theorem Needed.stop_absorb_le (h : Needed start rest s) (side : Side) (hs : s.stop ≤ stop)
    (hle : stop ≤ stop') (hclosed : Closed rest stop') :
    (absorb stop (s.growth.get side) (s.rest.get side)).stop ≤ stop' := by
  rw [h.resumes side stop hs, ← hclosed side]
  exact stop_absorb_mono 0 0 (rest.get side) hle

/-- A round takes no more than it must. -/
theorem Needed.round (h : Needed start rest s) : Needed start rest s.round := by
  have hleft := le_stop_absorb s.stop s.growth.left s.rest.left
  have hright := le_stop_absorb (absorb s.stop s.growth.left s.rest.left).stop s.growth.right
    s.rest.right
  refine ⟨fun side stop hstop => ?_, fun stop hstop hclosed => ?_⟩
  · change (absorb (absorb s.stop s.growth.left s.rest.left).stop s.growth.right
      s.rest.right).stop ≤ stop at hstop
    have hsame := h.resumes side stop (by omega)
    cases side with
    | left => exact (absorb_absorb (Nat.le_trans hright hstop)).trans hsame
    | right => exact (absorb_absorb hstop).trans hsame
  · have hs := h.least stop hstop hclosed
    have hfirst := h.stop_absorb_le .left (Nat.le_refl _) hs hclosed
    exact h.stop_absorb_le .right hleft hfirst hclosed

/-- All rounds together take no more than they must. -/
theorem Needed.close (h : Needed start rest s) : Needed start rest s.close := by
  fun_induction Sweep.close s with
  | case1 s _ ih => exact ih h.round
  | case2 s _ => exact h.round

/-- A chunk takes no more than it must. -/
theorem needed_chunk (start : Nat) (rest : TwoSided Patch) :
    Needed start rest (chunk start rest) := (Needed.initial start rest).close

/-- The growth of a chunk on a side and what it leaves there are what taking from that side alone up
to its end gives. -/
theorem absorb_stop_chunk (start : Nat) (rest : TwoSided Patch) (side : Side) :
    absorb (chunk start rest).stop 0 (rest.get side) =
      ⟨(chunk start rest).stop, (chunk start rest).growth.get side,
        (chunk start rest).rest.get side⟩ := by
  rw [← (needed_chunk start rest).resumes side _ (Nat.le_refl _)]
  exact absorb_of_lt _ (stop_close_lt ⟨start, ⟨0, 0⟩, rest⟩ side)

/-- A chunk ends at a closed line. -/
theorem closed_chunk (start : Nat) (rest : TwoSided Patch) :
    Closed rest (chunk start rest).stop := by
  intro side
  rw [absorb_stop_chunk]

/-! ## Exchanging the sides -/

/-- A line is closed whichever side comes first. -/
theorem Closed.swap (h : Closed rest stop) : Closed rest.swap stop := by
  intro side
  rw [TwoSided.get_swap]
  exact h side.other

/-- The chunk under way with the sides exchanged. -/
def swap (s : Sweep) : Sweep := ⟨s.stop, s.growth.swap, s.rest.swap⟩

/-- Chunks under way that end at the same line and have on each side what the other has on the other
one differ by an exchange of the sides. -/
theorem eq_swap {t : Sweep} (hstop : s.stop = t.stop)
    (hgrowth : ∀ side, s.growth.get side = t.growth.get side.other)
    (hrest : ∀ side, s.rest.get side = t.rest.get side.other) : s = t.swap := by
  obtain ⟨stop, ⟨growthLeft, growthRight⟩, ⟨restLeft, restRight⟩⟩ := s
  obtain rfl : stop = t.stop := hstop
  obtain rfl : growthLeft = t.growth.right := hgrowth .left
  obtain rfl : growthRight = t.growth.left := hgrowth .right
  obtain rfl : restLeft = t.rest.right := hrest .left
  obtain rfl : restRight = t.rest.left := hrest .right
  rfl

/-- Exchanging the sides exchanges what a chunk takes from them. -/
theorem chunk_swap (start : Nat) (rest : TwoSided Patch) :
    chunk start rest.swap = (chunk start rest).swap := by
  have hstop : (chunk start rest.swap).stop = (chunk start rest).stop := by
    apply Nat.le_antisymm
    · exact (needed_chunk start rest.swap).least _ (le_stop_chunk start rest)
        (closed_chunk start rest).swap
    · exact (needed_chunk start rest).least _ (le_stop_chunk start rest.swap)
        (closed_chunk start rest.swap).swap
  have hside (side : Side) :
      (chunk start rest.swap).growth.get side = (chunk start rest).growth.get side.other ∧
        (chunk start rest.swap).rest.get side = (chunk start rest).rest.get side.other := by
    have hthis := absorb_stop_chunk start rest.swap side
    have hother := absorb_stop_chunk start rest side.other
    rw [hstop, TwoSided.get_swap, hother, Absorbed.mk.injEq] at hthis
    exact ⟨hthis.2.1.symm, hthis.2.2.symm⟩
  exact eq_swap hstop (fun side => (hside side).1) fun side => (hside side).2

/-- The next chunk starts at the same line whichever side comes first. -/
theorem nextStart_swap (rest : TwoSided Patch) : nextStart? rest.swap = nextStart? rest := by
  obtain ⟨left, right⟩ := rest
  cases left <;> cases right <;>
    simp [nextStart?, TwoSided.toList, TwoSided.swap, Side.all, TwoSided.get,
      List.filterMap_cons, List.min?_cons, Nat.min_comm]

end Sweep

section Regions

variable {rest : TwoSided Patch} {start : Nat}

/-- Without fragments there are no regions. -/
theorem regionsFrom_none (shift : TwoSided Int) (h : Sweep.nextStart? rest = none) :
    regionsFrom shift rest = [] := by
  rw [regionsFrom]
  split
  · rfl
  · rename_i hsome
    rw [h] at hsome
    cases hsome

/-- The first region is that of the next chunk, and the others are those of what it leaves. -/
theorem regionsFrom_some (shift : TwoSided Int) (h : Sweep.nextStart? rest = some start) :
    regionsFrom shift rest =
      ⟨Sweep.chunkRange shift start rest .left, .span start (Sweep.chunk start rest).stop,
        Sweep.chunkRange shift start rest .right⟩ ::
      regionsFrom ⟨shift.left + (Sweep.chunk start rest).growth.left,
        shift.right + (Sweep.chunk start rest).growth.right⟩ (Sweep.chunk start rest).rest := by
  rw [regionsFrom]
  split
  · rename_i hnone
    rw [h] at hnone
    cases hnone
  · rename_i line hline
    rw [h, Option.some.injEq] at hline
    subst hline
    rfl

/-- Exchanging the sides exchanges the ranges of the regions. -/
theorem regionsFrom_swap (shift : TwoSided Int) (rest : TwoSided Patch) :
    regionsFrom shift.swap rest.swap = (regionsFrom shift rest).map ThreeSided.swap := by
  fun_induction regionsFrom shift rest with
  | case1 shift rest hnone =>
    rw [regionsFrom_none _ ((Sweep.nextStart_swap rest).trans hnone)]
    rfl
  | case2 shift rest start hstart s =>
    rename_i shift' ih
    rw [regionsFrom_some _ ((Sweep.nextStart_swap rest).trans hstart), Sweep.chunkRange,
      Sweep.chunkRange, Sweep.chunk_swap]
    exact congrArg _ ih

/-- Exchanging left and right exchanges the ranges of the regions found. -/
theorem align_swap (policy : Policy) (options : CompareOptions)
    (documents : ThreeSided Document) :
    align policy options documents.swap =
      (align policy options documents).map ThreeSided.swap :=
  regionsFrom_swap ⟨0, 0⟩ ⟨compare policy options documents.base documents.left,
    compare policy options documents.base documents.right⟩

end Regions

end Linewise
