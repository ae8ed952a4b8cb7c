import Linewise.Proofs.Patch.Aligned
import Linewise.Proofs.Patch.Tight
import Linewise.ThreeWay.Alignment

/-!
# Regions cover the fragments of both sides

While a chunk grows, the fragments taken from a side lead from the start of the
chunk to the end of the last of them. When no fragment is left to take, the
unchanged lines after it lead on to the end of the chunk, so the range that the
sweep computes for a side is where the fragments of that side lead.
-/

namespace Linewise

open Patch

/-- A range that is moved to where both its bounds are known. -/
theorem sideRange_bounds {start stop start' stop' : Nat} {before after : Int}
    (hstart : (start' : Int) = start + before) (hstop : (stop' : Int) = stop + after)
    (hle : start' ≤ stop') :
    (sideRange start stop before after).start = start' ∧
      (sideRange start stop before after).stop = stop' := by
  rw [sideRange, ← hstart, ← hstop, Int.toNat_natCast, Int.toNat_natCast]
  exact ⟨rfl, LineRange.span_stop hle⟩

namespace Sweep

variable {R : Nat → Nat → Prop} {start start' stop n m : Nat} {growth : Int} {p rest : Patch}

/-- On one side with the fragments `p`, a chunk from lines `start` and `start'` on has taken those
before `rest`; they end before the chunk does and add `growth` lines. -/
def Holds (R : Nat → Nat → Prop) (start start' n m : Nat) (p : Patch) (stop : Nat) (growth : Int)
    (rest : Patch) : Prop :=
  ∃ taken i j, p = taken ++ rest ∧ taken.Aligned R start start' i j ∧ rest.Aligned R i j n m ∧
    i ≤ stop ∧ growth = ((j : Int) - start') - ((i : Int) - start)

/-- A chunk that has taken nothing. -/
theorem Holds.initial (h : p.Aligned R start start' n m) :
    Holds R start start' n m p start 0 p :=
  ⟨[], start, start', rfl, Run.refl R start start', h, Nat.le_refl _, by omega⟩

/-- A chunk may end later because of the other side. -/
theorem Holds.extend {stop' : Nat} (h : Holds R start start' n m p stop growth rest)
    (hstop : stop ≤ stop') : Holds R start start' n m p stop' growth rest := by
  obtain ⟨taken, i, j, hp, htaken, hrest, hi, hgrowth⟩ := h
  exact ⟨taken, i, j, hp, htaken, hrest, by omega, hgrowth⟩

/-- Taking fragments into a chunk keeps account of them. -/
theorem Holds.absorb (h : Holds R start start' n m p stop growth rest) (hn : stop ≤ n) :
    Holds R start start' n m p (absorb stop growth rest).stop (absorb stop growth rest).growth
      (absorb stop growth rest).rest ∧ (Linewise.absorb stop growth rest).stop ≤ n := by
  induction rest generalizing stop growth with
  | nil => exact ⟨h, hn⟩
  | cons f later ih =>
    rw [Linewise.absorb]
    by_cases htake : f.start₁ ≤ stop
    · rw [if_pos htake]
      obtain ⟨taken, i, j, hp, htaken, ⟨hrun, hcost, hlater⟩, hi, hgrowth⟩ := h
      have hend := hlater.le
      have hone : Aligned R i j [f] f.stop₁ f.stop₂ := ⟨hrun, hcost, Run.refl R _ _⟩
      refine ih ⟨taken ++ [f], f.stop₁, f.stop₂, ?_, htaken.append hone, hlater, by omega, ?_⟩
        (by omega)
      · rw [hp, List.append_assoc, List.singleton_append]
      · have := hrun.le₁
        have := hrun.le₂
        have := hrun.same_length
        have := f.start₁_le_stop₁
        have := f.start₂_le_stop₂
        change growth +
          (((f.stop₂ - f.start₂ : Nat) : Int) - ((f.stop₁ - f.start₁ : Nat) : Int)) = _
        omega
    · rw [if_neg htake]
      exact ⟨h, hn⟩

/-- What is not taken starts after the chunk. -/
theorem stop_absorb_lt (stop : Nat) (growth : Int) (p : Patch) :
    ∀ f ∈ (absorb stop growth p).rest.head?, (absorb stop growth p).stop < f.start₁ := by
  induction p generalizing stop growth with
  | nil => exact fun f hf => absurd hf (by simp [absorb])
  | cons g later ih =>
    rw [absorb]
    by_cases htake : g.start₁ ≤ stop
    · rw [if_pos htake]
      exact ih _ _
    · rw [if_neg htake]
      intro f hf
      obtain rfl : g = f := by simpa using hf
      simp only
      omega

/-- A chunk that takes nothing keeps its end. -/
theorem stop_absorb_of_length (h : (absorb stop growth p).rest.length = p.length) :
    (absorb stop growth p).stop = stop := by
  cases p with
  | nil => rfl
  | cons f later =>
    rw [absorb] at h ⊢
    by_cases htake : f.start₁ ≤ stop
    · rw [if_pos htake, List.length_cons] at h
      have := length_rest_absorb_le (max stop f.stop₁)
        (growth + ((f.inserted.size : Int) - f.deleted.size)) later
      omega
    · rw [if_neg htake]

/-- When the next fragment of a side starts after the chunk, the fragments taken lead to the end of
the chunk and the rest leads on from there. -/
theorem Holds.aligned (h : Holds R start start' n m p stop growth rest) (hn : stop ≤ n)
    (hlater : ∀ f ∈ rest.head?, stop < f.start₁) :
    ∃ taken stop', p = taken ++ rest ∧ taken.Aligned R start start' stop stop' ∧
      rest.Aligned R stop stop' n m ∧
      growth = ((stop' : Int) - start') - ((stop : Int) - start) := by
  obtain ⟨taken, i, j, hp, htaken, hrest, hi, hgrowth⟩ := h
  have hroom : i + (stop - i) ≤ (rest.head?.map Fragment.start₁).getD n := by
    cases rest with
    | nil => simpa using by omega
    | cons f later =>
      have := hlater f rfl
      simp only [List.head?_cons, Option.map_some, Option.getD_some]
      omega
  have hrun := hrest.run_before hroom
  have hadvanced := hrest.advance hroom
  have hstop : i + (stop - i) = stop := by omega
  rw [hstop] at hrun hadvanced
  have hwhole := htaken.append (q := []) hrun
  rw [List.append_nil] at hwhole
  exact ⟨taken, j + (stop - i), hp, hwhole, hadvanced, by omega⟩

section BothSides

variable {R : Side → Nat → Nat → Prop} {starts ends : TwoSided Nat} {patches : TwoSided Patch}
  {s : Sweep}

/-- The account of a chunk on both sides. -/
def HoldsBoth (R : Side → Nat → Nat → Prop) (start n : Nat) (starts ends : TwoSided Nat)
    (patches : TwoSided Patch) (s : Sweep) : Prop :=
  s.stop ≤ n ∧ ∀ side, Holds (R side) start (starts.get side) n (ends.get side)
    (patches.get side) s.stop (s.growth.get side) (s.rest.get side)

/-- A round keeps account of both sides. -/
theorem HoldsBoth.round (h : HoldsBoth R start n starts ends patches s) :
    HoldsBoth R start n starts ends patches s.round := by
  obtain ⟨hn, hsides⟩ := h
  obtain ⟨hleft, hnLeft⟩ := (hsides .left).absorb hn
  have hstop := le_stop_absorb s.stop s.growth.left s.rest.left
  obtain ⟨hright, hnRight⟩ := ((hsides .right).extend hstop).absorb hnLeft
  refine ⟨hnRight, ?_⟩
  intro side
  cases side with
  | left => exact hleft.extend (le_stop_absorb _ _ _)
  | right => exact hright

/-- After a round that takes nothing all remaining fragments start after the chunk. -/
theorem stop_round_lt (h : pending s.rest ≤ pending s.round.rest) :
    ∀ side, ∀ f ∈ (s.round.rest.get side).head?, s.round.stop < f.start₁ := by
  have hleft := length_rest_absorb_le s.stop s.growth.left s.rest.left
  have hright := length_rest_absorb_le (absorb s.stop s.growth.left s.rest.left).stop
    s.growth.right s.rest.right
  simp only [pending, Sweep.round] at h
  have hsame : s.round.stop = (absorb s.stop s.growth.left s.rest.left).stop :=
    stop_absorb_of_length (by omega)
  intro side
  cases side with
  | left =>
    rw [hsame]
    exact stop_absorb_lt _ _ _
  | right => exact stop_absorb_lt _ _ _

/-- A round never moves the end of a chunk up. -/
theorem le_stop_round (s : Sweep) : s.stop ≤ s.round.stop :=
  Nat.le_trans (le_stop_absorb s.stop s.growth.left s.rest.left) (le_stop_absorb _ _ _)

/-- All rounds together keep account of both sides, and then all remaining fragments start after the
chunk. -/
theorem HoldsBoth.close (h : HoldsBoth R start n starts ends patches s) :
    HoldsBoth R start n starts ends patches s.close ∧ s.stop ≤ s.close.stop ∧
      ∀ side, ∀ f ∈ (s.close.rest.get side).head?, s.close.stop < f.start₁ := by
  fun_induction Sweep.close s with
  | case1 s _ ih =>
    obtain ⟨hclosed, hle, hlater⟩ := ih h.round
    exact ⟨hclosed, Nat.le_trans (le_stop_round s) hle, hlater⟩
  | case2 s hnone => exact ⟨h.round, le_stop_round s, stop_round_lt (Nat.le_of_not_lt hnone)⟩

/-- The next chunk starts no later than any remaining fragment, and where one of them starts. -/
theorem nextStart_spec {rest : TwoSided Patch} (h : nextStart? rest = some start) :
    (∀ side, ∀ f ∈ (rest.get side).head?, start ≤ f.start₁) ∧
      ∃ side, ∃ f ∈ (rest.get side).head?, f.start₁ = start := by
  obtain ⟨hmem, hmin⟩ := List.min?_eq_some_iff.mp h
  have hstart (line : Nat) : line ∈ rest.toList.filterMap (·.head?.map Fragment.start₁) ↔
      ∃ side, ∃ f ∈ (rest.get side).head?, f.start₁ = line := by
    simp only [TwoSided.toList, Side.all, List.map_cons, List.map_nil, List.mem_filterMap,
      List.mem_cons, List.not_mem_nil, or_false, exists_eq_or_imp, exists_eq_left,
      Option.map_eq_some_iff]
    rw [Side.exists_iff]
    rfl
  exact ⟨fun side f hf => hmin _ ((hstart _).mpr ⟨side, f, hf, rfl⟩), (hstart start).mp hmem⟩

/-- If no chunk is left, no fragment is. -/
theorem eq_nil_of_nextStart {rest : TwoSided Patch} (h : nextStart? rest = none) (side : Side) :
    rest.get side = [] := by
  rw [nextStart?, List.min?_eq_none_iff, List.filterMap_eq_nil_iff] at h
  have hnone := h (rest.get side) (by cases side <;> simp [TwoSided.toList, Side.all])
  simpa using hnone

/-- A chunk takes a fragment of some side, starts after line `i` of the base, and on each side its
fragments lead from its start to its end. -/
theorem chunk_spec {i : Nat} {here : TwoSided Nat} {rest : TwoSided Patch}
    (h : ∀ side, (rest.get side).Aligned (R side) i (here.get side) n (ends.get side))
    (hstart : nextStart? rest = some start) :
    i ≤ start ∧ start ≤ (chunk start rest).stop ∧
      (∃ side, rest.get side ≠ (chunk start rest).rest.get side) ∧
      ∀ side, ∃ taken stop', rest.get side = taken ++ (chunk start rest).rest.get side ∧
        Run (R side) i (here.get side) start (here.get side + (start - i)) ∧
        taken.Aligned (R side) start (here.get side + (start - i)) (chunk start rest).stop stop' ∧
        ((chunk start rest).rest.get side).Aligned (R side) (chunk start rest).stop stop' n
          (ends.get side) ∧
        (chunk start rest).growth.get side =
          ((stop' : Int) - (here.get side + (start - i) : Nat)) -
            (((chunk start rest).stop : Int) - start) := by
  obtain ⟨hfirst, side₀, f, hf, rfl⟩ := nextStart_spec hstart
  have hbounds := (h side₀).bounds (List.mem_of_mem_head? hf)
  have hblock := f.start₁_le_stop₁
  have hi : i + (f.start₁ - i) = f.start₁ := by omega
  have hroom (side : Side) : i + (f.start₁ - i) ≤
      ((rest.get side).head?.map Fragment.start₁).getD n := by
    rw [hi]
    cases hhead : (rest.get side).head? with
    | none =>
      rw [Option.map_none, Option.getD_none]
      omega
    | some g => exact hfirst side g hhead
  have hrun (side : Side) := (h side).run_before (hroom side)
  have hadvanced (side : Side) := (h side).advance (hroom side)
  simp only [hi] at hrun hadvanced
  have hinitial : HoldsBoth R f.start₁ n
      ⟨here.left + (f.start₁ - i), here.right + (f.start₁ - i)⟩ ends rest
      ⟨f.start₁, ⟨0, 0⟩, rest⟩ := by
    refine ⟨by simp only; omega, ?_⟩
    intro side
    cases side with
    | left => exact Holds.initial (hadvanced .left)
    | right => exact Holds.initial (hadvanced .right)
  obtain ⟨⟨hn, hclosed⟩, hle, hlater⟩ := hinitial.close
  refine ⟨by omega, hle, ?_, fun side => ?_⟩
  · by_contra hnone
    simp only [ne_eq, not_exists, not_not] at hnone
    have hleft := congrArg List.length (hnone .left)
    have hright := congrArg List.length (hnone .right)
    have hfewer := pending_chunk_lt hstart
    simp only [pending, TwoSided.get] at hleft hright hfewer
    omega
  · obtain ⟨taken, stop', hsplit, htaken, hrest, hgrowth⟩ :=
      (hclosed side).aligned hn (hlater side)
    refine ⟨taken, stop', hsplit, hrun side, ?_, hrest, ?_⟩
    · cases side <;> exact htaken
    · cases side <;> exact hgrowth

/-- The range on a side of the chunk that starts at line `start` of the base. -/
def chunkRange (shift : TwoSided Int) (start : Nat) (rest : TwoSided Patch) (side : Side) :
    LineRange :=
  sideRange start (chunk start rest).stop (shift.get side)
    (shift.get side + (chunk start rest).growth.get side)

/-- On each side the fragments of a chunk lead through its range, and the others lead on from its
end. -/
theorem chunkRange_spec {i : Nat} {here : TwoSided Nat} {rest : TwoSided Patch}
    {shift : TwoSided Int} (side : Side)
    (h : ∀ side, (rest.get side).Aligned (R side) i (here.get side) n (ends.get side))
    (hshift : ∀ side, (here.get side : Int) = i + shift.get side)
    (hstart : nextStart? rest = some start) :
    (∃ taken, rest.get side = taken ++ (chunk start rest).rest.get side ∧
      Run (R side) i (here.get side) start (chunkRange shift start rest side).start ∧
      taken.Aligned (R side) start (chunkRange shift start rest side).start
        (chunk start rest).stop (chunkRange shift start rest side).stop) ∧
      ((chunk start rest).rest.get side).Aligned (R side) (chunk start rest).stop
        (chunkRange shift start rest side).stop n (ends.get side) ∧
      ((chunkRange shift start rest side).stop : Int) =
        (chunk start rest).stop + (shift.get side + (chunk start rest).growth.get side) := by
  obtain ⟨hi, hle, _, hsides⟩ := chunk_spec h hstart
  obtain ⟨taken, stop', hsplit, hrun, htaken, hrest, hgrowth⟩ := hsides side
  have hshift := hshift side
  obtain ⟨hrangeStart, hrangeStop⟩ := sideRange_bounds
    (show ((here.get side + (start - i) : Nat) : Int) = start + shift.get side by omega)
    (show (stop' : Int) = (chunk start rest).stop +
      (shift.get side + (chunk start rest).growth.get side) by omega) htaken.le.2
  rw [chunkRange, hrangeStart, hrangeStop]
  exact ⟨⟨taken, hsplit, hrun, htaken⟩, hrest, by omega⟩

end BothSides

end Sweep

/-- From line `i` of the base and the lines `here` of both sides on, the regions hold all remaining
fragments: each of them takes some, a run leads to it on both sides, and its fragments on a side
lead through its range there. After the last one a run leads to the ends. -/
def Covers (R : Side → Nat → Nat → Prop) (n : Nat) (ends : TwoSided Nat) (i : Nat)
    (here : TwoSided Nat) (rest : TwoSided Patch) : List Region → Prop
  | [] => ∀ side, rest.get side = [] ∧ Run (R side) i (here.get side) n (ends.get side)
  | r :: regions => ∃ later : TwoSided Patch, (∃ side, rest.get side ≠ later.get side) ∧
      (∀ side, ∃ taken, rest.get side = taken ++ later.get side ∧
        Run (R side) i (here.get side) r.base.start (r.get side.toThreeSide).start ∧
        taken.Aligned (R side) r.base.start (r.get side.toThreeSide).start r.base.stop
          (r.get side.toThreeSide).stop) ∧
      Covers R n ends r.base.stop ⟨r.left.stop, r.right.stop⟩ later regions

section Regions

variable {R : Side → Nat → Nat → Prop} {n i : Nat} {ends here : TwoSided Nat}
  {rest : TwoSided Patch}

/-- The regions computed by the sweep cover the fragments of both sides. -/
theorem covers_regionsFrom (shift : TwoSided Int)
    (h : ∀ side, (rest.get side).Aligned (R side) i (here.get side) n (ends.get side))
    (hshift : ∀ side, (here.get side : Int) = i + shift.get side) :
    Covers R n ends i here rest (regionsFrom shift rest) := by
  fun_induction regionsFrom shift rest generalizing i here with
  | case1 shift rest hnone =>
    intro side
    have hempty := Sweep.eq_nil_of_nextStart hnone side
    have hside := h side
    rw [hempty] at hside
    exact ⟨hempty, hside⟩
  | case2 shift rest start hstart s =>
    rename_i shift' ih
    obtain ⟨_, hle, hsome, _⟩ := Sweep.chunk_spec h hstart
    have hsides (side : Side) := Sweep.chunkRange_spec side h hshift hstart
    have hstop : (LineRange.span start (Sweep.chunk start rest).stop).stop =
        (Sweep.chunk start rest).stop := LineRange.span_stop hle
    refine ⟨(Sweep.chunk start rest).rest, hsome, fun side => ?_, ?_⟩
    · have htaken := (hsides side).1
      rw [← hstop] at htaken
      cases side <;> exact htaken
    · refine ih (fun side => ?_) (fun side => ?_)
      · have hrest := (hsides side).2.1
        rw [← hstop] at hrest
        cases side <;> exact hrest
      · have hnext := (hsides side).2.2
        rw [← hstop] at hnext
        cases side <;> exact hnext

/-- Regions that cover fragments lie before the ends. -/
theorem Covers.le {regions : List Region} (h : Covers R n ends i here rest regions) :
    i ≤ n ∧ ∀ side, here.get side ≤ ends.get side := by
  induction regions generalizing i here rest with
  | nil => exact ⟨(h .left).2.le₁, fun side => (h side).2.le₂⟩
  | cons r regions ih =>
    obtain ⟨later, _, hsides, hrest⟩ := h
    obtain ⟨hn, hends⟩ := ih hrest
    have hspan (side : Side) : i ≤ r.base.stop ∧
        here.get side ≤ (r.get side.toThreeSide).stop := by
      obtain ⟨taken, _, hrun, htaken⟩ := hsides side
      have := hrun.le₁
      have := hrun.le₂
      have := htaken.le
      omega
    refine ⟨Nat.le_trans (hspan .left).1 hn, fun side => Nat.le_trans (hspan side).2 ?_⟩
    have := hends side
    cases side <;> exact this

end Regions

/-- Of the regions that cover tight patches, none has a run through it on both sides. -/
theorem Covers.not_run {R : Side → Nat → Nat → Prop} {n i : Nat} {ends here : TwoSided Nat}
    {rest : TwoSided Patch} {regions : List Region} (h : Covers R n ends i here rest regions)
    (htight : ∀ side, (rest.get side).Tight (R side)) {r : Region} (hr : r ∈ regions) :
    r.base.stop ≤ n ∧ (∀ side : Side, (r.get side.toThreeSide).stop ≤ ends.get side) ∧
      ∃ side : Side, ¬Run (R side) r.base.start (r.get side.toThreeSide).start r.base.stop
        (r.get side.toThreeSide).stop := by
  induction regions generalizing i here rest with
  | nil => cases hr
  | cons r' regions ih =>
    obtain ⟨later, ⟨side, hsome⟩, hsides, hrest⟩ := h
    rcases List.mem_cons.mp hr with rfl | hr
    · obtain ⟨hn, hends⟩ := hrest.le
      refine ⟨hn, fun side => ?_, side, ?_⟩
      · have := hends side
        cases side <;> exact this
      · obtain ⟨taken, hsplit, _, htaken⟩ := hsides side
        have hside := htight side
        rw [hsplit] at hside hsome
        refine (tight_append.mp hside).1.not_run htaken fun hnone => hsome ?_
        rw [hnone, List.nil_append]
    · refine ih hrest (fun side => ?_) hr
      obtain ⟨taken, hsplit, _, _⟩ := hsides side
      have hside := htight side
      rw [hsplit] at hside
      exact (tight_append.mp hside).2.1

end Linewise
