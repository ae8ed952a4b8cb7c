import Mathlib.Logic.Relation
import Linewise.Proofs.ThreeWay.Alignment

/-!
# Every region holds a chain of fragments

Two fragments meet if their ranges in the base overlap or touch. A chunk takes only
fragments to which a chain leads from the one at which it starts: every line of the
base between its bounds lies in such a fragment, or at an end of one, so the next
fragment taken meets one of them. When the chunk is closed, all other fragments start
after it.
-/

namespace Linewise

/-- The ranges of two fragments in the base overlap or touch. -/
def Fragment.Meets (f g : Fragment) : Prop := f.start₁ ≤ g.stop₁ ∧ g.start₁ ≤ f.stop₁

/-- `x` is a fragment of the side that it names. -/
def IsFragmentOf (patches : TwoSided Patch) (x : Side × Fragment) : Prop := x.2 ∈ patches.get x.1

/-- A chain of fragments leads from one to the other, in which each meets the next. -/
def Linked (patches : TwoSided Patch) : Side × Fragment → Side × Fragment → Prop :=
  Relation.ReflTransGen fun x y => IsFragmentOf patches x ∧ IsFragmentOf patches y ∧ x.2.Meets y.2

namespace Linked

variable {patches : TwoSided Patch} {x y : Side × Fragment}

/-- A chain can be followed backwards. -/
theorem symm (h : Linked patches x y) : Linked patches y x := by
  induction h with
  | refl => exact .refl
  | tail _ hstep ih =>
    obtain ⟨hx, hy, hmeets⟩ := hstep
    exact ih.head ⟨hy, hx, hmeets.2, hmeets.1⟩

/-- A chain from a fragment leads to a fragment. -/
theorem isFragmentOf (h : Linked patches x y) (hx : IsFragmentOf patches x) :
    IsFragmentOf patches y := by
  induction h with
  | refl => exact hx
  | tail _ hstep _ => exact hstep.2.1

end Linked

/-- Every line of the base from `start` to `stop` lies in a fragment to which a chain leads from
`first`, or at an end of one. -/
def Reaches (patches : TwoSided Patch) (first : Side × Fragment) (start stop : Nat) : Prop :=
  ∀ line, start ≤ line → line ≤ stop →
    ∃ x, Linked patches first x ∧ x.2.start₁ ≤ line ∧ line ≤ x.2.stop₁

namespace Reaches

variable {patches : TwoSided Patch} {first x : Side × Fragment} {start stop : Nat}

/-- A fragment reaches its own lines. -/
theorem self (patches : TwoSided Patch) (x : Side × Fragment) :
    Reaches patches x x.2.start₁ x.2.start₁ := by
  intro line hlow hhigh
  have := x.2.start₁_le_stop₁
  exact ⟨x, .refl, by omega, by omega⟩

/-- A chain leads to every fragment that starts where a chain leads. -/
theorem linked (h : Reaches patches first start stop) (hfirst : IsFragmentOf patches first)
    (hx : IsFragmentOf patches x) (hstart : start ≤ x.2.start₁) (hstop : x.2.start₁ ≤ stop) :
    Linked patches first x := by
  obtain ⟨y, hy, hle, hge⟩ := h x.2.start₁ hstart hstop
  have hblock := x.2.start₁_le_stop₁
  exact hy.tail ⟨hy.isFragmentOf hfirst, hx, Nat.le_trans hle hblock, hge⟩

/-- A chain leads on to what such a fragment covers. -/
theorem extend (h : Reaches patches first start stop) (hfirst : IsFragmentOf patches first)
    (hx : IsFragmentOf patches x) (hstart : start ≤ x.2.start₁) (hstop : x.2.start₁ ≤ stop) :
    Reaches patches first start (max stop x.2.stop₁) := by
  intro line hlow hhigh
  by_cases hold : line ≤ stop
  · exact h line hlow hold
  · exact ⟨x, h.linked hfirst hx hstart hstop, by omega, by omega⟩

end Reaches

namespace Sweep

variable {patches rest : TwoSided Patch} {first : Side × Fragment} {side : Side}
  {start stop : Nat} {p : Patch} {s : Sweep}

/-! ## What a chunk takes -/

/-- The fragments that are left after some were taken were there before. -/
theorem rest_absorb_suffix (stop : Nat) (growth : Int) (p : Patch) :
    (absorb stop growth p).rest <:+ p := by
  induction p generalizing stop growth with
  | nil => exact List.suffix_rfl
  | cons f later ih =>
    rw [absorb]
    split
    · exact (ih _ _).trans (List.suffix_cons f later)
    · exact List.suffix_rfl

/-- The fragments that a round leaves were there before. -/
theorem rest_round_suffix (s : Sweep) (side : Side) :
    s.round.rest.get side <:+ s.rest.get side := by
  cases side with
  | left => exact rest_absorb_suffix _ _ _
  | right => exact rest_absorb_suffix _ _ _

/-- The fragments that all rounds together leave were there before. -/
theorem rest_close_suffix (s : Sweep) (side : Side) :
    s.close.rest.get side <:+ s.rest.get side := by
  fun_induction Sweep.close s with
  | case1 s _ ih => exact ih.trans (rest_round_suffix s side)
  | case2 s _ => exact rest_round_suffix s side

/-- The fragments that a chunk leaves were there before. -/
theorem rest_chunk_suffix (start : Nat) (rest : TwoSided Patch) (side : Side) :
    (chunk start rest).rest.get side <:+ rest.get side :=
  rest_close_suffix ⟨start, ⟨0, 0⟩, rest⟩ side

/-- No chunk ends before it starts. -/
theorem le_stop_chunk (start : Nat) (rest : TwoSided Patch) : start ≤ (chunk start rest).stop := by
  have hclose (s : Sweep) : s.stop ≤ s.close.stop := by
    fun_induction Sweep.close s with
    | case1 s _ ih => exact Nat.le_trans (le_stop_round s) ih
    | case2 s _ => exact le_stop_round s
  exact hclose ⟨start, ⟨0, 0⟩, rest⟩

/-- When no round takes more, the next fragment of each side starts after the chunk. -/
theorem stop_close_lt (s : Sweep) (side : Side) :
    ∀ f ∈ (s.close.rest.get side).head?, s.close.stop < f.start₁ := by
  fun_induction Sweep.close s with
  | case1 s _ ih => exact ih
  | case2 s hnone => exact stop_round_lt (Nat.le_of_not_lt hnone) side

/-! ## The chain in a chunk -/

/-- A chain leads to the end of a chunk after fragments of one side were taken. -/
theorem reaches_absorb (growth : Int) (hfirst : IsFragmentOf patches first)
    (hp : ∀ f ∈ p, IsFragmentOf patches (side, f) ∧ start ≤ f.start₁)
    (h : Reaches patches first start stop) :
    Reaches patches first start (absorb stop growth p).stop := by
  induction p generalizing stop growth with
  | nil => exact h
  | cons f later ih =>
    rw [List.forall_mem_cons] at hp
    obtain ⟨⟨hf, hstart⟩, hlater⟩ := hp
    rw [absorb]
    by_cases htake : f.start₁ ≤ stop
    · rw [if_pos htake]
      exact ih _ hlater (h.extend hfirst hf hstart htake)
    · rw [if_neg htake]
      exact h

/-- A chain leads to the end of a chunk after a round. -/
theorem reaches_round (hfirst : IsFragmentOf patches first)
    (hrest : ∀ side, ∀ f ∈ s.rest.get side, IsFragmentOf patches (side, f) ∧ start ≤ f.start₁)
    (h : Reaches patches first start s.stop) : Reaches patches first start s.round.stop := by
  have hleft := reaches_absorb s.growth.left hfirst (hrest .left) h
  exact reaches_absorb s.growth.right hfirst (hrest .right) hleft

/-- A chain leads to the end of a chunk after all rounds. -/
theorem reaches_close (hfirst : IsFragmentOf patches first)
    (hrest : ∀ side, ∀ f ∈ s.rest.get side, IsFragmentOf patches (side, f) ∧ start ≤ f.start₁)
    (h : Reaches patches first start s.stop) : Reaches patches first start s.close.stop := by
  fun_induction Sweep.close s with
  | case1 s _ ih =>
    refine ih ?_ (reaches_round hfirst hrest h)
    intro side f hf
    exact hrest side f ((rest_round_suffix s side).mem hf)
  | case2 s _ => exact reaches_round hfirst hrest h

/-- The fragments of both sides come in the order in which they start. -/
def Ordered (rest : TwoSided Patch) : Prop :=
  ∀ side, (rest.get side).Pairwise fun f g => f.start₁ ≤ g.start₁

/-- The fragments that a chunk leaves are in order. -/
theorem Ordered.chunk (h : Ordered rest) (start : Nat) : Ordered (chunk start rest).rest :=
  fun side => (h side).sublist (rest_chunk_suffix start rest side).sublist

/-- No fragment starts before the first one of its side. -/
theorem Ordered.le_start {line : Nat} (h : Ordered rest)
    (hhead : ∀ f ∈ (rest.get side).head?, line ≤ f.start₁) :
    ∀ f ∈ rest.get side, line ≤ f.start₁ := by
  intro f hf
  have hside := h side
  cases hpatch : rest.get side with
  | nil =>
    rw [hpatch] at hf
    cases hf
  | cons g later =>
    rw [hpatch] at hf hside hhead
    have hfirst := hhead g rfl
    rcases List.mem_cons.mp hf with rfl | hf
    · exact hfirst
    · exact Nat.le_trans hfirst ((List.pairwise_cons.mp hside).1 f hf)

/-- A chain leads from a fragment at which a chunk starts to the end of the chunk. -/
theorem reaches_chunk (hordered : Ordered rest)
    (hrest : ∀ side, ∀ f ∈ rest.get side, IsFragmentOf patches (side, f))
    (hstart : nextStart? rest = some start) :
    ∃ first, IsFragmentOf patches first ∧ first.2.start₁ = start ∧
      Reaches patches first start (chunk start rest).stop := by
  obtain ⟨hlow, side, f, hf, rfl⟩ := nextStart_spec hstart
  have hfirst := hrest side f (List.mem_of_mem_head? hf)
  refine ⟨(side, f), hfirst, rfl, reaches_close hfirst ?_ (Reaches.self patches (side, f))⟩
  intro side g hg
  exact ⟨hrest side g hg, hordered.le_start (hlow side) g hg⟩

/-- All fragments that a chunk leaves start after it. -/
theorem stop_chunk_lt (hordered : Ordered rest) (start : Nat) :
    ∀ side, ∀ f ∈ (chunk start rest).rest.get side, (chunk start rest).stop < f.start₁ :=
  fun side => (hordered.chunk start).le_start (stop_close_lt ⟨start, ⟨0, 0⟩, rest⟩ side)

end Sweep

section Regions

variable {patches rest : TwoSided Patch}

/-- Every region starts in the base where one of the fragments does. -/
theorem exists_start_of_mem_regionsFrom (shift : TwoSided Int) :
    ∀ r ∈ regionsFrom shift rest, ∃ side, ∃ f ∈ rest.get side, f.start₁ = r.base.start := by
  fun_induction regionsFrom shift rest with
  | case1 shift rest hnone => exact fun r hr => absurd hr List.not_mem_nil
  | case2 shift rest start hstart s =>
    rename_i ih
    rw [List.forall_mem_cons]
    constructor
    · obtain ⟨_, side, f, hf, hline⟩ := Sweep.nextStart_spec hstart
      exact ⟨side, f, List.mem_of_mem_head? hf, hline⟩
    · intro r hr
      obtain ⟨side, f, hf, hline⟩ := ih r hr
      exact ⟨side, f, (Sweep.rest_chunk_suffix start rest side).mem hf, hline⟩

/-- Each region ends in the base before the later ones start. -/
def Separated (regions : List Region) : Prop :=
  regions.Pairwise fun r r' => r.base.stop < r'.base.start

/-- The regions that the sweep computes are separated in the base. -/
theorem separated_regionsFrom (shift : TwoSided Int) (hordered : Sweep.Ordered rest) :
    Separated (regionsFrom shift rest) := by
  fun_induction regionsFrom shift rest with
  | case1 => exact .nil
  | case2 shift rest start hstart s =>
    rename_i ih
    refine List.pairwise_cons.mpr ⟨?_, ih (hordered.chunk start)⟩
    intro r hr
    obtain ⟨side, f, hf, hline⟩ := exists_start_of_mem_regionsFrom _ r hr
    have hafter := Sweep.stop_chunk_lt hordered start side f hf
    rw [LineRange.span_stop (Sweep.le_stop_chunk start rest), ← hline]
    exact hafter

/-- A chain leads from a fragment at which the region starts in the base to its end there. -/
def Region.HoldsChain (patches : TwoSided Patch) (r : Region) : Prop :=
  ∃ first, IsFragmentOf patches first ∧ first.2.start₁ = r.base.start ∧
    Reaches patches first r.base.start r.base.stop

/-- Every region holds a chain of fragments. -/
theorem holdsChain_of_mem_regionsFrom (shift : TwoSided Int) (hordered : Sweep.Ordered rest)
    (hrest : ∀ side, ∀ f ∈ rest.get side, IsFragmentOf patches (side, f)) :
    ∀ r ∈ regionsFrom shift rest, r.HoldsChain patches := by
  fun_induction regionsFrom shift rest with
  | case1 shift rest hnone => exact fun r hr => absurd hr List.not_mem_nil
  | case2 shift rest start hstart s =>
    rename_i ih
    rw [List.forall_mem_cons]
    constructor
    · rw [Region.HoldsChain, LineRange.span_stop (Sweep.le_stop_chunk start rest)]
      exact Sweep.reaches_chunk hordered hrest hstart
    · refine ih (hordered.chunk start) ?_
      intro side f hf
      exact hrest side f ((Sweep.rest_chunk_suffix start rest side).mem hf)

end Regions

end Linewise
