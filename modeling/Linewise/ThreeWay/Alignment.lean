import Linewise.Comparison
import Linewise.ThreeWay.Region

/-!
# Aligning three documents

The base is compared with the left and with the right document. Fragments of
either comparison whose ranges in the base overlap or touch belong to one chunk.
A sweep through both patches takes fragments into the current chunk, first from
the left and then from the right, until neither side has one that starts before
the chunk ends. Outside the chunks all three documents run on side by side, so a
chunk's range in the base, moved by what the chunks before it added or removed on
a side, is its range on that side.
-/

namespace Linewise

/-- What taking fragments of one side into a chunk leaves. -/
structure Absorbed where
  /-- The end of the chunk in the base. -/
  stop : Nat
  /-- Number of lines that the chunk adds on the side, negative if it removes more. -/
  growth : Int
  /-- The fragments not taken. -/
  rest : Patch
  deriving DecidableEq, Repr

/-- Takes fragments from the front of a patch as long as they start no later than the chunk ends,
which each of them may move further down. -/
def absorb (stop : Nat) (growth : Int) : Patch → Absorbed
  | [] => ⟨stop, growth, []⟩
  | f :: rest =>
    if f.start₁ ≤ stop then
      absorb (max stop f.stop₁) (growth + ((f.inserted.size : Int) - f.deleted.size)) rest
    else ⟨stop, growth, f :: rest⟩

/-- A chunk under way. -/
structure Sweep where
  /-- The end of the chunk in the base. -/
  stop : Nat
  /-- Number of lines that the chunk adds on each side, negative if it removes more. -/
  growth : TwoSided Int
  /-- The fragments of each side that no chunk holds yet. -/
  rest : TwoSided Patch
  deriving DecidableEq, Repr

namespace Sweep

/-- Number of fragments that no chunk holds yet. -/
def pending (rest : TwoSided Patch) : Nat := rest.left.length + rest.right.length

/-- The lowest line of the base at which a remaining fragment starts. -/
def nextStart? (rest : TwoSided Patch) : Option Nat :=
  (rest.toList.filterMap fun patch => patch.head?.map Fragment.start₁).min?

/-- Takes what can be taken from the left and then what can be taken from the right. -/
def round (s : Sweep) : Sweep :=
  let left := absorb s.stop s.growth.left s.rest.left
  let right := absorb left.stop s.growth.right s.rest.right
  ⟨right.stop, ⟨left.growth, right.growth⟩, ⟨left.rest, right.rest⟩⟩

/-- Repeats rounds until one takes nothing. -/
def close (s : Sweep) : Sweep :=
  if pending s.round.rest < pending s.rest then close s.round else s.round
termination_by pending s.rest

/-- The chunk that starts at line `start` of the base. -/
def chunk (start : Nat) (rest : TwoSided Patch) : Sweep := close ⟨start, ⟨0, 0⟩, rest⟩

/-- Taking fragments leaves no more than there were. -/
theorem length_rest_absorb_le (stop : Nat) (growth : Int) (p : Patch) :
    (absorb stop growth p).rest.length ≤ p.length := by
  induction p generalizing stop growth with
  | nil => simp [absorb]
  | cons f rest ih =>
    unfold absorb
    split
    · exact Nat.le_succ_of_le (ih _ _)
    · exact Nat.le_refl _

/-- A fragment at the front of a patch that starts no later than the chunk ends is taken. -/
theorem length_rest_absorb_lt {stop : Nat} (growth : Int) {p : Patch} {line : Nat}
    (hhead : p.head?.map Fragment.start₁ = some line) (hline : line ≤ stop) :
    (absorb stop growth p).rest.length < p.length := by
  cases p with
  | nil => simp at hhead
  | cons f rest =>
    have hstart : f.start₁ = line := by simpa using hhead
    unfold absorb
    rw [if_pos (by omega)]
    exact Nat.lt_succ_of_le (length_rest_absorb_le _ _ _)

/-- Taking fragments never moves the end of a chunk up. -/
theorem le_stop_absorb (stop : Nat) (growth : Int) (p : Patch) :
    stop ≤ (absorb stop growth p).stop := by
  induction p generalizing stop growth with
  | nil => simp [absorb]
  | cons f rest ih =>
    unfold absorb
    split
    · have := ih (max stop f.stop₁) (growth + ((f.inserted.size : Int) - f.deleted.size))
      omega
    · exact Nat.le_refl _

/-- A round leaves no more fragments than there were. -/
theorem pending_round_le (s : Sweep) : pending s.round.rest ≤ pending s.rest := by
  have hleft := length_rest_absorb_le s.stop s.growth.left s.rest.left
  have hright := length_rest_absorb_le (absorb s.stop s.growth.left s.rest.left).stop
    s.growth.right s.rest.right
  simp only [pending, round]
  omega

/-- All rounds together leave no more fragments than the first one. -/
theorem pending_close_le (s : Sweep) : pending s.close.rest ≤ pending s.round.rest := by
  fun_induction close s with
  | case1 s _ ih => exact Nat.le_trans ih (pending_round_le _)
  | case2 => exact Nat.le_refl _

/-- A chunk takes at least the fragment at which it starts. -/
theorem pending_chunk_lt {rest : TwoSided Patch} {start : Nat} (h : nextStart? rest = some start) :
    pending (chunk start rest).rest < pending rest := by
  refine Nat.lt_of_le_of_lt (pending_close_le _) ?_
  have hmem := List.min?_mem h
  have hleft := length_rest_absorb_le start 0 rest.left
  have hright := length_rest_absorb_le (absorb start 0 rest.left).stop 0 rest.right
  have hstop := le_stop_absorb start 0 rest.left
  simp only [TwoSided.toList, Side.all, List.map_cons, List.map_nil, List.mem_filterMap,
    List.mem_cons, List.not_mem_nil, or_false, exists_eq_or_imp, exists_eq_left,
    TwoSided.get] at hmem
  simp only [pending, round]
  rcases hmem with hmem | hmem
  · have := length_rest_absorb_lt 0 hmem (Nat.le_refl _)
    omega
  · have := length_rest_absorb_lt 0 hmem hstop
    omega

end Sweep

/-- The range on a side that runs from `before` lines after `start` to `after` lines after
`stop`, where no bound falls below line 0. -/
def sideRange (start stop : Nat) (before after : Int) : LineRange :=
  .span (start + before).toNat (stop + after).toNat

/-- The regions of the remaining fragments, where the chunks before them added `shift` lines. -/
def regionsFrom (shift : TwoSided Int) (rest : TwoSided Patch) : List Region :=
  match _h : Sweep.nextStart? rest with
  | none => []
  | some start =>
    let s := Sweep.chunk start rest
    let shift' : TwoSided Int := ⟨shift.left + s.growth.left, shift.right + s.growth.right⟩
    ⟨sideRange start s.stop shift.left shift'.left, .span start s.stop,
      sideRange start s.stop shift.right shift'.right⟩ :: regionsFrom shift' s.rest
termination_by Sweep.pending rest
decreasing_by exact Sweep.pending_chunk_lt _h

/-- The regions in which left or right differs from the base, in order. -/
def align (policy : Policy) (options : CompareOptions) (documents : ThreeSided Document) :
    List Region :=
  regionsFrom ⟨0, 0⟩ ⟨compare policy options documents.base documents.left,
    compare policy options documents.base documents.right⟩

end Linewise
