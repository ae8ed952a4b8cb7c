import Mathlib.Order.Bounds.Basic
import Linewise.Proofs.Patch.Place

/-!
# The preferred position

A fragment with lines on one side alone may stand wherever it stays between its
neighbours and leaves no lines matched that have different keys. The two scans of the
pass find all these positions, since they have no gap: a fragment that can move by some
lines can move by any fewer. Among all of them the pass takes the one that it should:
`Placed.leastOfFirst_preferences` says so for a fragment in its place, and
`slideAll_preferred` for every fragment of a patch.
-/

namespace Linewise.Patch

variable {keys : TwoSided (Array Nat)} {lines : TwoSided (Array String)}
  {p before rest : Patch} {f g : Fragment} {previous next : Option Fragment} {side : Side}

/-! ## All positions -/

/-- The shifts that keep a fragment between the one above, or line 0, and the one below, or the end
of the documents, and with which all pairs matched between these two have equal keys. -/
def validShifts (keys : TwoSided (Array Nat)) (previous next : Option Fragment) (f : Fragment) :
    Set Int :=
  {shift | (∀ side, (endAbove previous side : Int) ≤ (f.range side).start + shift ∧
      (f.range side).stop + shift ≤ startBelow keys next side) ∧
    ∀ pair ∈ matchedFrom (endAbove previous .left) (endAbove previous .right) [f.shift shift]
      (startBelow keys next .left) (startBelow keys next .right), Agree keys pair.1 pair.2}

/-- The shifts by at most `up` lines up and at most `down` lines down. -/
def shiftsWithin (up down : Nat) : Set Int := {shift | -(up : Int) ≤ shift ∧ shift ≤ down}

/-- The least of these shifts is the one all the way up. -/
theorem isLeast_shiftsWithin_iff {up down : Nat} {shift : Int} :
    IsLeast (shiftsWithin up down) shift ↔ shift = -up := by
  have hleast : IsLeast (shiftsWithin up down) (-up) := ⟨⟨by omega, by omega⟩, fun _ hs => hs.1⟩
  exact hleast.isLeast_iff_eq.trans eq_comm

/-- The greatest of these shifts is the one all the way down. -/
theorem isGreatest_shiftsWithin_iff {up down : Nat} {shift : Int} :
    IsGreatest (shiftsWithin up down) shift ↔ shift = down := by
  have hgreatest : IsGreatest (shiftsWithin up down) down :=
    ⟨⟨by omega, by omega⟩, fun _ hs => hs.2⟩
  exact hgreatest.isGreatest_iff_eq.trans eq_comm

/-- The lines above a block are room for it as long as they have the keys of its last lines. -/
theorem le_roomAbove {K : Array Nat} {lower start stop count : Nat}
    (hlower : lower + count ≤ start)
    (hkeys : ∀ k < count, K[start - k - 1]? = K[stop - k - 1]?) :
    count ≤ roomAbove K lower start stop := by
  induction start generalizing stop count with
  | zero => omega
  | succ start ih =>
    cases count with
    | zero => exact Nat.zero_le _
    | succ count =>
      have hfirst : K[start]? = K[stop - 1]? := hkeys 0 (Nat.succ_pos count)
      have hrest : count ≤ roomAbove K lower start (stop - 1) := ih (by omega) fun k hk => by
        have hnext := hkeys (k + 1) (by omega)
        rwa [show start + 1 - (k + 1) - 1 = start - k - 1 by omega,
          show stop - (k + 1) - 1 = stop - 1 - k - 1 by omega] at hnext
      rw [roomAbove, if_pos ⟨by omega, hfirst⟩]
      exact Nat.succ_le_succ hrest

/-- The lines below a block are room for it as long as they have the keys of its first lines. -/
theorem le_roomBelow {K : Array Nat} {limit start stop count : Nat} (hlimit : count ≤ limit)
    (hkeys : ∀ k < count, K[start + k]? = K[stop + k]?) :
    count ≤ roomBelow K limit start stop := by
  induction limit generalizing start stop count with
  | zero => omega
  | succ limit ih =>
    cases count with
    | zero => exact Nat.zero_le _
    | succ count =>
      have hfirst : K[start]? = K[stop]? := hkeys 0 (Nat.succ_pos count)
      have hrest : count ≤ roomBelow K limit (start + 1) (stop + 1) := ih (by omega) fun k hk => by
        have hnext := hkeys (k + 1) (by omega)
        rwa [show start + (k + 1) = start + 1 + k by omega,
          show stop + (k + 1) = stop + 1 + k by omega] at hnext
      rw [roomBelow, if_pos hfirst]
      exact Nat.succ_le_succ hrest

namespace Placed

/-- A fragment in its place moves up as far as its room goes. -/
theorem shift_up (h : Placed keys previous next f) (hside : f.pureSide = some side) {count : Nat}
    (hcount : count ≤ roomUp keys previous f side) :
    Placed keys previous next (f.shift (-count)) := by
  have hempty := (Fragment.pureSide_eq_some_iff.mp hside).2
  have hroom := (room_le keys previous next f side).1
  have habove := h.above side
  have hbelow := h.below side
  have := habove.le₁
  have := habove.le₂
  have := habove.same_length
  obtain ⟨hstart, hstop⟩ := (f.range side).bounds_shift_up count (by omega)
  obtain ⟨hstart', hstop'⟩ :=
    (f.range side.other).bounds_shift_up count (by omega)
  have hmatched := run_of_roomAbove (AgreeOn.congr keys side) habove hcount (by omega)
    (f.range side).start_le_stop
  refine .of_side side ?_ ?_ h.inside
  · rw [Fragment.range_shift, Fragment.range_shift, hstart, hstart']
    exact habove.upTo (by omega) (by omega) (by omega) (by omega)
  · rw [Fragment.range_shift, Fragment.range_shift, hstop, hstop', ← hempty]
    rw [← hempty] at hbelow
    exact hmatched.trans hbelow

/-- A fragment in its place moves down as far as its room goes. -/
theorem shift_down (h : Placed keys previous next f) (hside : f.pureSide = some side) {count : Nat}
    (hcount : count ≤ roomDown keys next f side) :
    Placed keys previous next (f.shift count) := by
  have hempty := (Fragment.pureSide_eq_some_iff.mp hside).2
  have hroom := (room_le keys previous next f side).2
  have habove := h.above side
  have hbelow := h.below side
  have := hbelow.le₁
  have := hbelow.le₂
  have := hbelow.same_length
  obtain ⟨hstart, hstop⟩ := LineRange.bounds_shift_down (f.range side) count
  obtain ⟨hstart', hstop'⟩ := LineRange.bounds_shift_down (f.range side.other) count
  have hmatched := run_of_roomBelow (AgreeOn.congr keys side) hbelow hcount (by omega)
  refine .of_side side ?_ ?_ h.inside
  · rw [Fragment.range_shift, Fragment.range_shift, hstart, hstart', hempty]
    rw [hempty] at habove
    exact habove.trans hmatched
  · rw [Fragment.range_shift, Fragment.range_shift, hstop, hstop']
    exact hbelow.since (by omega) (by omega) (by omega) (by omega)

/-- A fragment that is in its place also further up has room above. -/
theorem le_roomUp (h : Placed keys previous next f) (hside : f.pureSide = some side) {count : Nat}
    (hcount : endAbove previous side + count ≤ (f.range side).start)
    (hmoved : Placed keys previous next (f.shift (-count))) :
    count ≤ roomUp keys previous f side := by
  have hempty := (Fragment.pureSide_eq_some_iff.mp hside).2
  have habove := h.above side
  have hbelow := hmoved.below side
  have := habove.le₁
  have := habove.le₂
  have := habove.same_length
  obtain ⟨-, hstop⟩ := (f.range side).bounds_shift_up count (by omega)
  obtain ⟨-, hstop'⟩ :=
    (f.range side.other).bounds_shift_up count (by omega)
  rw [Fragment.range_shift, Fragment.range_shift, hstop, hstop', ← hempty] at hbelow
  have := (f.range side).start_le_stop
  have := (h.below side).le₁
  refine le_roomAbove hcount fun k hk => ?_
  -- Both lines match the same line on the other side.
  have hbefore := habove.pair_at (p := (f.range side).start - k - 1)
    (q := (f.range side.other).start - k - 1) (by omega) (by omega) (by omega) (by omega)
  have hafter := hbelow.pair_at (p := (f.range side).stop - k - 1)
    (q := (f.range side.other).start - k - 1) (by omega) (by omega) (by omega) (by omega)
  exact hbefore.getElem?_eq hafter

/-- A fragment that is in its place also further down has room below. -/
theorem le_roomDown (h : Placed keys previous next f) (hside : f.pureSide = some side) {count : Nat}
    (hcount : (f.range side).stop + count ≤ startBelow keys next side)
    (hmoved : Placed keys previous next (f.shift count)) :
    count ≤ roomDown keys next f side := by
  have hempty := (Fragment.pureSide_eq_some_iff.mp hside).2
  have hbelow := h.below side
  have habove := hmoved.above side
  have := hbelow.le₂
  have := hbelow.same_length
  obtain ⟨hstart, -⟩ := LineRange.bounds_shift_down (f.range side) count
  obtain ⟨hstart', -⟩ := LineRange.bounds_shift_down (f.range side.other) count
  rw [Fragment.range_shift, Fragment.range_shift, hstart, hstart', hempty] at habove
  have := (h.above side).le₁
  have := (h.above side).le₂
  have := (h.above side).same_length
  refine le_roomBelow (by omega) fun k hk => ?_
  have hbefore := habove.pair_at (p := (f.range side).start + k)
    (q := (f.range side.other).stop + k) (by omega) (by omega) (by omega) (by omega)
  have hafter := hbelow.pair_at (p := (f.range side).stop + k)
    (q := (f.range side.other).stop + k) (by omega) (by omega) (by omega) (by omega)
  exact hbefore.getElem?_eq hafter

end Placed

/-- A fragment is in its place exactly if it is an aligned patch between its neighbours. -/
theorem placed_iff_aligned (hcost : 0 < g.cost)
    (hinside : ∀ side, startBelow keys next side ≤ (keys.get side).size) :
    Placed keys previous next g ↔
      Aligned (Agree keys) (endAbove previous .left) (endAbove previous .right) [g]
        (startBelow keys next .left) (startBelow keys next .right) :=
  ⟨fun h => ⟨h.above .left, hcost, h.below .left⟩, fun h => .of_side .left h.1 h.2.2 hinside⟩

namespace Placed

/-- The valid shifts are those that move a fragment to a place between its neighbours. -/
theorem mem_validShifts_iff (h : Placed keys previous next f) (hside : f.pureSide = some side)
    {shift : Int} :
    shift ∈ validShifts keys previous next f ↔
      (∀ side, (endAbove previous side : Int) ≤ (f.range side).start + shift ∧
        (f.range side).stop + shift ≤ startBelow keys next side) ∧
      Placed keys previous next (f.shift shift) := by
  refine and_congr_right fun hbounds => ?_
  have hshift : ∀ s, (((f.shift shift).range s).start : Int) = (f.range s).start + shift ∧
      (((f.shift shift).range s).stop : Int) = (f.range s).stop + shift := fun s => by
    have := hbounds s
    rw [Fragment.range_shift]
    exact (f.range s).bounds_shift shift (by omega)
  have hcost : 0 < (f.shift shift).cost := by
    have := (Fragment.pureSide_eq_some_iff.mp hside).1
    have := hshift side
    exact (f.shift shift).cost_pos side (by omega)
  rw [placed_iff_aligned hcost h.inside]
  refine ⟨fun hpairs => ?_, fun hmoved pair hpair => hmoved.rel_of_mem_matchedFrom hpair⟩
  -- The lines between the neighbours are as many as before on either side of the fragment.
  obtain ⟨hstart₁, hstart₂, hsameAbove, -⟩ : Run _ (endAbove previous .left)
    (endAbove previous .right) (f.range .left).start (f.range .right).start := h.above .left
  obtain ⟨hstop₁, hstop₂, hsameBelow, -⟩ : Run _ (f.range .left).stop (f.range .right).stop
    (startBelow keys next .left) (startBelow keys next .right) := h.below .left
  have hleft := hbounds .left
  have hright := hbounds .right
  have hleft' := hshift .left
  have hright' := hshift .right
  have habove : Run (fun _ _ => True) (endAbove previous .left) (endAbove previous .right)
      ((f.shift shift).range .left).start ((f.shift shift).range .right).start :=
    ⟨by omega, by omega, by omega, fun _ _ => trivial⟩
  have hbelow : Run (fun _ _ => True) ((f.shift shift).range .left).stop
      ((f.shift shift).range .right).stop (startBelow keys next .left)
      (startBelow keys next .right) :=
    ⟨by omega, by omega, by omega, fun _ _ => trivial⟩
  exact Aligned.of_matchedFrom ⟨habove, hcost, hbelow⟩ hpairs

/-- The two scans find all valid shifts: a fragment can be moved exactly as far as it has room. -/
theorem validShifts_eq (h : Placed keys previous next f) (hside : f.pureSide = some side) :
    validShifts keys previous next f =
      shiftsWithin (roomUp keys previous f side) (roomDown keys next f side) := by
  ext shift
  rw [h.mem_validShifts_iff hside]
  constructor
  · rintro ⟨hbounds, hmoved⟩
    obtain ⟨hlow, hhigh⟩ := hbounds side
    rcases Int.le_total 0 shift with hdown | hup
    · obtain ⟨count, rfl⟩ := Int.eq_ofNat_of_zero_le hdown
      have hroom := h.le_roomDown hside (by omega) hmoved
      exact ⟨by omega, Int.ofNat_le.mpr hroom⟩
    · obtain ⟨count, hcount⟩ := Int.eq_ofNat_of_zero_le (Int.neg_nonneg_of_nonpos hup)
      obtain rfl : shift = -count := by omega
      have hroom := h.le_roomUp hside (by omega) hmoved
      exact ⟨by omega, by omega⟩
  · rintro ⟨hlow, hhigh⟩
    refine ⟨h.bounds_shift hlow hhigh, ?_⟩
    rcases Int.le_total 0 shift with hdown | hup
    · obtain ⟨count, rfl⟩ := Int.eq_ofNat_of_zero_le hdown
      exact h.shift_down hside (by omega)
    · obtain ⟨count, hcount⟩ := Int.eq_ofNat_of_zero_le (Int.neg_nonneg_of_nonpos hup)
      obtain rfl : shift = -count := by omega
      exact h.shift_up hside (by omega)

end Placed

/-! ## The order of preference -/

/-- A number is the least one of the first of some sets that is not empty. -/
def LeastOfFirst : List (Set Int) → Int → Prop
  | [], _ => False
  | choice :: others, shift => IsLeast choice shift ∨ choice = ∅ ∧ LeastOfFirst others shift

/-- The shifts of a fragment by preference: the least valid one if the fragment then touches the one
above, the greatest if it then touches the one below, those after which its last line is blank,
those after which its first line is blank, and no shift. -/
def preferences (keys : TwoSided (Array Nat)) (lines : TwoSided (Array String))
    (previous next : Option Fragment) (f : Fragment) (side : Side) : List (Set Int) :=
  let valid := validShifts keys previous next f
  [{shift | IsLeast valid shift ∧ ∃ p ∈ previous, p.touches (f.shift shift) = true},
    {shift | IsGreatest valid shift ∧ ∃ p ∈ next, (f.shift shift).touches p = true},
    {shift ∈ valid | blankAt (lines.get side) (((f.shift shift).range side).stop - 1) = true},
    {shift ∈ valid | blankAt (lines.get side) ((f.shift shift).range side).start = true},
    {0}]

namespace Placed

/-- A fragment in its place touches the one above if it starts on one side where that one ends. -/
theorem touches_above_iff (h : Placed keys previous next g) (side : Side) :
    (∃ p ∈ previous, p.touches g = true) ↔
      (previous.map fun p => (p.range side).stop) = some (g.range side).start := by
  cases previous with
  | none => simp
  | some p =>
    obtain ⟨_, _, hsame, _⟩ := h.above side
    simp only [endAbove, Option.map_some, Option.getD_some, Option.mem_def, Option.some.injEq,
      exists_eq_left', Fragment.touches_iff] at *
    refine ⟨fun htouch => htouch side, fun hstart => ?_⟩
    exact Side.forall_of_other side hstart (by omega)

/-- A fragment in its place touches the one below if it ends on one side where that one starts. -/
theorem touches_below_iff (h : Placed keys previous next g) (side : Side) :
    (∃ p ∈ next, g.touches p = true) ↔
      (next.map fun p => (p.range side).start) = some (g.range side).stop := by
  cases next with
  | none => simp
  | some p =>
    obtain ⟨_, _, hsame, _⟩ := h.below side
    simp only [startBelow, Option.map_some, Option.getD_some, Option.mem_def, Option.some.injEq,
      exists_eq_left', Fragment.touches_iff] at *
    refine ⟨fun htouch => (htouch side).symm, fun hstop => ?_⟩
    exact Side.forall_of_other side hstop.symm (by omega)

/-- A fragment moved up as far as it can touches the one above if its room ends there. -/
theorem touches_highest_iff (h : Placed keys previous next f) (hside : f.pureSide = some side) :
    (∃ p ∈ previous, p.touches (f.shift (-roomUp keys previous f side)) = true) ↔
      (previous.map fun p => (p.range side).stop) =
        some ((f.range side).start - roomUp keys previous f side) := by
  have hup := (room_le keys previous next f side).1
  rw [(h.shift_up hside (Nat.le_refl _)).touches_above_iff side, Fragment.range_shift,
    (LineRange.bounds_shift_up _ _ (by omega)).1]

/-- A fragment moved down as far as it can touches the one below if its room ends there. -/
theorem touches_lowest_iff (h : Placed keys previous next f) (hside : f.pureSide = some side) :
    (∃ p ∈ next, (f.shift (roomDown keys next f side)).touches p = true) ↔
      (next.map fun p => (p.range side).start) =
        some ((f.range side).stop + roomDown keys next f side) := by
  rw [(h.shift_down hside (Nat.le_refl _)).touches_below_iff side, Fragment.range_shift,
    (LineRange.bounds_shift_down _ _).2]

end Placed

section FirstLine

variable {start up down : Nat} {test : Nat → Bool}

/-- The first line within the room of a block that passes a test is reached by the least shift after
which the block starts at such a line. -/
theorem isLeast_of_find?_eq_some {line : Nat} (hup : up ≤ start)
    (hfind : ((List.range (up + down + 1)).map (start - up + ·)).find? test = some line) :
    IsLeast {shift ∈ shiftsWithin up down | test (start + shift).toNat = true}
      (line - start) := by
  rw [← List.range'_eq_map_range] at hfind
  obtain ⟨hline, hmem, hfirst⟩ := List.find?_range'_eq_some.mp hfind
  rw [List.mem_range'_1] at hmem
  refine ⟨⟨⟨by omega, by omega⟩, ?_⟩, fun shift hshift => ?_⟩
  · rwa [show ((start : Int) + (line - start)).toNat = line by omega]
  · obtain ⟨⟨hlow, hhigh⟩, htest⟩ := hshift
    by_contra hless
    have hnone := hfirst (start + shift).toNat (by omega) (by omega)
    rw [htest] at hnone
    exact absurd hnone Bool.false_ne_true

/-- If no line within the room of a block passes a test, no shift leads to one. -/
theorem eq_empty_of_find?_eq_none (hup : up ≤ start)
    (hfind : ((List.range (up + down + 1)).map (start - up + ·)).find? test = none) :
    {shift ∈ shiftsWithin up down | test (start + shift).toNat = true} = ∅ := by
  rw [← List.range'_eq_map_range] at hfind
  refine Set.eq_empty_of_forall_notMem fun shift hshift => ?_
  obtain ⟨⟨hlow, hhigh⟩, htest⟩ := hshift
  have hnone := List.find?_range'_eq_none.mp hfind (start + shift).toNat (by omega) (by omega)
  rw [htest] at hnone
  exact absurd hnone Bool.false_ne_true

end FirstLine

/-- The preferred start of a block is reached by the least of the most preferred shifts within its
room. -/
theorem leastOfFirst_preferredStart (lines : Array String) (above below : Option Nat) {up : Nat}
    (down : Nat) (block : LineRange) (hup : up ≤ block.start) :
    LeastOfFirst
      [{shift | shift = -(up : Int) ∧ above = some (block.start - up)},
        {shift | shift = (down : Int) ∧ below = some (block.stop + down)},
        {shift ∈ shiftsWithin up down |
          blankAt lines ((block.start + shift).toNat + block.size - 1) = true},
        {shift ∈ shiftsWithin up down | blankAt lines (block.start + shift).toNat = true},
        {0}]
      (preferredStart lines above below up down block - block.start) := by
  unfold preferredStart
  dsimp only
  split
  · rename_i habove
    rw [show ((block.start - up : Nat) : Int) - block.start = -up by omega]
    exact .inl ⟨⟨rfl, habove⟩, fun s hs => hs.1.ge⟩
  rename_i habove
  refine .inr ⟨Set.eq_empty_of_forall_notMem fun s hs => habove hs.2, ?_⟩
  split
  · rename_i hbelow
    rw [show ((block.start + down : Nat) : Int) - block.start = down by omega]
    exact .inl ⟨⟨rfl, hbelow⟩, fun s hs => hs.1.ge⟩
  rename_i hbelow
  refine .inr ⟨Set.eq_empty_of_forall_notMem fun s hs => hbelow hs.2, ?_⟩
  split
  · rename_i line hfind
    exact .inl (isLeast_of_find?_eq_some hup hfind)
  rename_i hlast
  refine .inr ⟨eq_empty_of_find?_eq_none hup hlast, ?_⟩
  cases hfind : ((List.range (up + down + 1)).map (block.start - up + ·)).find? (blankAt lines) with
  | some line => exact .inl (isLeast_of_find?_eq_some hup hfind)
  | none =>
    rw [Option.getD_none, Int.sub_self]
    exact .inr ⟨eq_empty_of_find?_eq_none hup hfind, .inl isLeast_singleton⟩

/-- The bounds of a fragment on one side after a valid shift. -/
theorem range_of_mem_validShifts {shift : Int} (hshift : shift ∈ validShifts keys previous next f)
    (side : Side) :
    ((f.shift shift).range side).start = ((f.range side).start + shift).toNat ∧
      ((f.shift shift).range side).stop =
        ((f.range side).start + shift).toNat + (f.range side).size := by
  have := hshift.1 side
  have := (f.range side).bounds_shift shift (by omega)
  have := (f.range side).start_le_stop
  rw [Fragment.range_shift]
  unfold LineRange.size
  omega

namespace Placed

/-- A fragment in its place is moved to the position that is preferred among all valid ones. -/
theorem leastOfFirst_preferences (lines : TwoSided (Array String))
    (h : Placed keys previous next f) (hside : f.pureSide = some side) :
    LeastOfFirst (preferences keys lines previous next f side)
      (preferredShift keys lines previous next f side) := by
  have habove : {shift | IsLeast (validShifts keys previous next f) shift ∧
        ∃ p ∈ previous, p.touches (f.shift shift) = true} =
      {shift | shift = -(roomUp keys previous f side : Int) ∧
        (previous.map fun p => (p.range side).stop) =
          some ((f.range side).start - roomUp keys previous f side)} :=
    Set.ext fun shift => (and_congr_left' (h.validShifts_eq hside ▸ isLeast_shiftsWithin_iff)).trans
      (and_congr_right fun hshift => hshift ▸ h.touches_highest_iff hside)
  have hbelow : {shift | IsGreatest (validShifts keys previous next f) shift ∧
        ∃ p ∈ next, (f.shift shift).touches p = true} =
      {shift | shift = (roomDown keys next f side : Int) ∧
        (next.map fun p => (p.range side).start) =
          some ((f.range side).stop + roomDown keys next f side)} :=
    Set.ext fun shift =>
      (and_congr_left' (h.validShifts_eq hside ▸ isGreatest_shiftsWithin_iff)).trans
        (and_congr_right fun hshift => hshift ▸ h.touches_lowest_iff hside)
  have hlast : {shift ∈ validShifts keys previous next f |
        blankAt (lines.get side) (((f.shift shift).range side).stop - 1) = true} =
      {shift ∈ validShifts keys previous next f | blankAt (lines.get side)
        (((f.range side).start + shift).toNat + (f.range side).size - 1) = true} :=
    Set.ext fun shift => and_congr_right fun hshift => by
      rw [(range_of_mem_validShifts hshift side).2]
  have hfirst : {shift ∈ validShifts keys previous next f |
        blankAt (lines.get side) ((f.shift shift).range side).start = true} =
      {shift ∈ validShifts keys previous next f |
        blankAt (lines.get side) ((f.range side).start + shift).toNat = true} :=
    Set.ext fun shift => and_congr_right fun hshift => by
      rw [(range_of_mem_validShifts hshift side).1]
  unfold preferences preferredShift
  dsimp only
  rw [habove, hbelow, hlast, hfirst, h.validShifts_eq hside]
  have hup := (room_le keys previous next f side).1
  exact leastOfFirst_preferredStart (lines.get side) _ _ _ _ (by omega)

end Placed

/-! ## The whole pass -/

/-- In a well-formed patch whose matched lines have equal keys, take a fragment `f` with lines on
one side alone, the last fragment above it once those above have slid and were fused, and the one
below it. The valid shifts of `f` between these two are an interval, which the two scans find, and
`f` is moved by the one that is preferred: the least valid shift if `f` then starts where the
fragment above ends, else the greatest if `f` then ends where the one below starts, else the least
after which its last line is blank, else the least after which its first line is blank, else
none. -/
theorem slideAll_preferred (lines : TwoSided (Array String))
    (hp : p.WellFormed keys.left.size keys.right.size)
    (hkeys : ∀ pair ∈ p.matchedPairs keys.left.size keys.right.size, Agree keys pair.1 pair.2)
    (hsplit : p = before ++ f :: rest) (hside : f.pureSide = some side) :
    let previous := (fuse ((slideAll keys lines none p).take before.length)).getLast?
    let next := rest.head?
    let valid := validShifts keys previous next f
    valid = shiftsWithin (roomUp keys previous f side) (roomDown keys next f side) ∧
      ∃ shift ∈ valid, (slideAll keys lines none p)[before.length]? = some (f.shift shift) ∧
        LeastOfFirst (preferences keys lines previous next f side) shift := by
  intro previous next valid
  have haligned : p.Aligned (Agree keys) 0 0 keys.left.size keys.right.size :=
    (wellFormed_iff.mp hp).1.of_matchedFrom hkeys
  subst hsplit
  obtain ⟨done, last, i, j, hall, hlength, hlast, hends, hrest⟩ :=
    slideAll_append lines haligned (show EndsAt none 0 0 from ⟨rfl, rfl⟩)
  have hprevious : previous = last := by
    change (fuse ((slideAll keys lines none (before ++ f :: rest)).take before.length)).getLast? = _
    rw [hall, ← hlength, List.take_left]
    exact hlast [] rfl
  have hplaced : Placed keys previous next f := hprevious ▸ hrest.placed hends
  have hvalid := hplaced.validShifts_eq hside
  refine ⟨hvalid, preferredShift keys lines previous next f side, ?_, ?_,
    hplaced.leastOfFirst_preferences lines hside⟩
  · rw [show valid = _ from hvalid]
    exact preferredShift_bounds keys lines previous next f side
  · rw [hall, ← hlength, List.getElem?_append_right (Nat.le_refl _), Nat.sub_self, slideAll_cons,
      List.getElem?_cons_zero, hprevious, slide_eq_shift hside]

/-- Of three insertions around two replacements the first slides up to the replacement above and the
second down to the one below, each by two lines. The third stays away from its neighbours and slides
down by a line, so that it ends with the blank line and not before it. -/
theorem slideAll_preferred_neighbours :
    let keys : TwoSided (Array Nat) :=
      ⟨#[0, 1, 1, 2, 3, 3, 4, 5, 6, 7], #[8, 1, 1, 1, 2, 3, 3, 3, 9, 5, 6, 10, 6, 7]⟩
    let lines : TwoSided (Array String) := ⟨#["m", "k", "k", "e", "g", "g", "w", "a", "", "b"],
      #["n", "k", "k", "k", "e", "g", "g", "g", "v", "a", "", "x", "", "b"]⟩
    let above : Fragment := ⟨.span 0 1, .span 0 1⟩
    let up : Fragment := ⟨.emptyAt 3, .span 3 4⟩
    let down : Fragment := ⟨.emptyAt 4, .span 5 6⟩
    let below : Fragment := ⟨.span 6 7, .span 8 9⟩
    let blank : Fragment := ⟨.emptyAt 8, .span 10 12⟩
    let p : Patch := [above, up, down, below, blank]
    let fusedAbove : Fragment := ⟨.span 0 1, .span 0 2⟩
    let fusedBelow : Fragment := ⟨.span 6 7, .span 7 9⟩
    p.WellFormed keys.left.size keys.right.size ∧
      (∀ pair ∈ p.matchedPairs keys.left.size keys.right.size, Agree keys pair.1 pair.2) ∧
      (∀ f ∈ [up, down, blank], f.pureSide = some .right) ∧
      slideAll keys lines none p =
        [above, up.shift (-2), down.shift 2, below, blank.shift 1] ∧
      (validShifts keys (some above) (some down) up = shiftsWithin 2 0 ∧
        above.touches (up.shift (-2)) = true ∧
        LeastOfFirst (preferences keys lines (some above) (some down) up .right) (-2)) ∧
      (validShifts keys (some fusedAbove) (some below) down = shiftsWithin 0 2 ∧
        (down.shift 2).touches below = true ∧
        LeastOfFirst (preferences keys lines (some fusedAbove) (some below) down .right) 2) ∧
      (validShifts keys (some fusedBelow) none blank = shiftsWithin 0 1 ∧
        fusedBelow.touches (blank.shift 1) = false ∧
        LeastOfFirst (preferences keys lines (some fusedBelow) none blank .right) 1) := by
  intro keys lines above up down below blank p fusedAbove fusedBelow
  have hp : p.WellFormed keys.left.size keys.right.size := by decide
  have hkeys : ∀ pair ∈ p.matchedPairs keys.left.size keys.right.size,
      Agree keys pair.1 pair.2 := by decide
  have hside : ∀ f ∈ [up, down, blank], f.pureSide = some .right := by decide
  have hall : slideAll keys lines none p =
      [above, up.shift (-2), down.shift 2, below, blank.shift 1] := by
    decide +kernel
  have hup := slideAll_preferred lines hp hkeys
    (show p = [above] ++ up :: [down, below, blank] from rfl) (hside up (by simp))
  have hdown := slideAll_preferred lines hp hkeys
    (show p = [above, up] ++ down :: [below, blank] from rfl) (hside down (by simp))
  have hblank := slideAll_preferred lines hp hkeys
    (show p = [above, up, down, below] ++ blank :: [] from rfl) (hside blank (by simp))
  have hshift {f g : Fragment} {shift : Int} (hstart : 0 < g.start₂)
      (h : some g = some (f.shift shift)) : shift = g.start₂ - f.start₂ := by
    have hmoved : g.start₂ = (f.start₂ + shift).toNat :=
      congrArg Fragment.start₂ (Option.some.inj h)
    omega
  rw [hall] at hup hdown hblank
  refine ⟨hp, hkeys, hside, hall, ?_, ?_, ?_⟩
  · obtain ⟨hvalid, shift, -, hplace, hleast⟩ := hup
    obtain rfl : shift = -2 := hshift (by decide) hplace
    exact ⟨hvalid, by decide, hleast⟩
  · obtain ⟨hvalid, shift, -, hplace, hleast⟩ := hdown
    obtain rfl : shift = 2 := hshift (by decide) hplace
    exact ⟨hvalid, by decide, hleast⟩
  · obtain ⟨hvalid, shift, -, hplace, hleast⟩ := hblank
    obtain rfl : shift = 1 := hshift (by decide) hplace
    exact ⟨hvalid, by decide, hleast⟩

end Linewise.Patch
