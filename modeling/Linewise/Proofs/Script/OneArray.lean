import Linewise.Proofs.Script.DeletionsFirst

/-!
# The search in one array

The rows of a search can share one array, with an entry for every diagonal: each round
writes over the entries of every other diagonal and reads those between them, and a copy
of the diagonals in use, taken before each round, serves to walk back. Here is the search
in this form, with signed numbers and with each step checked: a place outside the array
or outside a sequence ends it without a result, and so does a search that no round stops.
It has a result for any two sequences, the same as with rows, and stops at the end of both.
-/

namespace Linewise.Script

open Frontier

variable {a b : Array Nat} {row : Row} {rows : List Row} {v : Array Int}
  {snapshots : List (Array Int)} {middle d i x y distance : Nat} {k : Int}

/-! ## The search with every step checked -/

/-- The entry at a place given by a signed number, if there is one. -/
def at? {α : Type} (entries : Array α) (place : Int) : Option α :=
  if 0 ≤ place then entries[place.toNat]? else none

/-- How far diagonal `k` reaches, in an array with diagonal 0 at `middle`. -/
def reach? (v : Array Int) (middle : Nat) (k : Int) : Option Int := at? v (k + middle)

/-- The array with `x` written for diagonal `k`, if it has a place for it. -/
def write? (v : Array Int) (middle : Nat) (k x : Int) : Option (Array Int) :=
  if 0 ≤ k + middle ∧ k + middle < v.size then some (v.set! (k + middle).toNat x) else none

/-- The diagonals `-d`, …, `d` of the array, if it has them all. -/
def snapshot? (v : Array Int) (middle d : Nat) : Option (Array Int) :=
  if d ≤ middle ∧ middle + d < v.size then some (v.extract (middle - d) (middle + d + 1)) else none

/-- The diagonal from which diagonal `k` is reached in round `d`. -/
def origin? (v : Array Int) (middle d : Nat) (k : Int) : Option Int :=
  if k = -d then some (k + 1)
  else if k = d then some (k - 1)
  else do
    if (← reach? v middle (k - 1)) < (← reach? v middle (k + 1)) then return k + 1
    else return k - 1

/-- Where diagonal `k` starts in round `d`, before any match is followed. -/
def start? (v : Array Int) (middle d : Nat) (k : Int) : Option Int := do
  let origin ← origin? v middle d k
  let x ← reach? v middle origin
  return if origin = k + 1 then x else x + 1

/-- Where the run of matching elements from `(x, y)` on ends, if all elements that are compared
exist. -/
def follow? (a b : Array Nat) (x y : Int) : Option Int :=
  if x < a.size ∧ y < b.size then
    match at? a x, at? b y with
    | some u, some w => if u = w then follow? a b (x + 1) (y + 1) else some x
    | _, _ => none
  else some x
termination_by (a.size - x).toNat

/-- The `count` last entries of round `d`, from entry `i` on: the array after them, or where the
round stopped since a point was at or past the end of both sequences. -/
def round? (a b : Array Nat) (middle d : Nat) :
    (count i : Nat) → (v : Array Int) → Option (Array Int × Option (Int × Int))
  | 0, _, v => some (v, none)
  | count + 1, i, v => do
    let k : Int := 2 * i - d
    let start ← start? v middle d k
    let x ← follow? a b start (start - k)
    let v' ← write? v middle k x
    if a.size ≤ x ∧ b.size ≤ x - k then return (v', some (x, x - k))
    else round? a b middle d count (i + 1) v'

/-- Where a search stopped. -/
structure Stop where
  /-- What the array held before each round, the latest first. -/
  snapshots : List (Array Int)
  /-- The place in the first sequence. -/
  x : Int
  /-- The place in the second sequence. -/
  y : Int

/-- The rounds from `d` on, at most `fuel` of them. -/
def rounds? (a b : Array Nat) (middle : Nat) :
    (fuel d : Nat) → (snapshots : List (Array Int)) → (v : Array Int) → Option Stop
  | 0, _, _, _ => none
  | fuel + 1, d, snapshots, v => do
    let snapshot ← snapshot? v middle d
    match ← round? a b middle d (d + 1) 0 v with
    | (_, some (x, y)) => return ⟨snapshot :: snapshots, x, y⟩
    | (v', none) => rounds? a b middle fuel (d + 1) (snapshot :: snapshots) v'

/-- The search, in an array for all diagonals that rounds `0`, …, `a.size + b.size` could reach. -/
def search? (a b : Array Nat) : Option Stop :=
  let middle := a.size + b.size
  rounds? a b middle (middle + 1) 0 [] (Array.replicate (2 * middle + 1) 0)

/-- Walks back from `(x, y)` and puts the edits in front of `script`. -/
def retrace? : (snapshots : List (Array Int)) → (x y : Int) → (script : Script) → Option Script
  | [], _, _, script => some script
  | [_], x, y, script => some (kept (min x y).toNat ++ script)
  | v :: earlier :: rest, x, y, script => do
    let d := rest.length + 1
    let k := x - y
    let origin ← origin? v d d k
    let x' ← reach? v d origin
    let y' := x' - origin
    let run := (min (x - x') (y - y')).toNat
    let edit := if x' < x - run then Edit.delete else Edit.insert
    retrace? (earlier :: rest) x' y' (edit :: (kept run ++ script))

/-- A shortest script from `a` to `b`, as `direct` finds it. -/
def direct? (a b : Array Nat) : Option Script :=
  if a.isEmpty || b.isEmpty then some (replaced a.size b.size)
  else do
    let stop ← search? a b
    retrace? stop.snapshots a.size b.size []

/-! ## One step -/

/-- The array holds the entries of a row for its diagonals. -/
def Holds (v : Array Int) (middle : Nat) (row : Row) : Prop :=
  ∀ j < row.size, reach? v middle (2 * j + 1 - row.size) = some (row.getD j 0 : Int)

/-- At a place that is not below zero stands the entry of an array. -/
theorem at?_natCast {α : Type} (entries : Array α) (place : Nat) :
    at? entries place = entries[place]? := by
  rw [at?, if_pos (Int.natCast_nonneg place), Int.toNat_natCast]

/-- A place in the array can be written, and all others stay as they are. -/
theorem exists_write (hsize : v.size = 2 * middle + 1) (hlow : -middle ≤ k) (hhigh : k ≤ middle)
    (x : Int) :
    ∃ v', write? v middle k x = some v' ∧ v'.size = 2 * middle + 1 ∧
      ∀ k', reach? v' middle k' = if k' = k then some x else reach? v middle k' := by
  refine ⟨_, if_pos (by omega), by simpa using hsize, fun k' => ?_⟩
  unfold reach? at?
  rw [Array.set!_eq_setIfInBounds, Array.getElem?_setIfInBounds]
  by_cases hk : k' = k
  · subst hk
    rw [if_pos (by omega), if_pos rfl, if_pos (by omega), if_pos rfl]
  · rw [if_neg hk]
    split
    · rw [if_neg (by omega)]
    · rfl

/-- The diagonals in use can be copied. -/
theorem exists_snapshot (hsize : v.size = 2 * middle + 1) (hd : d ≤ middle) :
    ∃ s, snapshot? v middle d = some s ∧
      ∀ k : Int, -d ≤ k → k ≤ d → reach? s d k = reach? v middle k := by
  refine ⟨_, if_pos (by omega), fun k hlow hhigh => ?_⟩
  unfold reach? at?
  rw [if_pos (by omega), if_pos (by omega), Array.getElem?_extract, if_pos (by omega)]
  congr 1
  omega

/-- A diagonal is reached from the one above by a step down, and else from the one below. -/
theorem origin?_eq (h : Holds v middle row) (hi : i ≤ row.size) (hk : k = 2 * i - row.size) :
    origin? v middle row.size k = some (if stepsDown row i then k + 1 else k - 1) := by
  unfold origin?
  by_cases hfirst : i = 0
  · have hdown : stepsDown row i = true := by simp [stepsDown, hfirst]
    rw [if_pos (by omega), if_pos hdown]
  by_cases hlast : i = row.size
  · have hright : stepsDown row i = false := by
      rw [stepsDown, ← hlast]
      simp [hfirst]
    rw [if_neg (by omega), if_pos (by omega), hright]
    rfl
  have hbelow := h (i - 1) (by omega)
  have habove := h i (by omega)
  rw [show 2 * ((i - 1 : Nat) : Int) + 1 - row.size = k - 1 by omega] at hbelow
  rw [show 2 * (i : Int) + 1 - row.size = k + 1 by omega] at habove
  have hstep : stepsDown row i = true ↔ (row.getD (i - 1) 0 : Int) < (row.getD i 0 : Int) := by
    simp [stepsDown, hfirst, hlast]
  rw [if_neg (by omega), if_neg (by omega)]
  simp only [hbelow, habove, Option.bind_eq_bind, Option.bind_some, hstep]
  split <;> rfl

/-- A diagonal starts where its entry does. -/
theorem start?_eq (h : Holds v middle row) (hblank : row.size = 0 → reach? v middle 1 = some 0)
    (hi : i ≤ row.size) (hk : k = 2 * i - row.size) :
    start? v middle row.size k = some (entry row i : Int) := by
  unfold start?
  simp only [origin?_eq h hi hk, Option.bind_eq_bind, Option.bind_some]
  cases hstep : stepsDown row i with
  | true =>
    have hentry : entry row i = row.getD i 0 := if_pos hstep
    have habove : reach? v middle (k + 1) = some (row.getD i 0 : Int) := by
      by_cases hlt : i < row.size
      · rw [← h i hlt]
        congr 1
        omega
      · have hzero : row.size = 0 := by
          obtain rfl : i = row.size := by omega
          simpa [stepsDown] using hstep
        rw [show k + 1 = 1 by omega, hblank hzero, Array.getD_eq_getD_getElem?,
          Array.getElem?_eq_none (by omega)]
        rfl
    simp [habove, hentry]
  | false =>
    have hentry : entry row i = row.getD (i - 1) 0 + 1 := by
      rw [entry, hstep]
      rfl
    have hpos : i ≠ 0 := by
      rintro rfl
      simp [stepsDown] at hstep
    have hbelow := h (i - 1) (by omega)
    rw [show 2 * ((i - 1 : Nat) : Int) + 1 - row.size = k - 1 by omega] at hbelow
    simp [hbelow, hentry, show k - 1 ≠ k + 1 by omega]

/-- Matches are followed as far as without checks. -/
theorem follow?_eq (a b : Array Nat) (x y : Nat) :
    follow? a b x y = some (follow a b x y : Int) := by
  fun_induction follow a b x y with
  | case1 x y h heq ih =>
    rw [follow?, if_pos (by omega), at?_natCast, at?_natCast, Array.getElem?_eq_getElem h.1,
      Array.getElem?_eq_getElem h.2]
    exact (if_pos heq).trans ih
  | case2 x y h hne =>
    rw [follow?, if_pos (by omega), at?_natCast, at?_natCast, Array.getElem?_eq_getElem h.1,
      Array.getElem?_eq_getElem h.2]
    exact if_neg hne
  | case3 x y h => rw [follow?, if_neg (by omega)]

/-! ## One round -/

/-- The array in the round after `row`, up to entry `i`. The entries of `row` are still there, since
the round writes between them. -/
structure InRound (a b : Array Nat) (middle : Nat) (row : Row) (i : Nat) (v : Array Int) :
    Prop where
  size_eq : v.size = 2 * middle + 1
  holds : Holds v middle row
  blank : row.size = 0 → reach? v middle 1 = some 0
  written : ∀ j < i, reach? v middle (2 * j - row.size) = some ((next a b row).getD j 0 : Int)

/-- Entry `i` of a round is written at its place, where its diagonal reaches furthest. -/
theorem InRound.exists_write (hrow : IsFrontier a b row) (hmiddle : row.size ≤ middle)
    (h : InRound a b middle row i v) (hi : i ≤ row.size) (hk : k = 2 * i - row.size) :
    ∃ start v', start? v middle row.size k = some start ∧
      follow? a b start (start - k) = some ((next a b row).getD i 0 : Int) ∧
      write? v middle k ((next a b row).getD i 0 : Int) = some v' ∧
      InRound a b middle row (i + 1) v' := by
  obtain ⟨v', hwrite, hsize, hreach⟩ := Script.exists_write h.size_eq (k := k) (by omega) (by omega)
    ((next a b row).getD i 0 : Int)
  obtain ⟨hdiagonal, -⟩ := within_entry hrow hi
  refine ⟨_, v', start?_eq h.holds h.blank hi hk, ?_, hwrite, hsize, fun j hj => ?_,
    fun hzero => ?_, fun j hj => ?_⟩
  · rw [show (entry row i : Int) - k = (height row.size i (entry row i) : Nat) by omega, follow?_eq,
      getD_next a b hi]
  · rw [hreach, if_neg (by omega)]
    exact h.holds j hj
  · rw [hreach, if_neg (by omega)]
    exact h.blank hzero
  · rw [hreach]
    rcases Nat.lt_or_eq_of_le (Nat.le_of_lt_succ hj) with hlt | rfl
    · rw [if_neg (by omega)]
      exact h.written j hlt
    · rw [if_pos hk.symm]

/-- The array after a round is the one before the next round. -/
theorem InRound.next (h : InRound a b middle row (row.size + 1) v) :
    InRound a b middle (next a b row) 0 v := by
  refine ⟨h.size_eq, fun j hj => ?_, fun hzero => ?_, fun j hj => absurd hj (Nat.not_lt_zero j)⟩
  · rw [size_next] at hj ⊢
    rw [← h.written j hj]
    congr 1
    omega
  · rw [size_next] at hzero
    cases hzero

/-- Entry `j` of the round after `row` is at or past the end of both sequences. -/
def Ends (a b : Array Nat) (row : Row) (j : Nat) : Prop :=
  a.size ≤ (next a b row).getD j 0 ∧ b.size ≤ height row.size j ((next a b row).getD j 0)

/-- A round stops at an entry that is at or past the end, and if there is none it leaves the array
with all its entries. -/
theorem round?_spec (hrow : IsFrontier a b row) (hmiddle : row.size ≤ middle) (count : Nat)
    (h : InRound a b middle row i v) (hcount : i + count = row.size + 1) :
    ((∃ j ≤ row.size, Ends a b row j) ∧
      ∃ v', ∃ x y : Nat, a.size ≤ x ∧ b.size ≤ y ∧ Within a b row.size x y ∧
        round? a b middle row.size count i v = some (v', some ((x : Int), (y : Int)))) ∨
    ((∀ j, i ≤ j → j ≤ row.size → ¬Ends a b row j) ∧
      ∃ v', InRound a b middle row (row.size + 1) v' ∧
        round? a b middle row.size count i v = some (v', none)) := by
  induction count generalizing i v with
  | zero =>
    obtain rfl : i = row.size + 1 := hcount
    exact .inr ⟨fun j hlow hhigh => by omega, v, h, rfl⟩
  | succ count ih =>
    have hi : i ≤ row.size := by omega
    obtain ⟨start, v', hstart, hfollow, hwrite, hnext⟩ := h.exists_write hrow hmiddle hi rfl
    obtain ⟨hdiagonal, hwithin, -⟩ := (furthest_follow hrow hi).1
    rw [← getD_next a b hi] at hdiagonal hwithin
    have hy : ((next a b row).getD i 0 : Int) - (2 * i - row.size) =
        (height row.size i ((next a b row).getD i 0) : Nat) := by omega
    simp only [round?, hstart, hfollow, hwrite, hy, Option.bind_eq_bind, Option.bind_some]
    by_cases hend : Ends a b row i
    · refine .inl ⟨⟨i, hi, hend⟩, v', _, _, hend.1, hend.2, hwithin, if_pos ?_⟩
      exact ⟨Int.ofNat_le.mpr hend.1, Int.ofNat_le.mpr hend.2⟩
    · rw [if_neg fun hle => hend ⟨Int.ofNat_le.mp hle.1, Int.ofNat_le.mp hle.2⟩]
      rcases ih hnext (by omega) with hstop | ⟨hrest, hgo⟩
      · exact .inl hstop
      · refine .inr ⟨fun j hlow hhigh => ?_, hgo⟩
        rcases Nat.lt_or_eq_of_le hlow with hlt | rfl
        · exact hrest j hlt hhigh
        · exact hend

/-- The next row reaches the end if one of its entries does. -/
theorem reachesEnd_next_iff :
    reachesEnd a.size b.size (next a b row) = true ↔ ∃ j ≤ row.size, Ends a b row j := by
  rw [reachesEnd_iff, size_next, Nat.add_sub_cancel]
  exact exists_congr fun j => and_congr_left fun _ => Nat.lt_succ_iff

/-! ## The search -/

/-- Snapshots, the latest first, hold the rows that they were taken after. Before the first of them
there was no row. -/
def Records : List (Array Int) → List Row → Prop
  | v :: snapshots, row :: rows => Holds v row.size row ∧ Records snapshots rows
  | [_], [] => True
  | _, _ => False

namespace Records

/-- Without rows there is one snapshot. -/
theorem eq_singleton (h : Records snapshots []) : ∃ v, snapshots = [v] := by
  cases snapshots with
  | nil => exact h.elim
  | cons v rest =>
    cases rest with
    | nil => exact ⟨v, rfl⟩
    | cons _ _ => exact h.elim

/-- The latest snapshot holds the latest row, and there is one before it. -/
theorem eq_cons (h : Records snapshots (row :: rows)) :
    ∃ v s rest, snapshots = v :: s :: rest ∧ Holds v row.size row ∧ Records (s :: rest) rows := by
  cases snapshots with
  | nil => exact h.elim
  | cons v rest =>
    cases rest with
    | nil => cases rows <;> exact h.2.elim
    | cons s rest => exact ⟨v, s, rest, rfl, h⟩

/-- There is one snapshot more than rows. -/
theorem length_eq (h : Records snapshots rows) : snapshots.length = rows.length + 1 := by
  induction rows generalizing snapshots with
  | nil =>
    obtain ⟨v, rfl⟩ := h.eq_singleton
    rfl
  | cons row rows ih =>
    obtain ⟨v, s, rest, rfl, -, hearlier⟩ := h.eq_cons
    rw [List.length_cons, ih hearlier, List.length_cons]

end Records

/-- From a round on with the array as the rounds before have left it, the search stops at the end of
both sequences, and its snapshots hold the rows of the search with rows. -/
theorem rounds?_spec
    (hdistance : distance + 2 * commonLength a.toList b.toList = a.size + b.size) (fuel : Nat)
    (hrows : IsTrace a b rows) (hlength : rows.length ≤ distance)
    (hfuel : rows.length + fuel = a.size + b.size + 1)
    (h : InRound a b (a.size + b.size) (rows.headD #[]) 0 v)
    (hsnapshots : ∀ s, Holds s rows.length (rows.headD #[]) → Records (s :: snapshots) rows) :
    ∃ all, rounds? a b (a.size + b.size) fuel rows.length snapshots v =
        some ⟨all, a.size, b.size⟩ ∧ Records all (searchRows a b fuel rows) := by
  induction fuel generalizing rows snapshots v with
  | zero => omega
  | succ fuel ih =>
    obtain ⟨hsize, hrow⟩ := hrows.headD
    generalize hlast : rows.headD #[] = row at *
    obtain ⟨s, hs, hsame⟩ := exists_snapshot h.size_eq (d := rows.length) (by omega)
    have hrecords : Records (s :: snapshots) rows := by
      refine hsnapshots s fun j hj => ?_
      rw [hsame _ (by omega) (by omega)]
      exact h.holds j hj
    simp only [rounds?, searchRows, hs, hlast, Option.bind_eq_bind, Option.bind_some]
    rw [← hsize]
    rcases round?_spec hrow (by omega) (row.size + 1) h (Nat.zero_add _) with
      ⟨hends, v', x, y, hx, hy, hwithin, hround⟩ | ⟨hnone, v', hnext, hround⟩
    · obtain ⟨rfl, rfl, -⟩ := eq_end_of_within hwithin hx hy hdistance (by omega)
      rw [hround, if_pos (reachesEnd_next_iff.mpr hends)]
      exact ⟨_, rfl, hrecords⟩
    · have hgo : ¬reachesEnd a.size b.size (next a b row) = true := fun hend => by
        obtain ⟨j, hj, hends⟩ := reachesEnd_next_iff.mp hend
        exact hnone j (Nat.zero_le j) hj hends
      have hne : rows.length ≠ distance := fun heq =>
        hgo (reachesEnd_of_distance (isFrontier_next hrow) (by rw [size_next]; omega) hdistance)
      rw [hround, if_neg hgo, hsize]
      have htrace : IsTrace a b (next a b row :: rows) :=
        ⟨by rw [size_next, hsize], isFrontier_next hrow, hrows⟩
      refine ih htrace ?_ ?_ ?_ ?_
      · rw [List.length_cons]
        omega
      · rw [List.length_cons]
        omega
      · exact hnext.next
      · intro s' hs'
        rw [List.length_cons, ← hsize, ← size_next a b row] at hs'
        exact ⟨hs', hrecords⟩

/-- The search stops at the end of both sequences, and its snapshots hold the rows of the search
with rows. -/
theorem search?_spec (hpos : 0 < a.size + b.size) :
    ∃ snapshots, search? a b = some ⟨snapshots, a.size, b.size⟩ ∧
      Records snapshots (searchRows a b (a.size + b.size + 1) []) := by
  obtain ⟨-, hdistance, -⟩ := searchRows_reaches a b
  have htrace : IsTrace a b [] := trivial
  refine rounds?_spec hdistance (a.size + b.size + 1) htrace (Nat.zero_le _) (Nat.zero_add _)
    ⟨Array.size_replicate, ?_, fun _ => ?_, ?_⟩ fun s _ => trivial
  · exact fun j hj => absurd hj (Nat.not_lt_zero j)
  · rw [reach?, show (1 : Int) + (a.size + b.size : Nat) = (1 + (a.size + b.size) : Nat) by omega,
      at?_natCast, Array.getElem?_replicate, if_pos (by omega)]
  · exact fun j hj => absurd hj (Nat.not_lt_zero j)

/-- One step back over a snapshot is one step back over the row that it holds. -/
theorem retrace?_cons {s : Array Int} {rest : List (Array Int)} (hrow : IsFrontier a b row)
    (hv : Holds v row.size row) (hcount : rest.length + 1 = row.size)
    (h : Furthest a b row.size i x y) (script : Script) :
    ∃ j x' y' script', Furthest a b (row.size - 1) j x' y' ∧
      retrace? (v :: s :: rest) x y script = retrace? (s :: rest) (x' : Nat) (y' : Nat) script' ∧
      ∀ rows, walkBack (row :: rows) x y script = walkBack rows x' y' script' := by
  have hdiagonal := h.diagonal
  have hi := (run_of_furthest hrow h).1
  have horigin := origin?_eq hv hi
    (show (x : Int) - y = 2 * i - row.size by omega)
  simp only [retrace?, hcount, horigin, Option.bind_eq_bind, Option.bind_some]
  cases hstep : stepsDown row i with
  | true =>
    obtain ⟨y', hbefore, hrun, hwalk⟩ := walkBack_of_stepsDown hrow (by omega) h hstep
    have hbound := hbefore.within.diagonal_le
    have hback := hbefore.diagonal
    have hlength := hrun.same_length
    have hle := hrun.le₂
    have hreach := hv i (by omega)
    rw [show 2 * (i : Int) + 1 - row.size = x - y + 1 by omega] at hreach
    have hy' : (row.getD i 0 : Int) - (x - y + 1) = y' := by omega
    have hmatches : (min ((x : Int) - row.getD i 0) (y - y')).toNat = x - row.getD i 0 := by omega
    refine ⟨i, row.getD i 0, y', _, hbefore, ?_, fun rows => hwalk rows script⟩
    simp only [if_true, hreach, Option.bind_some, hy', hmatches]
    rw [if_neg (by omega)]
  | false =>
    obtain ⟨j, y', rfl, hbefore, hrun, hwalk⟩ := walkBack_of_not_stepsDown hrow h hstep
    have hback := hbefore.diagonal
    have hlength := hrun.same_length
    have hle := hrun.le₁
    have hreach := hv j (by omega)
    rw [show 2 * (j : Int) + 1 - row.size = x - y - 1 by omega] at hreach
    have hy' : (row.getD j 0 : Int) - (x - y - 1) = y' := by omega
    have hmatches : (min ((x : Int) - row.getD j 0) (y - y')).toNat = y - y' := by omega
    refine ⟨j, row.getD j 0, y', _, hbefore, ?_, fun rows => hwalk rows script⟩
    simp only [Bool.false_eq_true, if_false, hreach, Option.bind_some, hy', hmatches]
    rw [if_pos (by omega)]

/-- Walking back over the snapshots is walking back over the rows. -/
theorem retrace?_eq (hrows : IsTrace a b rows) (h : Furthest a b rows.length i x y)
    (hrecords : Records snapshots rows) (script : Script) :
    retrace? snapshots x y script = some (walkBack rows x y script) := by
  induction rows generalizing i x y script snapshots with
  | nil =>
    obtain ⟨v, rfl⟩ := hrecords.eq_singleton
    rw [retrace?, walkBack]
    congr 3
    omega
  | cons row rows ih =>
    obtain ⟨hsize, hrow, hrows⟩ := hrows
    rw [List.length_cons, ← hsize] at h
    obtain ⟨v, s, rest, rfl, hv, hearlier⟩ := hrecords.eq_cons
    have hcount := hearlier.length_eq
    rw [List.length_cons, ← hsize] at hcount
    obtain ⟨j, x', y', script', hbefore, hretrace, hwalk⟩ := retrace?_cons hrow hv hcount h script
    rw [hsize, Nat.add_sub_cancel] at hbefore
    rw [hretrace, hwalk, ih hrows hbefore hearlier]

/-- With every step checked the script is the same. -/
theorem direct?_eq (a b : Array Nat) : direct? a b = some (direct a b) := by
  unfold direct? direct
  by_cases hempty : (a.isEmpty || b.isEmpty) = true
  · rw [if_pos hempty, if_pos hempty]
  · rw [if_neg hempty, if_neg hempty]
    simp only [Bool.or_eq_true, Array.isEmpty_iff_size_eq_zero] at hempty
    obtain ⟨htrace, -, i, hend⟩ := searchRows_reaches a b
    obtain ⟨snapshots, hsearch, hrecords⟩ := search?_spec (a := a) (b := b) (by omega)
    rw [hsearch, Option.bind_eq_bind, Option.bind_some]
    exact retrace?_eq htrace hend hrecords []

/-- The direct search uses up the first sequence and produces the second, keeping only equal
elements, and deletes and inserts together as few elements as a longest common subsequence allows.
No insertion is directly followed by a deletion, so between two kept elements all deletions come
before all insertions. In one array for all diagonals the search reads and writes no place outside
it, stops at the end of both sequences, and walking back from there over what the array held before
each round gives the same script. -/
theorem direct_finds_shortest (a b : Array Nat) :
    Transforms (direct a b) a.toList b.toList ∧
      (∃ k, IsLongestCommon k a.toList b.toList ∧
        (direct a b).cost + 2 * k = a.size + b.size) ∧
      DeletionsFirst (direct a b) ∧
      (∀ gap, gap <:+: direct a b → .keep ∉ gap → ∃ n m, gap = replaced n m) ∧
      (0 < a.size + b.size →
        ∃ snapshots, search? a b = some ⟨snapshots, a.size, b.size⟩) ∧
      direct? a b = some (direct a b) := by
  obtain ⟨htransforms, hcost⟩ := isShortest_direct a b
  rw [Array.length_toList, Array.length_toList] at hcost
  have hfirst := deletionsFirst_direct a b
  refine ⟨htransforms, ⟨_, isLongestCommon_commonLength _ _, hcost⟩, hfirst,
    fun gap hgap hkeep => ?_, fun hpos => ?_, direct?_eq a b⟩
  · have hgapFirst : DeletionsFirst gap := hfirst.infix hgap
    exact hgapFirst.exists_replaced hkeep
  · obtain ⟨snapshots, hsearch, -⟩ := search?_spec hpos
    exact ⟨snapshots, hsearch⟩

/-- Around one kept element each side gives way to others, one element and then two. -/
theorem direct_finds_shortest_replaced :
    let a : Array Nat := #[0, 1, 2]
    let b : Array Nat := #[3, 1, 4, 5]
    let gap : Script := [.delete, .insert, .insert]
    direct a b = [.delete, .insert, .keep] ++ gap ∧ gap <:+: direct a b ∧ .keep ∉ gap ∧
      (∃ n m, gap = replaced n m) ∧ 0 < a.size + b.size ∧
      (∃ snapshots, search? a b = some ⟨snapshots, a.size, b.size⟩) ∧
      direct? a b = some (direct a b) := by
  intro a b gap
  have hdirect : direct a b = [.delete, .insert, .keep] ++ gap := by cbv
  have hgap : gap <:+: direct a b := hdirect ▸ (List.suffix_append _ gap).isInfix
  have hkeep : .keep ∉ gap := by decide
  have hpos : 0 < a.size + b.size := by decide
  obtain ⟨-, -, -, hgaps, hstop, hchecked⟩ := direct_finds_shortest a b
  exact ⟨hdirect, hgap, hkeep, hgaps gap hgap hkeep, hpos, hstop hpos, hchecked⟩

end Linewise.Script
