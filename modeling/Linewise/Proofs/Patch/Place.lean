import Linewise.Proofs.Patch.Slide

/-!
# The place of a fragment

While a patch is settled each fragment stands between the one above it, which slid
already, and the one below it, which has not. `Placed` says so for both sides alike, so
that what is proved for a fragment with lines on one side alone need not be proved for
the left and again for the right. `slideAll_append` says that the pass meets every
fragment of a patch in its place.
-/

namespace Linewise

namespace Side

/-- The other side of the other side is the side itself. -/
@[simp] theorem other_other (side : Side) : side.other.other = side := by
  cases side <;> rfl

/-- What holds on a side and on the other one holds on both sides. -/
theorem forall_of_other {P : Side → Prop} (side : Side) (h : P side) (hother : P side.other) :
    ∀ s, P s := by
  cases side with
  | left => exact forall_iff.mpr ⟨h, hother⟩
  | right => exact forall_iff.mpr ⟨hother, h⟩

end Side

namespace LineRange

/-- A range that is not moved above line 0 has both its bounds moved alike. -/
theorem bounds_shift (r : LineRange) (delta : Int) (h : 0 ≤ r.start + delta) :
    ((r.shift delta).start : Int) = r.start + delta ∧
      ((r.shift delta).stop : Int) = r.stop + delta := by
  have := r.start_le_stop
  unfold shift
  dsimp only
  omega

/-- The bounds of a range moved up by lines that are there. -/
theorem bounds_shift_up (r : LineRange) (count : Nat) (h : count ≤ r.start) :
    (r.shift (-count)).start = r.start - count ∧ (r.shift (-count)).stop = r.stop - count := by
  have := r.start_le_stop
  have := r.bounds_shift (-count) (by omega)
  omega

/-- The bounds of a range moved down. -/
theorem bounds_shift_down (r : LineRange) (count : Nat) :
    (r.shift count).start = r.start + count ∧ (r.shift count).stop = r.stop + count := by
  have := r.bounds_shift count (by omega)
  omega

end LineRange

namespace Fragment

/-- Moving a fragment moves its range on every side. -/
@[simp] theorem range_shift (f : Fragment) (delta : Int) (side : Side) :
    (f.shift delta).range side = (f.range side).shift delta := by
  cases side <;> rfl

/-- A fragment touches the next one if that one starts on both sides where the first one ends. -/
theorem touches_iff {f g : Fragment} :
    f.touches g = true ↔ ∀ side, (f.range side).stop = (g.range side).start := by
  rw [Side.forall_iff, touches, Bool.and_eq_true, beq_iff_eq, beq_iff_eq]
  rfl

/-- A fragment with lines on a side changes some. -/
theorem cost_pos (f : Fragment) (side : Side) (h : (f.range side).start < (f.range side).stop) :
    0 < f.cost := by
  unfold cost LineRange.size
  cases side <;> simp only [range] at h <;> omega

/-- A fragment has lines on a single side exactly if it has some there and none on the other one. -/
theorem pureSide_eq_some_iff {f : Fragment} {side : Side} :
    f.pureSide = some side ↔
      (f.range side).start < (f.range side).stop ∧
        (f.range side.other).start = (f.range side.other).stop := by
  have := f.deleted.start_le_stop
  have := f.inserted.start_le_stop
  unfold pureSide LineRange.isEmpty
  cases side <;> simp only [range, Side.other, beq_iff_eq] <;> split <;> split <;>
    simp <;> omega

/-- A fragment with lines on both sides has them on no single side. -/
theorem pureSide_eq_none {f : Fragment} (h : ∀ side, 0 < (f.range side).size) :
    f.pureSide = none := by
  cases hside : f.pureSide with
  | none => rfl
  | some side =>
    have hother := (pureSide_eq_some_iff.mp hside).2
    have := h side.other
    unfold LineRange.size at this
    omega

end Fragment

/-- Entry `x` on a side and entry `y` on the other one exist and are equal. -/
def AgreeOn {α : Type} (v : TwoSided (Array α)) (side : Side) (x y : Nat) : Prop :=
  ∃ key, (v.get side)[x]? = some key ∧ (v.get side.other)[y]? = some key

namespace AgreeOn

variable {α : Type} {v : TwoSided (Array α)} {side : Side} {x x' y : Nat}

/-- Entries that agree with the same one are equal. -/
theorem getElem?_eq (h : AgreeOn v side x y) (h' : AgreeOn v side x' y) :
    (v.get side)[x]? = (v.get side)[x']? := by
  obtain ⟨key, hx, hy⟩ := h
  obtain ⟨key', hx', hy'⟩ := h'
  rw [hx, hx', ← hy, ← hy']

/-- An equal entry agrees with the same ones. -/
theorem congr (v : TwoSided (Array α)) (side : Side) (x x' y : Nat)
    (h : (v.get side)[x]? = (v.get side)[x']?) (hagree : AgreeOn v side x y) :
    AgreeOn v side x' y := by
  obtain ⟨key, hx, hy⟩ := hagree
  exact ⟨key, h ▸ hx, hy⟩

/-- Seen from the other side the entries are exchanged. -/
theorem other (h : AgreeOn v side x y) : AgreeOn v side.other y x := by
  obtain ⟨key, hx, hy⟩ := h
  exact ⟨key, hy, by rwa [Side.other_other]⟩

end AgreeOn

namespace Patch

variable {keys : TwoSided (Array Nat)} {lines : TwoSided (Array String)} {i j : Nat}
  {p before rest : Patch} {f : Fragment} {previous next : Option Fragment} {side : Side}

/-- The line on a side at which the fragment above ends, or line 0. -/
def endAbove (previous : Option Fragment) (side : Side) : Nat :=
  (previous.map fun p => (p.range side).stop).getD 0

/-- The line on a side at which the fragment below starts, or the end of the lines. -/
def startBelow (keys : TwoSided (Array Nat)) (next : Option Fragment) (side : Side) : Nat :=
  (next.map fun p => (p.range side).start).getD (keys.get side).size

/-- The lines between the fragment above and `f`, and those between `f` and the fragment below, are
matched and have equal keys. -/
structure Placed (keys : TwoSided (Array Nat)) (previous next : Option Fragment) (f : Fragment) :
    Prop where
  above : ∀ side, Run (AgreeOn keys side) (endAbove previous side) (endAbove previous side.other)
    (f.range side).start (f.range side.other).start
  below : ∀ side, Run (AgreeOn keys side) (f.range side).stop (f.range side.other).stop
    (startBelow keys next side) (startBelow keys next side.other)
  inside : ∀ side, startBelow keys next side ≤ (keys.get side).size

/-- A fragment is in its place if this is so seen from one side. -/
theorem Placed.of_side (side : Side)
    (habove : Run (AgreeOn keys side) (endAbove previous side) (endAbove previous side.other)
      (f.range side).start (f.range side.other).start)
    (hbelow : Run (AgreeOn keys side) (f.range side).stop (f.range side.other).stop
      (startBelow keys next side) (startBelow keys next side.other))
    (hinside : ∀ s, startBelow keys next s ≤ (keys.get s).size) :
    Placed keys previous next f := by
  refine ⟨Side.forall_of_other side habove ?_, Side.forall_of_other side hbelow ?_, hinside⟩
  · rw [Side.other_other]
    exact habove.swap.mono fun _ _ => AgreeOn.other
  · rw [Side.other_other]
    exact hbelow.swap.mono fun _ _ => AgreeOn.other

/-- The first fragment of an aligned patch is in its place. -/
theorem Aligned.placed (h : Aligned (Agree keys) i j (f :: p) keys.left.size keys.right.size)
    (hprevious : EndsAt previous i j) : Placed keys previous p.head? f := by
  obtain ⟨habove, _, hrest⟩ := h
  obtain ⟨rfl, rfl⟩ := hprevious
  refine .of_side .left habove hrest.first_run (Side.forall_iff.mpr ?_)
  cases p with
  | nil => exact ⟨Nat.le_refl _, Nat.le_refl _⟩
  | cons g rest =>
    have hbounds := hrest.bounds List.mem_cons_self
    exact ⟨Nat.le_trans g.start₁_le_stop₁ hbounds.2.2.1,
      Nat.le_trans g.start₂_le_stop₂ hbounds.2.2.2⟩

/-! ## Room -/

/-- How many lines a fragment with lines on a side can move up along lines with equal keys. -/
def roomUp (keys : TwoSided (Array Nat)) (previous : Option Fragment) (f : Fragment)
    (side : Side) : Nat :=
  roomAbove (keys.get side) (endAbove previous side) (f.range side).start (f.range side).stop

/-- How many lines a fragment with lines on a side can move down along lines with equal keys. -/
def roomDown (keys : TwoSided (Array Nat)) (next : Option Fragment) (f : Fragment) (side : Side) :
    Nat :=
  roomBelow (keys.get side) (startBelow keys next side - (f.range side).stop)
    (f.range side).start (f.range side).stop

/-- By how many lines a fragment with lines on a side is moved to its preferred position. -/
def preferredShift (keys : TwoSided (Array Nat)) (lines : TwoSided (Array String))
    (previous next : Option Fragment) (f : Fragment) (side : Side) : Int :=
  preferredStart (lines.get side) (previous.map fun p => (p.range side).stop)
    (next.map fun p => (p.range side).start) (roomUp keys previous f side)
    (roomDown keys next f side) (f.range side) - (f.range side).start

/-- A fragment with lines on one side alone is moved to its preferred position. -/
theorem slide_eq_shift (hside : f.pureSide = some side) :
    slide keys lines previous next f =
      f.shift (preferredShift keys lines previous next f side) := by
  unfold slide
  rw [hside]
  rfl

/-- A fragment that has not lines on one side alone stays. -/
theorem slide_eq_self (hside : f.pureSide = none) : slide keys lines previous next f = f := by
  unfold slide
  rw [hside]

/-- The room above a fragment ends at the one above, and the room below it at the one below. -/
theorem room_le (keys : TwoSided (Array Nat)) (previous next : Option Fragment) (f : Fragment)
    (side : Side) :
    roomUp keys previous f side ≤ (f.range side).start - endAbove previous side ∧
      roomDown keys next f side ≤ startBelow keys next side - (f.range side).stop :=
  ⟨(roomAbove_spec _ _ _ _).1, (roomBelow_spec _ _ _ _).1⟩

/-- The preferred position is within the room of a fragment. -/
theorem preferredShift_bounds (keys : TwoSided (Array Nat)) (lines : TwoSided (Array String))
    (previous next : Option Fragment) (f : Fragment) (side : Side) :
    -(roomUp keys previous f side : Int) ≤ preferredShift keys lines previous next f side ∧
      preferredShift keys lines previous next f side ≤ roomDown keys next f side := by
  have hroom := (room_le keys previous next f side).1
  have hbounds := preferredStart_bounds (lines.get side)
    (previous.map fun p => (p.range side).stop) (next.map fun p => (p.range side).start)
    (roomDown keys next f side) (f.range side) (Nat.le_trans hroom (Nat.sub_le _ _))
  unfold preferredShift
  omega

/-- A fragment that moves within its room on a side stays between the one above and the one below on
both sides. -/
theorem Placed.bounds_shift (h : Placed keys previous next f) {shift : Int}
    (hlow : -(roomUp keys previous f side : Int) ≤ shift)
    (hhigh : shift ≤ roomDown keys next f side) (s : Side) :
    (endAbove previous s : Int) ≤ (f.range s).start + shift ∧
      (f.range s).stop + shift ≤ startBelow keys next s := by
  obtain ⟨hup, hdown⟩ := room_le keys previous next f side
  have habove := h.above side
  have hbelow := h.below side
  have := habove.le₁
  have := habove.le₂
  have := habove.same_length
  have := hbelow.le₁
  have := hbelow.le₂
  have := hbelow.same_length
  revert s
  exact Side.forall_of_other side (by omega) (by omega)

/-! ## The pass -/

/-- Appending a fragment leaves it last, with all that it was fused with. -/
theorem getLast?_push (done : Patch) (g : Fragment) :
    (push done g).getLast? = some (above done.getLast? g) := by
  rcases done.eq_nil_or_concat with rfl | ⟨done, e, rfl⟩
  · rfl
  · rw [List.concat_eq_append, push_append_singleton, List.getLast?_concat, above]
    split <;> simp [*]

/-- The pass meets every fragment of an aligned patch in its place: above it is the last of those
that slid, with all that it was fused with. -/
theorem slideAll_append (lines : TwoSided (Array String))
    (h : Aligned (Agree keys) i j (before ++ f :: rest) keys.left.size keys.right.size)
    (hprevious : EndsAt previous i j) :
    ∃ (done : List Fragment) (last : Option Fragment) (i' j' : Nat),
      slideAll keys lines previous (before ++ f :: rest) =
        done ++ slideAll keys lines last (f :: rest) ∧
      done.length = before.length ∧
      (∀ start : Patch, start.getLast? = previous → (done.foldl push start).getLast? = last) ∧
      EndsAt last i' j' ∧
      Aligned (Agree keys) i' j' (f :: rest) keys.left.size keys.right.size := by
  induction before generalizing previous i j with
  | nil => exact ⟨[], previous, i, j, rfl, rfl, fun _ hstart => hstart, hprevious, h⟩
  | cons g before ih =>
    rw [List.cons_append] at h
    have hslid := (slide_slid lines h hprevious).aligned h
    obtain ⟨done, last, i', j', hall, hlength, hlast, hends, hrest⟩ :=
      ih hslid.2.2 (endsAt_above hslid hprevious)
    refine ⟨slide keys lines previous (before ++ f :: rest).head? g :: done, last, i', j', ?_, ?_,
      fun start hstart => ?_, hends, hrest⟩
    · rw [List.cons_append, slideAll_cons, hall, List.cons_append]
    · rw [List.length_cons, List.length_cons, hlength]
    · rw [List.foldl_cons]
      refine hlast _ ?_
      rw [getLast?_push, hstart]

end Patch

end Linewise
