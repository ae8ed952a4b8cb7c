import Linewise.Patch.Slide
import Linewise.Proofs.Patch.Coalesce

/-!
# What sliding keeps

A fragment slides up or down along lines whose keys equal its own. `Slid` says all
that can happen to it, so that what a whole pass keeps follows without looking at
how the preferred position was chosen: the patch stays aligned in the keys and
stays tight.
-/

namespace Linewise.Patch

variable {R : Nat → Nat → Prop} {keys : TwoSided (Array Nat)} {lines : TwoSided (Array String)}
variable {i j n m : Nat} {p done : Patch} {f g : Fragment} {previous : Option Fragment}

/-! ## Room for a block -/

/-- A block has no more room above than there are lines, and as far as the room goes the lines above
have the keys of the lines at the end of the block. -/
theorem roomAbove_spec (keys : Array Nat) (lower start stop : Nat) :
    roomAbove keys lower start stop ≤ start - lower ∧
      ∀ k < roomAbove keys lower start stop, keys[start - k - 1]? = keys[stop - k - 1]? := by
  induction start generalizing stop with
  | zero => exact ⟨Nat.zero_le _, fun k hk => absurd hk (Nat.not_lt_zero k)⟩
  | succ start ih =>
    unfold roomAbove
    split
    · rename_i hstep
      obtain ⟨hroom, hkeys⟩ := ih (stop - 1)
      refine ⟨by omega, ?_⟩
      intro k hk
      cases k with
      | zero => simpa using hstep.2
      | succ k =>
        have heq := hkeys k (by omega)
        rwa [show start + 1 - (k + 1) - 1 = start - k - 1 by omega,
          show stop - (k + 1) - 1 = stop - 1 - k - 1 by omega]
    · exact ⟨Nat.zero_le _, fun k hk => absurd hk (Nat.not_lt_zero k)⟩

/-- A block has no more room below than was asked for, and as far as the room goes the lines below
have the keys of the lines at the start of the block. -/
theorem roomBelow_spec (keys : Array Nat) (limit start stop : Nat) :
    roomBelow keys limit start stop ≤ limit ∧
      ∀ k < roomBelow keys limit start stop, keys[start + k]? = keys[stop + k]? := by
  induction limit generalizing start stop with
  | zero => exact ⟨Nat.le_refl _, fun k hk => absurd hk (Nat.not_lt_zero k)⟩
  | succ limit ih =>
    unfold roomBelow
    split
    · rename_i hstep
      obtain ⟨hroom, hkeys⟩ := ih (start + 1) (stop + 1)
      refine ⟨by omega, ?_⟩
      intro k hk
      cases k with
      | zero => simpa using hstep
      | succ k =>
        have heq := hkeys k (by omega)
        rwa [show start + (k + 1) = start + 1 + k by omega,
          show stop + (k + 1) = stop + 1 + k by omega]
    · exact ⟨Nat.zero_le _, fun k hk => absurd hk (Nat.not_lt_zero k)⟩

/-- The preferred position lies within the room of the block. -/
theorem preferredStart_bounds (lines : Array String) (above below : Option Nat) {up : Nat}
    (down : Nat) (block : LineRange) (hup : up ≤ block.start) :
    block.start - up ≤ preferredStart lines above below up down block ∧
      preferredStart lines above below up down block ≤ block.start + down := by
  have hmem {start : Nat}
      (h : start ∈ (List.range (up + down + 1)).map (block.start - up + ·)) :
      block.start - up ≤ start ∧ start ≤ block.start + down := by
    obtain ⟨k, hk, rfl⟩ := List.mem_map.mp h
    have := List.mem_range.mp hk
    omega
  unfold preferredStart
  dsimp only
  split
  · omega
  split
  · omega
  split
  · rename_i start hfind
    exact hmem (List.mem_of_find?_eq_some hfind)
  · cases hfind : List.find? (blankAt lines)
        ((List.range (up + down + 1)).map (block.start - up + ·)) with
    | none => simp only [Option.getD_none]; omega
    | some start => exact hmem (List.mem_of_find?_eq_some hfind)

/-! ## One fragment -/

/-- The bounds of a fragment moved up by lines that are there. -/
theorem bounds_shift_up (f : Fragment) (count : Nat) (h₁ : count ≤ f.start₁)
    (h₂ : count ≤ f.start₂) :
    (f.shift (-count)).start₁ = f.start₁ - count ∧ (f.shift (-count)).stop₁ = f.stop₁ - count ∧
      (f.shift (-count)).start₂ = f.start₂ - count ∧
      (f.shift (-count)).stop₂ = f.stop₂ - count := by
  have := f.start₁_le_stop₁
  have := f.start₂_le_stop₂
  change ((f.start₁ : Int) + -(count : Int)).toNat = _ ∧
    ((f.stop₁ : Int) + -(count : Int)).toNat = _ ∧
    ((f.start₂ : Int) + -(count : Int)).toNat = _ ∧
    ((f.stop₂ : Int) + -(count : Int)).toNat = _
  omega

/-- The bounds of a fragment moved down. -/
theorem bounds_shift_down (f : Fragment) (count : Nat) :
    (f.shift count).start₁ = f.start₁ + count ∧ (f.shift count).stop₁ = f.stop₁ + count ∧
      (f.shift count).start₂ = f.start₂ + count ∧ (f.shift count).stop₂ = f.stop₂ + count := by
  change ((f.start₁ : Int) + (count : Int)).toNat = _ ∧
    ((f.stop₁ : Int) + (count : Int)).toNat = _ ∧
    ((f.start₂ : Int) + (count : Int)).toNat = _ ∧
    ((f.stop₂ : Int) + (count : Int)).toNat = _
  omega

/-- What may become of `f` when it slides after line `i` and before line `limit` of the first
document: it moves up by lines that then match the end of it, or down by lines that match its
start. -/
inductive Slid (R : Nat → Nat → Prop) (i limit : Nat) (f : Fragment) : Fragment → Prop
  | up (count : Nat) (room : i + count ≤ f.start₁)
      (matched : Run R (f.stop₁ - count) (f.stop₂ - count) f.stop₁ f.stop₂) :
      Slid R i limit f (f.shift (-count))
  | down (count : Nat) (room : f.stop₁ + count ≤ limit)
      (matched : Run R f.start₁ f.start₂ (f.start₁ + count) (f.start₂ + count)) :
      Slid R i limit f (f.shift count)

/-- The line of the first document before which a fragment that precedes `p` must end. -/
def limit (n : Nat) (p : Patch) : Nat := (p.head?.map Fragment.start₁).getD n

namespace Slid

/-- A patch stays aligned when its first fragment slides. -/
theorem aligned (h : Slid R i (limit n p) f g) (haligned : Aligned R i j (f :: p) n m) :
    Aligned R i j (g :: p) n m := by
  obtain ⟨hrun, hcost, hrest⟩ := haligned
  have := hrun.le₁
  have := hrun.le₂
  have := hrun.same_length
  have := f.start₁_le_stop₁
  have := f.start₂_le_stop₂
  rw [Fragment.cost_eq] at hcost
  cases h with
  | up count room matched =>
    obtain ⟨hstart₁, hstop₁, hstart₂, hstop₂⟩ :=
      bounds_shift_up f count (by omega) (by omega)
    rw [Aligned, Fragment.cost_eq, hstart₁, hstop₁, hstart₂, hstop₂]
    refine ⟨hrun.upTo (by omega) (by omega) (by omega) (by omega), by omega, ?_⟩
    exact hrest.after_run matched
  | down count room matched =>
    obtain ⟨hstart₁, hstop₁, hstart₂, hstop₂⟩ := bounds_shift_down f count
    rw [Aligned, Fragment.cost_eq, hstart₁, hstop₁, hstart₂, hstop₂]
    exact ⟨hrun.trans matched, by omega, hrest.advance room⟩

/-- A run that leads from an earlier fragment to the end of the slid one also led to its end before,
since the lines that it slid along matched. -/
theorem runsTo_of_before (h : Slid R i (limit n p) f g) (hrun : Run R i j f.start₁ f.start₂)
    {e : Fragment} (he : e.start₁ ≤ i ∧ e.start₂ ≤ j) (hto : e.RunsTo R g) : e.RunsTo R f := by
  have := hrun.le₁
  have := hrun.le₂
  have := hrun.same_length
  have := f.start₁_le_stop₁
  have := f.start₂_le_stop₂
  unfold Fragment.RunsTo at hto ⊢
  cases h with
  | up count room matched =>
    obtain ⟨_, hstop₁, _, hstop₂⟩ :=
      bounds_shift_up f count (by omega) (by omega)
    rw [hstop₁, hstop₂] at hto
    exact hto.trans matched
  | down count room matched =>
    obtain ⟨_, hstop₁, _, hstop₂⟩ := bounds_shift_down f count
    rw [hstop₁, hstop₂] at hto
    have := hto.same_length
    exact hto.upTo (by omega) (by omega) (by omega) (by omega)

/-- A run that leads from the start of the slid fragment to the end of a later one also led from its
start before. -/
theorem runsTo_of_after (h : Slid R i (limit n p) f g) (hrun : Run R i j f.start₁ f.start₂)
    {e : Fragment} (he : f.start₁ ≤ e.stop₁ ∧ f.start₂ ≤ e.stop₂) (hto : g.RunsTo R e) :
    f.RunsTo R e := by
  have := hrun.le₁
  have := hrun.le₂
  have := hrun.same_length
  unfold Fragment.RunsTo at hto ⊢
  cases h with
  | up count room matched =>
    obtain ⟨hstart₁, _, hstart₂, _⟩ :=
      bounds_shift_up f count (by omega) (by omega)
    rw [hstart₁, hstart₂] at hto
    exact hto.since (by omega) (by omega) (by omega) (by omega)
  | down count room matched =>
    obtain ⟨hstart₁, _, hstart₂, _⟩ := bounds_shift_down f count
    rw [hstart₁, hstart₂] at hto
    exact matched.trans hto

/-- A fragment that starts no run to its own end starts none after it slid. -/
theorem not_runsTo_self (h : Slid R i (limit n p) f g) (hrun : Run R i j f.start₁ f.start₂)
    (hself : ¬f.RunsTo R f) : ¬g.RunsTo R g := by
  have := hrun.le₁
  have := hrun.le₂
  have := hrun.same_length
  have := f.start₁_le_stop₁
  have := f.start₂_le_stop₂
  intro hto
  apply hself
  unfold Fragment.RunsTo at hto ⊢
  cases h with
  | up count room matched =>
    obtain ⟨hstart₁, hstop₁, hstart₂, hstop₂⟩ :=
      bounds_shift_up f count (by omega) (by omega)
    rw [hstart₁, hstop₁, hstart₂, hstop₂] at hto
    have := hto.same_length
    exact (hto.trans matched).since (by omega) (by omega) (by omega) (by omega)
  | down count room matched =>
    obtain ⟨hstart₁, hstop₁, hstart₂, hstop₂⟩ := bounds_shift_down f count
    rw [hstart₁, hstop₁, hstart₂, hstop₂] at hto
    have := hto.same_length
    exact (matched.trans hto).upTo (by omega) (by omega) (by omega) (by omega)

/-- A tight patch stays tight when one of its fragments slides. -/
theorem tight (h : Slid R i (limit n p) f g) (haligned : Aligned R i j (f :: p) n m)
    (hdone : ∀ e ∈ done, e.start₁ ≤ i ∧ e.start₂ ≤ j) (htight : Tight R (done ++ f :: p)) :
    Tight R (done ++ g :: p) := by
  have hself := (tight_cons.mp (tight_append.mp htight).2.1).1
  refine htight.replace (h.not_runsTo_self haligned.1 hself)
    (fun e he => h.runsTo_of_before haligned.1 (hdone e he)) (fun e he => ?_)
  have := haligned.2.2.bounds he
  have := f.start₁_le_stop₁
  have := f.start₂_le_stop₂
  have := e.start₁_le_stop₁
  have := e.start₂_le_stop₂
  exact h.runsTo_of_after haligned.1 (by omega)

end Slid

/-! ## The pass -/

/-- Above a block that has room the lines at its end match what the lines above it match. -/
theorem run_of_roomAbove {K : Array Nat}
    (hR : ∀ x x' y, K[x]? = K[x']? → R x y → R x' y) {lower start stop y count : Nat}
    (hrun : Run R i j start y) (hroom : count ≤ roomAbove K lower start stop)
    (hcount : i + count ≤ start) (hblock : start ≤ stop) :
    Run R (stop - count) (y - count) stop y := by
  have := hrun.le₂
  have := hrun.same_length
  refine ⟨by omega, by omega, by omega, ?_⟩
  intro k hk
  have hkeys := (roomAbove_spec K lower start stop).2 (count - 1 - k) (by omega)
  rw [show start - (count - 1 - k) - 1 = start - count + k by omega,
    show stop - (count - 1 - k) - 1 = stop - count + k by omega] at hkeys
  exact hR _ _ _ hkeys (hrun.pair_at (by omega) (by omega) (by omega) (by omega))

/-- Below a block that has room the lines at its start match what the lines below it match. -/
theorem run_of_roomBelow {K : Array Nat}
    (hR : ∀ x x' y, K[x]? = K[x']? → R x y → R x' y) {room start stop y count : Nat}
    (hrun : Run R stop y i j) (hroom : count ≤ roomBelow K room start stop)
    (hcount : stop + count ≤ i) : Run R start y (start + count) (y + count) := by
  refine Run.of_length ?_
  intro k hk
  have hkeys := (roomBelow_spec K room start stop).2 k (by omega)
  exact hR _ _ _ hkeys.symm (hrun.pairs k (by omega))

/-- The fragment before line `i` of the first document and line `j` of the second, if there is one,
ends there. -/
def EndsAt (previous : Option Fragment) (i j : Nat) : Prop :=
  (previous.map Fragment.stop₁).getD 0 = i ∧ (previous.map Fragment.stop₂).getD 0 = j

/-- The first run of an aligned patch leads to its first fragment, or to the end. -/
theorem Aligned.first_run (h : p.Aligned R i j n m) :
    Run R i j (limit n p) ((p.head?.map Fragment.start₂).getD m) := by
  cases p with
  | nil => exact h
  | cons f rest => exact h.1

/-- A fragment that is not moved is one that slid by no line. -/
theorem Slid.refl (R : Nat → Nat → Prop) (f : Fragment) (hlimit : f.stop₁ ≤ i) :
    Slid R j i f f := by
  have hshift : f.shift ((0 : Nat) : Int) = f := by
    simp [Fragment.shift, LineRange.shift]
  have hslid : Slid R j i f (f.shift ((0 : Nat) : Int)) :=
    .down 0 hlimit (Run.refl R f.start₁ f.start₂)
  rwa [hshift] at hslid

/-- A fragment that has room for `up` lines above and `down` lines below slides wherever its block
starts within that room. -/
theorem Slid.of_start {last up down start block : Nat}
    (hup : ∀ count ≤ up,
      i + count ≤ f.start₁ ∧ Run R (f.stop₁ - count) (f.stop₂ - count) f.stop₁ f.stop₂)
    (hdown : ∀ count ≤ down,
      f.stop₁ + count ≤ last ∧ Run R f.start₁ f.start₂ (f.start₁ + count) (f.start₂ + count))
    (hlow : block ≤ start + up) (hhigh : start ≤ block + down) :
    Slid R i last f (f.shift ((start : Int) - block)) := by
  by_cases hstart : start ≤ block
  · obtain ⟨room, matched⟩ := hup (block - start) (by omega)
    have hdelta : (start : Int) - block = -((block - start : Nat) : Int) := by omega
    rw [hdelta]
    exact .up _ room matched
  · obtain ⟨room, matched⟩ := hdown (start - block) (by omega)
    have hdelta : (start : Int) - block = ((start - block : Nat) : Int) := by omega
    rw [hdelta]
    exact .down _ room matched

/-- A fragment that may move by all the room of its block slides to the preferred position. -/
theorem Slid.of_preferred {K : Array Nat} {lower room last : Nat} {block : LineRange}
    (lines : Array String) (above below : Option Nat)
    (hup : ∀ count ≤ roomAbove K lower block.start block.stop,
      i + count ≤ f.start₁ ∧ Run R (f.stop₁ - count) (f.stop₂ - count) f.stop₁ f.stop₂)
    (hdown : ∀ count ≤ roomBelow K room block.start block.stop,
      f.stop₁ + count ≤ last ∧ Run R f.start₁ f.start₂ (f.start₁ + count) (f.start₂ + count)) :
    Slid R i last f (f.shift (preferredStart lines above below
      (roomAbove K lower block.start block.stop) (roomBelow K room block.start block.stop)
      block - block.start)) := by
  have hroom := (roomAbove_spec K lower block.start block.stop).1
  have hbounds := preferredStart_bounds lines above below
    (roomBelow K room block.start block.stop) block (Nat.le_trans hroom (Nat.sub_le _ _))
  exact Slid.of_start hup hdown (Nat.sub_le_iff_le_add.mp hbounds.1) hbounds.2

/-- A fragment has lines on the left only, lines on the right only, or no single side with lines. -/
theorem pureSide_eq (f : Fragment) :
    (f.pureSide = some .left → f.start₂ = f.stop₂) ∧
      (f.pureSide = some .right → f.start₁ = f.stop₁) := by
  unfold Fragment.pureSide
  constructor <;> intro h <;> split at h <;> split at h <;>
    simp_all [LineRange.isEmpty, Fragment.start₁, Fragment.stop₁, Fragment.start₂, Fragment.stop₂]

/-- Sliding moves a fragment along lines whose keys match, and not past its neighbours. -/
theorem slide_slid (lines : TwoSided (Array String))
    (h : Aligned (Agree keys) i j (f :: p) keys.left.size keys.right.size)
    (hprevious : EndsAt previous i j) :
    Slid (Agree keys) i (limit keys.left.size p) f
      (slide keys lines previous p.head? f) := by
  obtain ⟨hrun, _, hrest⟩ := h
  have hnext := hrest.first_run
  have hle := hrun.le₁
  have hle' := hrun.le₂
  have hsame := hrun.same_length
  have hnextLe := hnext.le₁
  have hnextLe' := hnext.le₂
  have hnextSame := hnext.same_length
  have hblock₁ := f.start₁_le_stop₁
  have hblock₂ := f.start₂_le_stop₂
  unfold slide
  cases hside : f.pureSide with
  | none => exact Slid.refl _ f hnextLe
  | some side =>
    dsimp only
    cases side with
    | left =>
      have hpure := (pureSide_eq f).1 hside
      have habove : ((previous.map fun e => (e.range .left).stop).getD 0) = i := hprevious.1
      have hbelow : ((p.head?.map fun e => (e.range .left).start).getD keys.left.size) =
        limit keys.left.size p := rfl
      have hup : roomAbove keys.left i f.deleted.start f.deleted.stop ≤ f.start₁ - i :=
        (roomAbove_spec _ _ _ _).1
      have hdown : roomBelow keys.left (limit keys.left.size p - f.deleted.stop) f.deleted.start
          f.deleted.stop ≤ limit keys.left.size p - f.stop₁ := (roomBelow_spec _ _ _ _).1
      simp only [TwoSided.get, Fragment.range] at habove hbelow ⊢
      rw [habove, hbelow]
      refine Slid.of_preferred lines.left _ _ (fun count hcount => ⟨by omega, ?_⟩)
        fun count hcount => ⟨by omega, ?_⟩
      · rw [← hpure]
        exact run_of_roomAbove (Agree.congr_left keys) hrun hcount (by omega) hblock₁
      · rw [hpure]
        exact run_of_roomBelow (Agree.congr_left keys) hnext hcount (by omega)
    | right =>
      have hpure := (pureSide_eq f).2 hside
      have habove : ((previous.map fun e => (e.range .right).stop).getD 0) = j := hprevious.2
      have hbelow : ((p.head?.map fun e => (e.range .right).start).getD keys.right.size) =
        (p.head?.map Fragment.start₂).getD keys.right.size := rfl
      generalize hlast : (p.head?.map Fragment.start₂).getD keys.right.size = last at *
      have hup : roomAbove keys.right j f.inserted.start f.inserted.stop ≤ f.start₂ - j :=
        (roomAbove_spec _ _ _ _).1
      have hdown : roomBelow keys.right (last - f.inserted.stop) f.inserted.start
          f.inserted.stop ≤ last - f.stop₂ := (roomBelow_spec _ _ _ _).1
      simp only [TwoSided.get, Fragment.range] at habove hbelow ⊢
      rw [habove, hbelow]
      refine Slid.of_preferred lines.right _ _ (fun count hcount => ⟨by omega, ?_⟩)
        fun count hcount => ⟨by omega, ?_⟩
      · rw [← hpure]
        exact (run_of_roomAbove (Agree.congr_right keys) hrun.swap hcount (by omega)
          hblock₂).swap
      · rw [hpure]
        exact (run_of_roomBelow (Agree.congr_right keys) hnext.swap hcount
          (by omega)).swap

/-- The fragment above the rest of a patch, once `g` slid below `previous`. -/
def above (previous : Option Fragment) (g : Fragment) : Fragment :=
  match previous with
  | some e => if e.touches g then e.union g else g
  | none => g

/-- Each step of the pass slides the first fragment and goes on below it. -/
theorem slideAll_cons (keys : TwoSided (Array Nat)) (lines : TwoSided (Array String))
    (previous : Option Fragment) (f : Fragment) (p : Patch) :
    slideAll keys lines previous (f :: p) =
      slide keys lines previous p.head? f ::
        slideAll keys lines (some (above previous (slide keys lines previous p.head? f))) p := by
  cases previous <;> rfl

/-- What lies above the rest of a patch ends where the fragment that slid last ends. -/
theorem endsAt_above (h : Aligned R i j (g :: p) n m) (hprevious : EndsAt previous i j) :
    EndsAt (some (above previous g)) g.stop₁ g.stop₂ := by
  cases previous with
  | none => exact ⟨rfl, rfl⟩
  | some e =>
    obtain ⟨hi, hj⟩ : e.stop₁ = i ∧ e.stop₂ = j := hprevious
    have := h.1.le₁
    have := h.1.le₂
    have := e.start₁_le_stop₁
    have := e.start₂_le_stop₂
    have := g.start₁_le_stop₁
    have := g.start₂_le_stop₂
    unfold above EndsAt
    dsimp only
    split
    · exact ⟨LineRange.span_stop (by omega), LineRange.span_stop (by omega)⟩
    · exact ⟨rfl, rfl⟩

/-- A patch that is aligned in its keys stays so when all its fragments slide. -/
theorem Aligned.slideAll (lines : TwoSided (Array String))
    (h : p.Aligned (Agree keys) i j keys.left.size keys.right.size)
    (hprevious : EndsAt previous i j) :
    Aligned (Agree keys) i j (slideAll keys lines previous p) keys.left.size
      keys.right.size := by
  induction p generalizing previous i j with
  | nil => exact h
  | cons f rest ih =>
    have hslid := (slide_slid lines h hprevious).aligned h
    rw [slideAll_cons]
    exact ⟨hslid.1, hslid.2.1, ih hslid.2.2 (endsAt_above hslid hprevious)⟩

/-- A tight patch stays tight when the fragments of its rest `p` slide. -/
theorem Tight.slideAll (lines : TwoSided (Array String))
    (h : p.Aligned (Agree keys) i j keys.left.size keys.right.size)
    (hprevious : EndsAt previous i j) (hdone : ∀ e ∈ done, e.start₁ ≤ i ∧ e.start₂ ≤ j)
    (htight : Tight (Agree keys) (done ++ p)) :
    Tight (Agree keys) (done ++ slideAll keys lines previous p) := by
  induction p generalizing previous i j done with
  | nil => exact htight
  | cons f rest ih =>
    have hstep := slide_slid lines h hprevious
    have hslid := hstep.aligned h
    have htight' := hstep.tight h hdone htight
    rw [slideAll_cons]
    rw [List.append_cons] at htight' ⊢
    refine ih hslid.2.2 (endsAt_above hslid hprevious) (fun e he => ?_) htight'
    have := hslid.1.le₁
    have := hslid.1.le₂
    have hstart₁ := (slide keys lines previous rest.head? f).start₁_le_stop₁
    have hstart₂ := (slide keys lines previous rest.head? f).start₂_le_stop₂
    rcases List.mem_append.mp he with he | he
    · have := hdone e he
      omega
    · obtain rfl := List.mem_singleton.mp he
      exact ⟨hstart₁, hstart₂⟩

/-- Moving all fragments to their preferred positions and fusing those that touch keeps a patch
aligned in its keys and leaves no two fragments that touch. -/
theorem Aligned.settle (lines : TwoSided (Array String))
    (h : p.Aligned (Agree keys) 0 0 keys.left.size keys.right.size) :
    (settle keys lines p).Aligned (Agree keys) 0 0 keys.left.size keys.right.size ∧
      (settle keys lines p).Apart :=
  Aligned.fuse (h.slideAll lines (show EndsAt none 0 0 from ⟨rfl, rfl⟩))

/-- Moving all fragments to their preferred positions and fusing those that touch keeps a patch
tight. -/
theorem Tight.settle (lines : TwoSided (Array String))
    (h : p.Aligned (Agree keys) 0 0 keys.left.size keys.right.size)
    (htight : p.Tight (Agree keys)) : (settle keys lines p).Tight (Agree keys) := by
  have hnone : EndsAt none 0 0 := ⟨rfl, rfl⟩
  have hslid : Tight (Agree keys) ([] ++ Patch.slideAll keys lines none p) :=
    slideAll lines h hnone (fun _ he => absurd he List.not_mem_nil) htight
  exact Tight.fuse hslid (h.slideAll lines hnone)

end Linewise.Patch
