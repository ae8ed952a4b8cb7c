import Linewise.Proofs.Patch.Checked
import Linewise.Proofs.Patch.MatchedPairs

/-!
# What settling a patch keeps

Moving every fragment to its preferred position and fusing those that touch keeps a
patch well formed and its matched lines equal by their keys. No line is lost or gained:
each side changes as many lines as before, and the matched keys are the same in the same
order. There are at most as many fragments as before, a fragment with lines on both
sides stays where it is, if only within a larger one, and no step leaves the bounds of
the documents.
-/

namespace Linewise

namespace Fragment

variable {e f g : Fragment} {side : Side}

/-- All lines of `f` are lines of `g`, on both sides. -/
def Contains (g f : Fragment) : Prop :=
  ∀ side, (g.range side).start ≤ (f.range side).start ∧ (f.range side).stop ≤ (g.range side).stop

/-- A fragment contains itself. -/
theorem Contains.refl (f : Fragment) : f.Contains f :=
  fun _ => ⟨Nat.le_refl _, Nat.le_refl _⟩

/-- What contains a fragment contains all that this one contains. -/
theorem Contains.trans (hgf : g.Contains f) (hfe : f.Contains e) : g.Contains e :=
  fun side => ⟨Nat.le_trans (hgf side).1 (hfe side).1, Nat.le_trans (hfe side).2 (hgf side).2⟩

/-- Two fragments that touch have no line between them on either side, and their union runs from the
start of the first to the end of the second. -/
theorem range_union_of_touches (h : f.touches g = true) (side : Side) :
    (f.range side).stop = (g.range side).start ∧
      ((f.union g).range side).start = (f.range side).start ∧
      ((f.union g).range side).stop = (g.range side).stop := by
  have hbetween := touches_iff.mp h side
  have hstop : (f.range side).start ≤ (g.range side).stop :=
    Nat.le_trans (f.range side).start_le_stop (hbetween ▸ (g.range side).start_le_stop)
  cases side with
  | left => exact ⟨hbetween, rfl, LineRange.span_stop hstop⟩
  | right => exact ⟨hbetween, rfl, LineRange.span_stop hstop⟩

/-- The union of two fragments that touch contains both of them. -/
theorem contains_union_of_touches (h : f.touches g = true) :
    (f.union g).Contains f ∧ (f.union g).Contains g := by
  constructor
  · intro side
    obtain ⟨hbetween, hstart, hstop⟩ := range_union_of_touches h side
    have := (g.range side).start_le_stop
    omega
  · intro side
    obtain ⟨hbetween, hstart, hstop⟩ := range_union_of_touches h side
    have := (f.range side).start_le_stop
    omega

end Fragment

namespace Patch

variable {R : Nat → Nat → Prop} {keys : TwoSided (Array Nat)} {lines : TwoSided (Array String)}
  {i j n m : Nat} {p : Patch} {e f g : Fragment} {previous : Option Fragment}

/-- Number of lines that the fragments change on a side. -/
def changedLines (p : Patch) (side : Side) : Nat :=
  p.foldr (fun f rest => (f.range side).size + rest) 0

/-- The first fragment adds to the lines that the others change. -/
@[simp] theorem changedLines_cons (f : Fragment) (p : Patch) (side : Side) :
    changedLines (f :: p) side = (f.range side).size + p.changedLines side := rfl

/-! ## Fusing -/

/-- Fusing changes as many lines as before. -/
theorem changedLines_coalesce (f : Fragment) (p : Patch) (side : Side) :
    (coalesce Fragment.touches f p).changedLines side = changedLines (f :: p) side := by
  induction p generalizing f with
  | nil => rfl
  | cons g rest ih =>
    rw [coalesce]
    split
    · rename_i htouch
      obtain ⟨hbetween, hstart, hstop⟩ := Fragment.range_union_of_touches htouch side
      have := (f.range side).start_le_stop
      have := (g.range side).start_le_stop
      rw [ih, changedLines_cons, changedLines_cons, changedLines_cons]
      unfold LineRange.size
      omega
    · rw [changedLines_cons, ih, changedLines_cons f]

/-- Every fragment is contained in one of those that are left after fusing. -/
theorem exists_contains_coalesce (he : e ∈ f :: p) :
    ∃ g ∈ coalesce Fragment.touches f p, g.Contains e := by
  induction p generalizing f e with
  | nil =>
    obtain rfl := List.mem_singleton.mp he
    exact ⟨e, List.mem_singleton_self e, .refl e⟩
  | cons g rest ih =>
    rw [coalesce]
    split
    · rename_i htouch
      obtain ⟨hfirst, hsecond⟩ := Fragment.contains_union_of_touches htouch
      rcases List.mem_cons.mp he with rfl | he
      · obtain ⟨d, hd, hcontains⟩ := ih (f := e.union g) List.mem_cons_self
        exact ⟨d, hd, hcontains.trans hfirst⟩
      rcases List.mem_cons.mp he with rfl | he
      · obtain ⟨d, hd, hcontains⟩ := ih (f := f.union e) List.mem_cons_self
        exact ⟨d, hd, hcontains.trans hsecond⟩
      · exact ih (List.mem_cons_of_mem _ he)
    · rcases List.mem_cons.mp he with rfl | he
      · exact ⟨e, List.mem_cons_self, .refl e⟩
      · obtain ⟨d, hd, hcontains⟩ := ih he
        exact ⟨d, List.mem_cons_of_mem _ hd, hcontains⟩

/-- Fusing changes as many lines as before, leaves at most as many fragments, and each of these is
contained in one that is left. -/
theorem fuse_spec (fragments : List Fragment) :
    (∀ side, (fuse fragments).changedLines side = changedLines fragments side) ∧
      (fuse fragments).length ≤ fragments.length ∧
      ∀ e ∈ fragments, ∃ g ∈ fuse fragments, g.Contains e := by
  cases fragments with
  | nil => exact ⟨fun _ => rfl, Nat.le_refl _, fun e he => absurd he List.not_mem_nil⟩
  | cons f rest =>
    rw [fuse_cons]
    exact ⟨changedLines_coalesce f rest, length_coalesce_le _ f rest,
      fun e he => exists_contains_coalesce he⟩

/-! ## Sliding -/

/-- A fragment has as many lines on every side after it slid. -/
theorem size_slide (lines : TwoSided (Array String)) {next : Option Fragment}
    (h : Placed keys previous next f) (side : Side) :
    ((slide keys lines previous next f).range side).size = (f.range side).size := by
  cases hside : f.pureSide with
  | none => rw [slide_eq_self hside]
  | some pure =>
    have hroom := preferredShift_bounds keys lines previous next f pure
    have hbounds := h.bounds_shift hroom.1 hroom.2 side
    rw [slide_eq_shift hside, Fragment.range_shift]
    have hshift := LineRange.bounds_shift (f.range side)
      (preferredShift keys lines previous next f pure) (by omega)
    unfold LineRange.size
    omega

/-- Sliding changes as many lines as before. -/
theorem changedLines_slideAll (lines : TwoSided (Array String))
    (h : p.Aligned (Agree keys) i j keys.left.size keys.right.size)
    (hprevious : EndsAt previous i j) (side : Side) :
    changedLines (slideAll keys lines previous p) side = p.changedLines side := by
  induction p generalizing previous i j with
  | nil => rfl
  | cons f rest ih =>
    have hslid := (slide_slid lines h hprevious).aligned h
    rw [slideAll_cons, changedLines_cons, changedLines_cons,
      size_slide lines (h.placed hprevious), ih hslid.2.2 (endsAt_above hslid hprevious)]

/-- There are as many fragments after sliding. -/
theorem length_slideAll (keys : TwoSided (Array Nat)) (lines : TwoSided (Array String))
    (previous : Option Fragment) (p : Patch) :
    (slideAll keys lines previous p).length = p.length := by
  induction p generalizing previous with
  | nil => rfl
  | cons f rest ih => rw [slideAll_cons, List.length_cons, List.length_cons, ih]

/-- A fragment that has not lines on one side alone stays where it is. -/
theorem mem_slideAll (keys : TwoSided (Array Nat)) (lines : TwoSided (Array String))
    (previous : Option Fragment) (hf : f ∈ p) (hside : f.pureSide = none) :
    f ∈ slideAll keys lines previous p := by
  induction p generalizing previous with
  | nil => cases hf
  | cons g rest ih =>
    rw [slideAll_cons]
    rcases List.mem_cons.mp hf with rfl | hf
    · rw [slide_eq_self hside]
      exact List.mem_cons_self
    · exact List.mem_cons_of_mem _ (ih _ hf)

/-- Settling a well-formed patch whose matched lines have equal keys gives such a patch again. It
changes as many lines on each side and matches the same keys in the same order; it has no more
fragments, and each fragment with lines on both sides is part of one of them, at its own lines. No
step subtracts below zero, reads a line that does not exist, or moves a bound out of its
document. -/
theorem settle_keeps (hlines : ∀ side, (lines.get side).size = (keys.get side).size)
    (hp : p.WellFormed keys.left.size keys.right.size)
    (hkeys : ∀ pair ∈ p.matchedPairs keys.left.size keys.right.size, Agree keys pair.1 pair.2) :
    (settle keys lines p).WellFormed keys.left.size keys.right.size ∧
      (∀ pair ∈ (settle keys lines p).matchedPairs keys.left.size keys.right.size,
        Agree keys pair.1 pair.2) ∧
      (∀ side, (settle keys lines p).changedLines side = p.changedLines side) ∧
      ((settle keys lines p).matchedPairs keys.left.size keys.right.size).map
          (keys.left[·.1]?) =
        (p.matchedPairs keys.left.size keys.right.size).map (keys.left[·.1]?) ∧
      (settle keys lines p).length ≤ p.length ∧
      (∀ f ∈ p, (∀ side, 0 < (f.range side).size) → ∃ g ∈ settle keys lines p, g.Contains f) ∧
      settle? keys lines p = some (settle keys lines p) := by
  have haligned : p.Aligned (Agree keys) 0 0 keys.left.size keys.right.size :=
    (wellFormed_iff.mp hp).1.of_matchedFrom hkeys
  obtain ⟨hsettled, hapart⟩ := haligned.settle lines
  obtain ⟨htotal, hlength, hcontains⟩ := fuse_spec (slideAll keys lines none p)
  refine ⟨wellFormed_iff.mpr ⟨hsettled.mono fun _ _ _ => trivial, hapart⟩,
    fun pair hpair => hsettled.rel_of_mem_matchedFrom hpair, fun side => ?_, ?_, ?_,
    fun f hf hboth => ?_, settle?_eq hlines haligned⟩
  · exact (htotal side).trans (changedLines_slideAll lines haligned ⟨rfl, rfl⟩ side)
  · have hsame : ∀ x y, Agree keys x y → keys.left[x]? = keys.right[y]? := by
      rintro x y ⟨key, hleft, hright⟩
      rw [hleft, hright]
    exact map_matchedPairs_settle lines hsame haligned
  · rwa [length_slideAll] at hlength
  · exact hcontains f (mem_slideAll keys lines none hf (Fragment.pureSide_eq_none hboth))

/-- A deletion slides down along an equal line until it touches a change and becomes part of it. -/
theorem settle_keeps_fused :
    let keys : TwoSided (Array Nat) := ⟨#[0, 0, 1], #[0, 2]⟩
    let lines : TwoSided (Array String) := ⟨#["a", "a", "b"], #["a", "c"]⟩
    let p : Patch := [⟨.span 0 1, .emptyAt 0⟩, ⟨.span 2 3, .span 1 2⟩]
    (∀ side, (lines.get side).size = (keys.get side).size) ∧ p.WellFormed 3 2 ∧
      (∀ pair ∈ p.matchedPairs 3 2, Agree keys pair.1 pair.2) ∧
      settle keys lines p = [⟨.span 1 3, .span 1 2⟩] ∧
      (∀ side, (settle keys lines p).changedLines side = p.changedLines side) ∧
      (∃ g ∈ settle keys lines p, g.Contains ⟨.span 2 3, .span 1 2⟩) ∧
      settle? keys lines p = some (settle keys lines p) := by
  intro keys lines p
  have hlines : ∀ side, (lines.get side).size = (keys.get side).size :=
    Side.forall_iff.mpr ⟨rfl, rfl⟩
  have hp : p.WellFormed keys.left.size keys.right.size := by decide
  have hkeys : ∀ pair ∈ p.matchedPairs keys.left.size keys.right.size,
      Agree keys pair.1 pair.2 := by decide
  have hresult : settle keys lines p = [⟨.span 1 3, .span 1 2⟩] := by decide +kernel
  obtain ⟨-, -, htotal, -, -, hcontains, hchecked⟩ := settle_keeps hlines hp hkeys
  refine ⟨hlines, hp, hkeys, hresult, htotal, hcontains _ ?_ ?_, hchecked⟩
  · exact List.mem_cons_of_mem _ (List.mem_singleton_self _)
  · exact Side.forall_iff.mpr ⟨by decide, by decide⟩

end Patch

end Linewise
