import Linewise.Proofs.Patch.Matching
import Linewise.Proofs.Patch.Slide
import Linewise.Proofs.Patch.Tidy

/-!
# What the stages do to matched pairs

A fragment slides only if it has lines on one side alone. The pairs that it gives up
and those that it gains have the same lines on the other side, so the sequence of
matched keys stays as it is. Fusing keeps every pair, joining across thin separators
gives up pairs of unimportant lines only, and trimming only adds pairs.
-/

namespace Linewise.Patch

variable {R : Nat → Nat → Prop} {i j k l n m : Nat} {p q : Patch} {f g : Fragment}

/-! ## Sliding and fusing -/

section Keys

variable {κ : Type} {key₁ key₂ : Nat → κ}

/-- Runs of the same length that start with the same line on one side match the same keys. -/
theorem map_diagonal_eq (hkeys : ∀ x y, R x y → key₁ x = key₂ y) {i' j' k' l' : Nat}
    (h : Run R i j i' j') (h' : Run R k l k' l') (hlength : i' - i = k' - k)
    (hsame : i = k ∨ j = l) :
    (diagonal i j (i' - i)).map (key₁ ·.1) = (diagonal k l (k' - k)).map (key₁ ·.1) := by
  rw [← hlength]
  simp only [diagonal, List.map_map]
  refine List.map_congr_left fun t ht => ?_
  have ht := List.mem_range.mp ht
  rcases hsame with rfl | rfl
  · rfl
  · exact (hkeys _ _ (h.pairs t ht)).trans (hkeys _ _ (h'.pairs t (by omega))).symm

/-- Two places of a fragment with lines on one side alone leave the same sequence of matched keys:
the lower place has a run above it where the upper one has a run below it. -/
theorem map_matchedFrom_place (hkeys : ∀ x y, R x y → key₁ x = key₂ y)
    (hbefore : Run R i j f.start₁ f.start₂) (habove : Run R f.start₁ f.start₂ g.start₁ g.start₂)
    (hbelow : Run R f.stop₁ f.stop₂ g.stop₁ g.stop₂) (hrest : Aligned R g.stop₁ g.stop₂ p n m)
    (hlength : g.stop₁ - f.stop₁ = g.start₁ - f.start₁)
    (hpure : f.start₁ = f.stop₁ ∨ f.start₂ = f.stop₂) :
    (matchedFrom i j (f :: p) n m).map (key₁ ·.1) =
      (matchedFrom i j (g :: p) n m).map (key₁ ·.1) := by
  have hkept := map_diagonal_eq hkeys hbelow habove hlength (by omega)
  have := hbefore.le₁
  have := hbefore.le₂
  have := hbefore.same_length
  have := habove.le₁
  have := habove.le₂
  have := habove.same_length
  rw [matchedFrom, matchedFrom, hrest.matchedFrom_of_run hbelow,
    show min (f.start₁ - i) (f.start₂ - j) = f.start₁ - i by omega,
    show min (g.start₁ - i) (g.start₂ - j) = (f.start₁ - i) + (g.start₁ - f.start₁) by omega,
    diagonal_add, show i + (f.start₁ - i) = f.start₁ by omega,
    show j + (f.start₁ - i) = f.start₂ by omega]
  simp only [List.map_append, hkept, List.append_assoc]

/-- A fragment with lines on one side alone keeps the sequence of matched keys when it slides. -/
theorem Slid.map_matchedFrom (hkeys : ∀ x y, R x y → key₁ x = key₂ y)
    (h : Slid R i (limit n p) f g) (haligned : Aligned R i j (f :: p) n m)
    (hpure : f.start₁ = f.stop₁ ∨ f.start₂ = f.stop₂) :
    (matchedFrom i j (g :: p) n m).map (key₁ ·.1) =
      (matchedFrom i j (f :: p) n m).map (key₁ ·.1) := by
  obtain ⟨hrun, _, hrest⟩ := haligned
  have := hrun.le₁
  have := hrun.le₂
  have := hrun.same_length
  have := f.start₁_le_stop₁
  have := f.start₂_le_stop₂
  cases h with
  | up count room matched =>
    obtain ⟨hstart₁, hstop₁, hstart₂, hstop₂⟩ := bounds_shift_up f count (by omega) (by omega)
    -- The new place is the upper one.
    refine map_matchedFrom_place hkeys ?_ ?_ ?_ hrest ?_ ?_
    · exact hrun.upTo (by omega) (by omega) (by omega) (by omega)
    · exact hrun.since (by omega) (by omega) (by omega) (by omega)
    · rwa [hstop₁, hstop₂]
    · omega
    · omega
  | down count room matched =>
    obtain ⟨hstart₁, hstop₁, hstart₂, hstop₂⟩ := bounds_shift_down f count
    refine (map_matchedFrom_place hkeys hrun ?_ ?_ ?_ ?_ hpure).symm
    · rwa [hstart₁, hstart₂]
    · rw [hstop₁, hstop₂]
      exact hrest.run_before room
    · rw [hstop₁, hstop₂]
      exact hrest.advance room
    · omega

variable {keys : TwoSided (Array Nat)} {previous : Option Fragment}

/-- One step of the pass keeps the sequence of matched keys. -/
theorem map_matchedFrom_slide (lines : TwoSided (Array String))
    (hkeys : ∀ x y, Agree keys x y → key₁ x = key₂ y)
    (h : Aligned (Agree keys) i j (f :: p) keys.left.size keys.right.size)
    (hprevious : EndsAt previous i j) :
    (matchedFrom i j (slide keys lines previous p.head? f :: p) keys.left.size
        keys.right.size).map (key₁ ·.1) =
      (matchedFrom i j (f :: p) keys.left.size keys.right.size).map (key₁ ·.1) := by
  have hslid := slide_slid lines h hprevious
  obtain ⟨hleft, hright⟩ := pureSide_eq f
  cases hside : f.pureSide with
  | none =>
    have hstays : slide keys lines previous p.head? f = f := by
      unfold slide
      rw [hside]
    rw [hstays]
  | some side =>
    refine hslid.map_matchedFrom hkeys h ?_
    cases side with
    | left => exact .inr (hleft hside)
    | right => exact .inl (hright hside)

/-- The whole pass keeps the sequence of matched keys. -/
theorem map_matchedFrom_slideAll (lines : TwoSided (Array String))
    (hkeys : ∀ x y, Agree keys x y → key₁ x = key₂ y)
    (h : p.Aligned (Agree keys) i j keys.left.size keys.right.size)
    (hprevious : EndsAt previous i j) :
    (matchedFrom i j (slideAll keys lines previous p) keys.left.size keys.right.size).map
        (key₁ ·.1) =
      (p.matchedFrom i j keys.left.size keys.right.size).map (key₁ ·.1) := by
  induction p generalizing previous i j with
  | nil => rfl
  | cons f rest ih =>
    have hslid := (slide_slid lines h hprevious).aligned h
    rw [slideAll_cons, ← map_matchedFrom_slide lines hkeys h hprevious, matchedFrom, matchedFrom,
      List.map_append, List.map_append, ih hslid.2.2 (endsAt_above hslid hprevious)]

end Keys

/-- Joining neighbours gives up no pair that is to be kept, if none of these stands between two
fragments that are joined. -/
theorem Aligned.filter_matchedFrom_coalesce {joins : Fragment → Fragment → Bool}
    {keep : Nat × Nat → Bool}
    (hjoins : ∀ f g, joins f g = true → ∀ x ∈ diagonal f.stop₁ f.stop₂
      (min (g.start₁ - f.stop₁) (g.start₂ - f.stop₂)), keep x = false)
    (h : Aligned R i j (f :: p) n m) :
    ((Patch.coalesce joins f p).matchedFrom i j n m).filter keep =
      (matchedFrom i j (f :: p) n m).filter keep := by
  induction p generalizing f i j with
  | nil => rfl
  | cons g rest ih =>
    rw [Patch.coalesce]
    split
    · rename_i hjoined
      obtain ⟨hstop₁, hstop₂, hunion⟩ := h.union
      have hnone : (diagonal f.stop₁ f.stop₂
          (min (g.start₁ - f.stop₁) (g.start₂ - f.stop₂))).filter keep = [] :=
        List.filter_eq_nil_iff.mpr fun x hx => by simp [hjoins f g hjoined x hx]
      rw [ih hunion, matchedFrom, matchedFrom, matchedFrom, hstop₁, hstop₂]
      simp only [List.filter_append, hnone, List.nil_append]
      rfl
    · rw [matchedFrom, matchedFrom, List.filter_append, List.filter_append, ih h.2.2]

/-- Fusing keeps all matched pairs. -/
theorem Aligned.matchedFrom_fuse (h : p.Aligned R i j n m) :
    (Patch.fuse p).matchedFrom i j n m = p.matchedFrom i j n m := by
  cases p with
  | nil => rfl
  | cons f rest =>
    have hkept : ((Patch.coalesce Fragment.touches f rest).matchedFrom i j n m).filter
        (fun _ => true) = (matchedFrom i j (f :: rest) n m).filter (fun _ => true) := by
      refine h.filter_matchedFrom_coalesce ?_
      intro f g htouch x hx
      simp only [Fragment.touches, Bool.and_eq_true, beq_iff_eq] at htouch
      obtain ⟨t, ht, _⟩ := mem_diagonal.mp hx
      omega
    rwa [List.filter_true, List.filter_true, ← fuse_cons] at hkept

/-- Moving all fragments to their preferred positions and fusing those that touch keeps the sequence
of matched keys. -/
theorem map_matchedPairs_settle {κ : Type} {key₁ key₂ : Nat → κ} {keys : TwoSided (Array Nat)}
    (lines : TwoSided (Array String)) (hkeys : ∀ x y, Agree keys x y → key₁ x = key₂ y)
    (h : p.Aligned (Agree keys) 0 0 keys.left.size keys.right.size) :
    ((settle keys lines p).matchedPairs keys.left.size keys.right.size).map (key₁ ·.1) =
      (p.matchedPairs keys.left.size keys.right.size).map (key₁ ·.1) := by
  have hnone : EndsAt none 0 0 := ⟨rfl, rfl⟩
  rw [matchedPairs, settle, (h.slideAll lines hnone).matchedFrom_fuse,
    map_matchedFrom_slideAll lines hkeys h hnone, matchedPairs]

/-! ## Tidying -/

/-- Joining across thin separators gives up pairs of unimportant lines only. -/
theorem Aligned.filter_matchedFrom_joinThin {threshold : Nat} {lines : TwoSided (Array String)}
    {keep : Nat × Nat → Bool}
    (hkeep : ∀ x, unimportantAt threshold lines.left x.1 = true →
      unimportantAt threshold lines.right x.2 = true → keep x = false)
    (h : p.Aligned R i j n m) :
    ((Patch.joinThin threshold lines p).matchedFrom i j n m).filter keep =
      (p.matchedFrom i j n m).filter keep := by
  cases p with
  | nil => rfl
  | cons f rest =>
    rw [Patch.joinThin, joinFrom_eq_coalesce]
    refine h.filter_matchedFrom_coalesce ?_
    intro f g hjoins x hx
    simp only [joins, thinlySeparated, Bool.and_eq_true, beq_iff_eq] at hjoins
    obtain ⟨⟨⟨⟨hstart₁, _⟩, hleft⟩, hright⟩, _⟩ := hjoins
    obtain ⟨t, ht, rfl⟩ := mem_diagonal.mp hx
    have ht : t = 0 := by omega
    subst ht
    exact hkeep _ hleft hright

/-- A shorter diagonal from the same start is the beginning of a longer one. -/
theorem diagonal_sublist {count count' : Nat} (h : count ≤ count') :
    (diagonal i j count).Sublist (diagonal i j count') := by
  rw [← Nat.add_sub_cancel' h, diagonal_add]
  exact List.sublist_append_left _ _

/-- Trimming only adds matched pairs. -/
theorem Aligned.matchedFrom_sublist_trim {lines : TwoSided (Array String)}
    (hR : ∀ x y, Agree lines x y → R x y) (hn : n ≤ lines.left.size) (h : p.Aligned R i j n m) :
    (p.matchedFrom i j n m).Sublist
      (matchedFrom i j (p.filterMap (trimEnds lines)) n m) := by
  induction p generalizing i j with
  | nil => exact List.Sublist.refl _
  | cons f rest ih =>
    have hbounds := h.bounds List.mem_cons_self
    obtain ⟨hrun, _, hrest⟩ := h
    have := hrun.same_length
    obtain ⟨front, back, htrim⟩ := trimEnds_trimmed lines f (by omega)
    have hroom := htrim.room₁
    have hroom' := htrim.room₂
    have hrest' := hrest.trim hR hn
    have hlater : (matchedFrom f.stop₁ f.stop₂ rest n m).Sublist (matchedFrom (f.stop₁ - back)
        (f.stop₂ - back) (rest.filterMap (trimEnds lines)) n m) := by
      rw [hrest'.matchedFrom_of_run (htrim.last.mono hR)]
      exact (ih hrest).trans (List.sublist_append_right _ _)
    rw [matchedFrom]
    cases hcase : trimEnds lines f with
    | none =>
      obtain ⟨heq₁, heq₂⟩ := htrim.gone hcase
      have hfirst := hrun.trans (htrim.first.mono hR)
      have hafter := hrest'.after_run (htrim.last.mono hR)
      rw [← heq₁, ← heq₂] at hafter hlater
      rw [List.filterMap_cons_none hcase, hafter.matchedFrom_of_run hfirst]
      exact (diagonal_sublist (by omega)).append hlater
    | some g =>
      obtain ⟨hstart₁, hstop₁, hstart₂, hstop₂, _⟩ := htrim.kept g hcase
      rw [List.filterMap_cons_some hcase, matchedFrom, hstart₁, hstop₁, hstart₂, hstop₂]
      exact (diagonal_sublist (by omega)).append hlater

/-- Tidying never matches fewer pairs that are to be kept, if none of these are unimportant lines.
-/
theorem Aligned.countP_le_tidy {threshold : Nat} {lines : TwoSided (Array String)}
    {keep : Nat × Nat → Bool}
    (hkeep : ∀ x, unimportantAt threshold lines.left x.1 = true →
      unimportantAt threshold lines.right x.2 = true → keep x = false)
    (hR : ∀ x y, Agree lines x y → R x y) (hn : n ≤ lines.left.size) (h : p.Aligned R 0 0 n m)
    (hapart : p.Apart) :
    (p.matchedPairs n m).countP keep ≤
      ((Patch.tidy threshold lines p).matchedPairs n m).countP keep := by
  have hjoined : ((Patch.joinThin threshold lines p).matchedPairs n m).filter keep =
      (p.matchedPairs n m).filter keep := h.filter_matchedFrom_joinThin hkeep
  have htrimmed := (h.joinThin threshold lines hapart).1.matchedFrom_sublist_trim hR hn
  calc (p.matchedPairs n m).countP keep
      = ((Patch.joinThin threshold lines p).matchedPairs n m).countP keep := by
        rw [List.countP_eq_length_filter, List.countP_eq_length_filter, hjoined]
    _ ≤ ((Patch.tidy threshold lines p).matchedPairs n m).countP keep := htrimmed.countP_le

end Linewise.Patch
