import Linewise.Proofs.Patch.Settled

/-!
# Fused patches

Fusing joins fragments that touch, in whatever order they come and wherever they lie.
A fragment may grow with each one that is appended, and so touch what it did not touch
before. Still the result does not depend on how much was fused beforehand: to append two
fragments that touch, one after the other, is to append their union.
-/

namespace Linewise

namespace Fragment

variable {e f g : Fragment}

/-- The union of two fragments that touch ends where the second does. -/
theorem touches_union_left (h : e.touches f = true) (g : Fragment) :
    (e.union f).touches g = f.touches g := by
  have hstop₁ : (e.union f).stop₁ = f.stop₁ := (range_union_of_touches h .left).2.2
  have hstop₂ : (e.union f).stop₂ = f.stop₂ := (range_union_of_touches h .right).2.2
  rw [touches, touches, hstop₁, hstop₂]

/-- The union of two fragments starts where the first does. -/
theorem touches_union_right (e f g : Fragment) : e.touches (f.union g) = e.touches f := rfl

/-- A fragment can be joined to two that touch one by one. -/
theorem union_union (e : Fragment) (h : f.touches g = true) :
    (e.union f).union g = e.union (f.union g) := by
  have hstop₁ : (f.union g).stop₁ = g.stop₁ := (range_union_of_touches h .left).2.2
  have hstop₂ : (f.union g).stop₂ = g.stop₂ := (range_union_of_touches h .right).2.2
  change (⟨.span e.start₁ g.stop₁, .span e.start₂ g.stop₂⟩ : Fragment) =
    ⟨.span e.start₁ (f.union g).stop₁, .span e.start₂ (f.union g).stop₂⟩
  rw [hstop₁, hstop₂]

end Fragment

namespace Patch

variable {f g : Fragment}

/-- Appending two fragments that touch, one after the other, appends their union. -/
theorem push_push (p : Patch) (h : f.touches g = true) :
    push (push p f) g = push p (f.union g) := by
  cases p using List.reverseRecOn with
  | nil => simp only [push, h, if_true]
  | append_singleton p e =>
    rw [push_append_singleton, push_append_singleton, Fragment.touches_union_right]
    cases hlast : e.touches f with
    | true =>
      rw [if_pos rfl, if_pos rfl, push_append_singleton, Fragment.touches_union_left hlast, h,
        if_pos rfl, Fragment.union_union e h]
    | false =>
      rw [if_neg Bool.false_ne_true, if_neg Bool.false_ne_true,
        show p ++ [e, f] = (p ++ [e]) ++ [f] by simp, push_append_singleton, if_pos h,
        List.append_assoc]
      rfl

/-- Appending what was fused from `f` on appends the fragments themselves. -/
theorem foldl_push_coalesce (p : Patch) (f : Fragment) (more : List Fragment) :
    (coalesce Fragment.touches f more).foldl push p = (f :: more).foldl push p := by
  induction more generalizing p f with
  | nil => rfl
  | cons g rest ih =>
    rw [coalesce]
    split
    · rename_i htouch
      rw [ih, List.foldl_cons, List.foldl_cons, List.foldl_cons, push_push p htouch]
    · rw [List.foldl_cons, ih]
      rfl

/-- Appending fused fragments appends the fragments themselves. -/
theorem foldl_push_fuse (p : Patch) (fragments : List Fragment) :
    (fuse fragments).foldl push p = fragments.foldl push p := by
  cases fragments with
  | nil => rfl
  | cons f rest =>
    rw [fuse_cons]
    exact foldl_push_coalesce p f rest

/-- Fusing what is fused changes nothing. -/
theorem fuse_fuse (fragments : List Fragment) : fuse (fuse fragments) = fuse fragments :=
  foldl_push_fuse [] fragments

/-- Both parts of a list may be fused before the whole is. -/
theorem fuse_fuse_append_fuse (fragments more : List Fragment) :
    fuse (fuse fragments ++ fuse more) = fuse (fragments ++ more) := by
  rw [fuse_append, fuse_append, fuse_fuse, foldl_push_fuse]

/-- Whatever the fragments and their order, no two neighbours touch after fusing, each side changes
as many lines as before, and every fragment is contained in one that is left. Fusing again changes
nothing, and a list in two parts is fused by appending the second part to the fused first one, or by
fusing both parts and then the whole. -/
theorem fuse_canonical (fragments more : List Fragment) :
    (fuse fragments).Apart ∧
      (∀ side, (fuse fragments).changedLines side = changedLines fragments side) ∧
      (∀ e ∈ fragments, ∃ g ∈ fuse fragments, g.Contains e) ∧
      fuse (fuse fragments) = fuse fragments ∧
      fuse (fragments ++ more) = more.foldl push (fuse fragments) ∧
      fuse (fragments ++ more) = fuse (fuse fragments ++ fuse more) := by
  obtain ⟨htotal, -, hcontains⟩ := fuse_spec fragments
  exact ⟨apart_fuse fragments, htotal, hcontains, fuse_fuse fragments,
    fuse_append fragments more, (fuse_fuse_append_fuse fragments more).symm⟩

/-- Of three fragments, not in the order of their lines, the first two touch. What follows touches
their union but not the first of them. -/
theorem fuse_canonical_unordered :
    let fragments : List Fragment :=
      [⟨.span 7 8, .span 7 7⟩, ⟨.span 3 5, .emptyAt 4⟩, ⟨.emptyAt 5, .span 4 6⟩]
    let more : List Fragment := [⟨.span 5 6, .emptyAt 6⟩, ⟨.span 0 1, .emptyAt 0⟩]
    fuse fragments = [⟨.span 7 8, .span 7 7⟩, ⟨.span 3 5, .span 4 6⟩] ∧
      (∃ g ∈ fuse fragments, g.Contains ⟨.emptyAt 5, .span 4 6⟩) ∧
      fuse (fragments ++ more) =
        [⟨.span 7 8, .span 7 7⟩, ⟨.span 3 6, .span 4 6⟩, ⟨.span 0 1, .emptyAt 0⟩] ∧
      fuse (fragments ++ more) = fuse (fuse fragments ++ fuse more) := by
  intro fragments more
  obtain ⟨-, -, hcontains, -, -, htwo⟩ := fuse_canonical fragments more
  exact ⟨by decide, hcontains _ (by simp [fragments]), by decide, htwo⟩

end Patch

end Linewise
