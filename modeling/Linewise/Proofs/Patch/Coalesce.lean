import Linewise.Patch.Fuse
import Linewise.Patch.Tidy
import Linewise.Proofs.Patch.Tight

/-!
# Joining neighbours

Fusing fragments that touch and joining fragments across thin separators are the
same pass with different conditions: going from left to right, the fragment in
hand is joined to the next one as long as the condition holds. `coalesce` is this
pass; what it keeps is proved once for every condition.
-/

namespace Linewise.Patch

variable {R : Nat → Nat → Prop} {i j n m : Nat} {p : Patch} {f g : Fragment}

/-- Joins fragments from `f` on: the one in hand and the next become their union if `joins` says
so. -/
def coalesce (joins : Fragment → Fragment → Bool) (f : Fragment) : Patch → Patch
  | [] => [f]
  | g :: rest =>
    if joins f g then coalesce joins (f.union g) rest else f :: coalesce joins g rest

/-- Joining across thin separators is one such pass. -/
theorem joinFrom_eq_coalesce (threshold : Nat) (lines : TwoSided (Array String)) (f : Fragment)
    (p : Patch) : joinFrom threshold lines f p = coalesce (joins threshold lines) f p := by
  induction p generalizing f with
  | nil => rfl
  | cons g rest ih => simp only [joinFrom, coalesce, ih]

/-- A fragment is appended to what ends in `f` according to whether `f` touches it. -/
theorem push_append_singleton (p : Patch) (f g : Fragment) :
    push (p ++ [f]) g = p ++ if f.touches g then [f.union g] else [f, g] := by
  induction p with
  | nil => rfl
  | cons e rest ih =>
    cases rest with
    | nil => rw [List.cons_append, List.nil_append, push, push]; rfl
    | cons e' rest =>
      rw [List.cons_append, List.cons_append, push, ← List.cons_append, ih]
      rfl

/-- Appending fragments one by one to what ends in `f` goes on with the pass from `f`. -/
theorem foldl_push_append_singleton (p : Patch) (f : Fragment) (more : List Fragment) :
    more.foldl push (p ++ [f]) = p ++ coalesce Fragment.touches f more := by
  induction more generalizing p f with
  | nil => rfl
  | cons g rest ih =>
    rw [List.foldl_cons, push_append_singleton, coalesce]
    split
    · exact ih p (f.union g)
    · rw [show p ++ [f, g] = (p ++ [f]) ++ [g] by simp, ih, List.append_assoc]
      rfl

/-- Fusing is one such pass. -/
theorem fuse_cons (f : Fragment) (p : Patch) :
    fuse (f :: p) = coalesce Fragment.touches f p := foldl_push_append_singleton [] f p

/-- Joining neighbours leaves at most as many fragments as before. -/
theorem length_coalesce_le (joins : Fragment → Fragment → Bool) (f : Fragment) (p : Patch) :
    (coalesce joins f p).length ≤ p.length + 1 := by
  induction p generalizing f with
  | nil => exact Nat.le_refl _
  | cons g rest ih =>
    rw [coalesce]
    split
    · exact Nat.le_succ_of_le (ih (f.union g))
    · exact Nat.succ_le_succ (ih g)

/-- Two neighbours of an aligned patch may be joined; the lines between them are then no longer
matched. -/
theorem Aligned.union (h : Aligned R i j (f :: g :: p) n m) :
    (f.union g).stop₁ = g.stop₁ ∧ (f.union g).stop₂ = g.stop₂ ∧
      Aligned R i j (f.union g :: p) n m := by
  obtain ⟨hrun, hcost, hbetween, _, hrest⟩ := h
  have := f.start₁_le_stop₁
  have := f.start₂_le_stop₂
  have := g.start₁_le_stop₁
  have := g.start₂_le_stop₂
  have := hbetween.le₁
  have := hbetween.le₂
  have hstop₁ : (f.union g).stop₁ = g.stop₁ := LineRange.span_stop (by omega)
  have hstop₂ : (f.union g).stop₂ = g.stop₂ := LineRange.span_stop (by omega)
  refine ⟨hstop₁, hstop₂, hrun, ?_, ?_⟩
  · rw [Fragment.cost_eq] at hcost ⊢
    rw [hstop₁, hstop₂]
    change 0 < (g.stop₁ - f.start₁) + (g.stop₂ - f.start₂)
    omega
  · rw [hstop₁, hstop₂]
    exact hrest

/-- Joining neighbours keeps a patch aligned. -/
theorem Aligned.coalesce (joins : Fragment → Fragment → Bool)
    (h : Aligned R i j (f :: p) n m) : (coalesce joins f p).Aligned R i j n m := by
  induction p generalizing f i j with
  | nil => exact h
  | cons g rest ih =>
    rw [Patch.coalesce]
    split
    · exact ih h.union.2.2
    · exact ⟨h.1, h.2.1, ih h.2.2⟩

/-- The result of the pass starts where `f` does. -/
theorem head_coalesce (joins : Fragment → Fragment → Bool) (f : Fragment) (p : Patch) :
    ∃ first rest, coalesce joins f p = first :: rest ∧ first.start₁ = f.start₁ ∧
      first.start₂ = f.start₂ := by
  induction p generalizing f with
  | nil => exact ⟨f, [], rfl, rfl, rfl⟩
  | cons g rest ih =>
    rw [coalesce]
    split
    · exact ih (f.union g)
    · exact ⟨f, _, rfl, rfl, rfl⟩

/-- Every fragment of the result ends where one of the given fragments does. -/
theorem stop_of_mem_coalesce {joins : Fragment → Fragment → Bool} {e : Fragment}
    (h : Aligned R i j (f :: p) n m) (he : e ∈ coalesce joins f p) :
    ∃ g ∈ f :: p, e.stop₁ = g.stop₁ ∧ e.stop₂ = g.stop₂ := by
  induction p generalizing f i j with
  | nil => exact ⟨e, he, rfl, rfl⟩
  | cons g rest ih =>
    rw [coalesce] at he
    split at he
    · obtain ⟨hstop₁, hstop₂, hunion⟩ := h.union
      obtain ⟨g', hg', heq₁, heq₂⟩ := ih hunion he
      rcases List.mem_cons.mp hg' with rfl | hg'
      · exact ⟨g, by simp, by omega, by omega⟩
      · exact ⟨g', by simp [hg'], heq₁, heq₂⟩
    · rcases List.mem_cons.mp he with rfl | he
      · exact ⟨e, by simp, rfl, rfl⟩
      · obtain ⟨g', hg', heq⟩ := ih h.2.2 he
        exact ⟨g', List.mem_cons_of_mem _ hg', heq⟩

/-- Joining neighbours keeps a patch tight: a joined fragment starts where its first part starts and
ends where its last part ends. -/
theorem Tight.coalesce (joins : Fragment → Fragment → Bool) (haligned : Aligned R i j (f :: p) n m)
    (h : Tight R (f :: p)) : (coalesce joins f p).Tight R := by
  induction p generalizing f i j with
  | nil => exact h
  | cons g rest ih =>
    obtain ⟨hself, hlater, hrest⟩ := tight_cons.mp h
    rw [Patch.coalesce]
    split
    · obtain ⟨hstop₁, hstop₂, hunion⟩ := haligned.union
      obtain ⟨_, _, htail⟩ := tight_cons.mp hrest
      refine ih hunion (tight_cons.mpr ⟨?_, ?_, htail⟩)
      · rw [Fragment.RunsTo, hstop₁, hstop₂]
        exact hlater g List.mem_cons_self
      · exact fun e he => hlater e (List.mem_cons_of_mem _ he)
    · refine tight_cons.mpr ⟨hself, fun e he => ?_, ih haligned.2.2 hrest⟩
      obtain ⟨g', hg', heq₁, heq₂⟩ := stop_of_mem_coalesce haligned.2.2 he
      rw [Fragment.RunsTo, heq₁, heq₂]
      exact hlater g' hg'

/-- If every two fragments that touch are joined, no two of the result touch. -/
theorem apart_coalesce_of_joins {joins : Fragment → Fragment → Bool}
    (hjoins : ∀ f g, f.touches g = true → joins f g = true) (f : Fragment) (p : Patch) :
    (coalesce joins f p).Apart := by
  induction p generalizing f with
  | nil => exact .singleton f
  | cons g rest ih =>
    rw [coalesce]
    split
    · exact ih (f.union g)
    · rename_i hnot
      obtain ⟨first, later, heq, hstart₁, hstart₂⟩ := head_coalesce joins g rest
      have htail := ih g
      rw [heq] at htail ⊢
      refine List.isChain_cons_cons.mpr ⟨?_, htail⟩
      have hfree : f.touches g = false := by
        by_contra htouch
        exact hnot (hjoins f g (by simpa using htouch))
      simpa only [Fragment.touches, hstart₁, hstart₂] using hfree

/-- If no two fragments touch, none do after a pass. -/
theorem Apart.coalesce (joins : Fragment → Fragment → Bool) (haligned : Aligned R i j (f :: p) n m)
    (h : Apart (f :: p)) : (coalesce joins f p).Apart := by
  induction p generalizing f i j with
  | nil => exact .singleton f
  | cons g rest ih =>
    obtain ⟨hfree, htail⟩ := List.isChain_cons_cons.mp h
    rw [Patch.coalesce]
    split
    · obtain ⟨hstop₁, hstop₂, hunion⟩ := haligned.union
      refine ih hunion ?_
      cases rest with
      | nil => exact .singleton _
      | cons g' rest =>
        obtain ⟨hnext, hlast⟩ := List.isChain_cons_cons.mp htail
        refine List.isChain_cons_cons.mpr ⟨?_, hlast⟩
        simpa only [Fragment.touches, hstop₁, hstop₂] using hnext
    · obtain ⟨first, later, heq, hstart₁, hstart₂⟩ := head_coalesce joins g rest
      have hrest := ih haligned.2.2 htail
      rw [heq] at hrest ⊢
      refine List.isChain_cons_cons.mpr ⟨?_, hrest⟩
      simpa only [Fragment.touches, hstart₁, hstart₂] using hfree

/-- No fragment of a fused list touches the next. -/
theorem apart_fuse (fragments : List Fragment) : (fuse fragments).Apart := by
  cases fragments with
  | nil => exact .nil
  | cons f rest =>
    rw [fuse_cons]
    exact apart_coalesce_of_joins (fun _ _ htouch => htouch) f rest

/-- Fusing keeps a patch aligned, and no two fragments of the result touch. -/
theorem Aligned.fuse (h : p.Aligned R i j n m) :
    (fuse p).Aligned R i j n m ∧ (Patch.fuse p).Apart := by
  refine ⟨?_, apart_fuse p⟩
  cases p with
  | nil => exact h
  | cons f rest =>
    rw [fuse_cons]
    exact h.coalesce _

/-- Fusing keeps a patch tight. -/
theorem Tight.fuse (h : p.Tight R) (haligned : p.Aligned R i j n m) : (fuse p).Tight R := by
  cases p with
  | nil => exact h
  | cons f rest =>
    rw [fuse_cons]
    exact h.coalesce _ haligned

/-- Joining across thin separators keeps a patch aligned and its fragments apart. -/
theorem Aligned.joinThin (threshold : Nat) (lines : TwoSided (Array String))
    (h : p.Aligned R i j n m) (hapart : p.Apart) :
    (joinThin threshold lines p).Aligned R i j n m ∧ (Patch.joinThin threshold lines p).Apart := by
  cases p with
  | nil => exact ⟨h, hapart⟩
  | cons f rest =>
    rw [Patch.joinThin, joinFrom_eq_coalesce]
    exact ⟨h.coalesce _, hapart.coalesce _ h⟩

/-- Joining across thin separators gives a well-formed patch if no two fragments touch. -/
theorem Aligned.wellFormed_joinThin (threshold : Nat) (lines : TwoSided (Array String))
    (h : p.Aligned R 0 0 n m) (hapart : p.Apart) :
    (Patch.joinThin threshold lines p).WellFormed n m := by
  obtain ⟨hjoined, hjoinedApart⟩ := h.joinThin threshold lines hapart
  exact wellFormed_iff.mpr ⟨hjoined.mono fun _ _ _ => trivial, hjoinedApart⟩

/-- Joining across thin separators keeps a patch tight. -/
theorem Tight.joinThin (threshold : Nat) (lines : TwoSided (Array String)) (h : p.Tight R)
    (haligned : p.Aligned R i j n m) : (joinThin threshold lines p).Tight R := by
  cases p with
  | nil => exact h
  | cons f rest =>
    rw [Patch.joinThin, joinFrom_eq_coalesce]
    exact h.coalesce _ haligned

end Linewise.Patch
