import Linewise.Proofs.Patch.Growth
import Linewise.Proofs.ThreeWay.Chains
import Linewise.Proofs.ThreeWay.Regions

/-!
# Regions tile the three documents

The fragments between the base and the two sides fall into components: two of them
belong together if a chain leads from one to the other in which each fragment meets
the next. The regions are these components. Between them all documents run on side by
side, so the range of a region on a side is its range in the base, moved by what the
side's fragments before it added.
-/

namespace Linewise

/-! ## Regions and fragments -/

namespace Region

/-- The range of the region in the base overlaps or touches that of the fragment. -/
def Meets (r : Region) (x : Side × Fragment) : Prop :=
  r.base.start ≤ x.2.stop₁ ∧ x.2.start₁ ≤ r.base.stop

/-- The region holds the lines of the fragment in the base and those on the fragment's side. -/
def Contains (r : Region) (x : Side × Fragment) : Prop :=
  (r.base.start ≤ x.2.start₁ ∧ x.2.stop₁ ≤ r.base.stop) ∧
    (r.get x.1.toThreeSide).start ≤ x.2.start₂ ∧ x.2.stop₂ ≤ (r.get x.1.toThreeSide).stop

/-- Each bound of the region on a side is exactly as far from that in the base as the fragments of
the patch up to there put it. -/
def IsMovedBy (r : Region) (side : Side) (p : Patch) : Prop :=
  ((r.get side.toThreeSide).start : Int) = r.base.start + p.growthBefore r.base.start ∧
    ((r.get side.toThreeSide).stop : Int) = r.base.stop + p.growthBefore (r.base.stop + 1)

/-- In the base the region leads from the start of a fragment in it to the end of one in it. -/
def IsHull (patches : TwoSided Patch) (r : Region) : Prop :=
  (∃ x, IsFragmentOf patches x ∧ r.Contains x ∧ x.2.start₁ = r.base.start) ∧
    ∃ x, IsFragmentOf patches x ∧ r.Contains x ∧ x.2.stop₁ = r.base.stop

/-- A region that contains a fragment meets it. -/
theorem Contains.meets {r : Region} {x : Side × Fragment} (h : r.Contains x) : r.Meets x := by
  obtain ⟨⟨hstart, hstop⟩, _⟩ := h
  have hblock := x.2.start₁_le_stop₁
  exact ⟨Nat.le_trans hstart hblock, Nat.le_trans hblock hstop⟩

end Region

/-- From line `i` of the base and the lines `here` of both sides on, the regions come at least `gap`
lines further down and then at least one line apart on all sides. Before, between and after them
both sides run on side by side with the base, in lines that are equal under the policy. -/
def AgreeOutside (policy : Policy) (documents : ThreeSided Document) (gap i : Nat)
    (here : TwoSided Nat) : List Region → Prop
  | [] => ∀ side, Run (SideAgrees policy documents side) i (here.get side)
      documents.base.lineCount (documents.get side.toThreeSide).lineCount
  | r :: regions =>
    (i + gap ≤ r.base.start ∧ ∀ side, here.get side + gap ≤ (r.get side.toThreeSide).start ∧
      Run (SideAgrees policy documents side) i (here.get side) r.base.start
        (r.get side.toThreeSide).start) ∧
    AgreeOutside policy documents 1 r.base.stop ⟨r.left.stop, r.right.stop⟩ regions

/-- The regions are the components of the fragments of both sides, and outside them all documents
agree. -/
structure IsTiling (policy : Policy) (documents : ThreeSided Document) (patches : TwoSided Patch)
    (regions : List Region) : Prop where
  /-- Outside the regions, which lie apart, the documents agree. -/
  agree : AgreeOutside policy documents 0 0 ⟨0, 0⟩ regions
  /-- Every region lies within all three documents. -/
  bounded : ∀ r ∈ regions, ∀ side, (r.get side).stop ≤ (documents.get side).lineCount
  /-- Every region has a line on some side. -/
  nonempty : ∀ r ∈ regions, r.isEmpty = false
  /-- Every bound on a side is where the fragments up to there put it: none is held at line 0. -/
  moved : ∀ r ∈ regions, ∀ side, r.IsMovedBy side (patches.get side)
  /-- Every region is as small as the fragments in it allow. -/
  hull : ∀ r ∈ regions, r.IsHull patches
  /-- Every fragment lies in one region and meets no other. -/
  unique : ∀ x, IsFragmentOf patches x →
    ∃ r ∈ regions, r.Contains x ∧ ∀ r' ∈ regions, r'.Meets x → r' = r
  /-- Two fragments share a region if and only if a chain leads from one to the other. -/
  linked : ∀ x y, IsFragmentOf patches x → IsFragmentOf patches y →
    ((∃ r ∈ regions, r.Contains x ∧ r.Contains y) ↔ Linked patches x y)

/-- Separated regions whose ranges in the base overlap or touch are the same. -/
theorem Separated.eq_of_overlap {regions : List Region} {r r' : Region} (h : Separated regions)
    (hr : r ∈ regions) (hr' : r' ∈ regions) (hle : r.base.start ≤ r'.base.stop)
    (hge : r'.base.start ≤ r.base.stop) : r' = r := by
  have hall : ∀ r ∈ regions, ∀ r' ∈ regions, r.base.start ≤ r'.base.stop →
      r'.base.start ≤ r.base.stop → r' = r := by
    refine List.Pairwise.forall_of_forall_of_flip (fun _ _ _ _ => rfl) (h.imp ?_) (h.imp ?_)
    · intro r r' hlt hle hge
      omega
    · intro r r' hlt hle hge
      omega
  exact hall r hr r' hr' hle hge

section Covers

variable {R : Side → Nat → Nat → Prop} {n i gap : Nat} {ends here : TwoSided Nat}
  {rest : TwoSided Patch} {regions : List Region} {side : Side}

/-- Regions that cover the fragments contain each of them. -/
theorem Covers.exists_contains {x : Side × Fragment} (h : Covers R n ends i here rest regions)
    (hx : IsFragmentOf rest x) : ∃ r ∈ regions, r.Contains x := by
  induction regions generalizing i here rest with
  | nil =>
    rw [IsFragmentOf, (h x.1).1] at hx
    cases hx
  | cons r regions ih =>
    obtain ⟨later, _, hsides, hrest⟩ := h
    obtain ⟨taken, hsplit, _, htaken⟩ := hsides x.1
    rw [IsFragmentOf, hsplit] at hx
    rcases List.mem_append.mp hx with hx | hx
    · obtain ⟨hstart₁, hstart₂, hstop₁, hstop₂⟩ := htaken.bounds hx
      exact ⟨r, List.mem_cons_self, ⟨hstart₁, hstop₁⟩, hstart₂, hstop₂⟩
    · obtain ⟨r', hr', hcontains⟩ := ih hrest hx
      exact ⟨r', List.mem_cons_of_mem r hr', hcontains⟩

/-- Outside separated regions that cover the fragments, the documents agree. -/
theorem Covers.agreeOutside {policy : Policy} {documents : ThreeSided Document}
    (h : Covers (SideAgrees policy documents) documents.base.lineCount
      ⟨documents.left.lineCount, documents.right.lineCount⟩ i here rest regions)
    (hseparated : Separated regions) (hgap : ∀ r ∈ regions.head?, i + gap ≤ r.base.start) :
    AgreeOutside policy documents gap i here regions := by
  induction regions generalizing gap i here rest with
  | nil =>
    intro side
    have hrun := (h side).2
    cases side <;> exact hrun
  | cons r regions ih =>
    obtain ⟨later, _, hsides, hrest⟩ := h
    obtain ⟨hnext, hseparated⟩ := List.pairwise_cons.mp hseparated
    have hfirst := hgap r rfl
    refine ⟨⟨hfirst, fun side => ?_⟩, ih hrest hseparated ?_⟩
    · obtain ⟨_, _, hrun, _⟩ := hsides side
      have := hrun.le₂
      have := hrun.same_length
      exact ⟨by omega, hrun⟩
    · intro r' hr'
      exact hnext r' (List.mem_of_mem_head? hr')

/-- Separated regions that cover the fragments are moved by what the fragments add, those in
`before` included, which end above all regions. -/
theorem Covers.isMovedBy (before : Patch) (h : Covers R n ends i here rest regions)
    (hseparated : Separated regions) (hbefore : ∀ f ∈ before, ∀ r ∈ regions, f.stop₁ < r.base.start)
    (hhere : (here.get side : Int) = i + before.growth) :
    ∀ r ∈ regions, r.IsMovedBy side (before ++ rest.get side) := by
  induction regions generalizing i here rest before with
  | nil => exact fun r hr => absurd hr List.not_mem_nil
  | cons r regions ih =>
    obtain ⟨later, _, hsides, hrest⟩ := h
    obtain ⟨taken, hsplit, hrun, htaken⟩ := hsides side
    obtain ⟨hnext, hseparated⟩ := List.pairwise_cons.mp hseparated
    have hinside (f : Fragment) (hf : f ∈ taken) : r.base.start ≤ f.stop₁ ∧ f.stop₁ ≤ r.base.stop :=
      ⟨Nat.le_trans (htaken.bounds hf).1 f.start₁_le_stop₁, (htaken.bounds hf).2.2.1⟩
    have hlater (f : Fragment) (hf : f ∈ later.get side) : r.base.stop < f.stop₁ := by
      have hx : IsFragmentOf later (side, f) := hf
      obtain ⟨r', hr', ⟨hstart, _⟩, _⟩ := hrest.exists_contains hx
      exact Nat.lt_of_lt_of_le (hnext r' hr') (Nat.le_trans hstart f.start₁_le_stop₁)
    have hstart : ((r.get side.toThreeSide).start : Int) = r.base.start + before.growth := by
      have := hrun.le₁
      have := hrun.le₂
      have := hrun.same_length
      omega
    have hstop : ((r.get side.toThreeSide).stop : Int) =
        r.base.stop + (before.growth + taken.growth) := by
      have := htaken.growth_eq
      omega
    rw [hsplit, List.forall_mem_cons]
    constructor
    · obtain ⟨hbelow, habove⟩ := Patch.growthBefore_around
        (fun f hf => hbefore f hf r List.mem_cons_self) hinside hlater
      rw [Region.IsMovedBy, hbelow, habove]
      exact ⟨hstart, hstop⟩
    · -- What this region takes ends above the later ones, so it joins `before`.
      rw [← List.append_assoc]
      refine ih (before ++ taken) hrest hseparated ?_ ?_
      · intro f hf r' hr'
        rcases List.mem_append.mp hf with hf | hf
        · exact hbefore f hf r' (List.mem_cons_of_mem r hr')
        · exact Nat.lt_of_le_of_lt (hinside f hf).2 (hnext r' hr')
      · rw [Patch.growth_append]
        cases side <;> exact hstop

end Covers

section Components

variable {patches : TwoSided Patch} {regions : List Region} {r : Region} {x y : Side × Fragment}

/-- Fragments in a region that holds a chain are linked. -/
theorem Region.HoldsChain.linked (h : r.HoldsChain patches) (hx : IsFragmentOf patches x)
    (hy : IsFragmentOf patches y) (hrx : r.Contains x) (hry : r.Contains y) :
    Linked patches x y := by
  obtain ⟨first, hfirst, _, hreaches⟩ := h
  have hlinkedX := hreaches.linked hfirst hx hrx.1.1 hrx.meets.2
  have hlinkedY := hreaches.linked hfirst hy hry.1.1 hry.meets.2
  exact hlinkedX.symm.trans hlinkedY

/-- A fragment that meets one of a separated region lies in that region too. -/
theorem Separated.contains_of_meets (h : Separated regions)
    (hall : ∀ x, IsFragmentOf patches x → ∃ r ∈ regions, r.Contains x) (hr : r ∈ regions)
    (hy : IsFragmentOf patches y) (hmeets : r.Meets y) : r.Contains y := by
  obtain ⟨r', hr', hcontains⟩ := hall y hy
  have := hmeets.1
  have := hmeets.2
  have := hcontains.1
  obtain rfl := h.eq_of_overlap hr hr' (by omega) (by omega)
  exact hcontains

/-- A chain never leads out of a separated region. -/
theorem Separated.contains_of_linked (h : Separated regions)
    (hall : ∀ x, IsFragmentOf patches x → ∃ r ∈ regions, r.Contains x) (hr : r ∈ regions)
    (hrx : r.Contains x) (hxy : Linked patches x y) : r.Contains y := by
  induction hxy with
  | refl => exact hrx
  | tail _ hstep ih =>
    obtain ⟨_, hz, hmeets⟩ := hstep
    -- The fragment before it on the chain lies in the region, so the region meets this one.
    have := ih.1
    have := hmeets.1
    have := hmeets.2
    exact h.contains_of_meets hall hr hz ⟨by omega, by omega⟩

/-- A separated region that holds a chain leads from the start of a fragment in it to the end of
one. -/
theorem Region.HoldsChain.isHull (h : r.HoldsChain patches) (hseparated : Separated regions)
    (hall : ∀ x, IsFragmentOf patches x → ∃ r ∈ regions, r.Contains x) (hr : r ∈ regions) :
    r.IsHull patches := by
  obtain ⟨first, hfirst, hstart, hreaches⟩ := h
  have hblock := r.base.start_le_stop
  have hfirstBlock := first.2.start₁_le_stop₁
  constructor
  · have hmeets : r.Meets first := ⟨by omega, by omega⟩
    exact ⟨first, hfirst, hseparated.contains_of_meets hall hr hfirst hmeets, hstart⟩
  · obtain ⟨last, hlinked, hle, hge⟩ := hreaches r.base.stop hblock (Nat.le_refl _)
    have hlast := hlinked.isFragmentOf hfirst
    have hcontains := hseparated.contains_of_meets hall hr hlast ⟨by omega, hle⟩
    exact ⟨last, hlast, hcontains, Nat.le_antisymm hcontains.1.2 hge⟩

end Components

section Align

variable (policy : Policy) (options : CompareOptions) (documents : ThreeSided Document)

/-- The fragments between the base and both sides come in order. -/
theorem ordered_compare :
    Sweep.Ordered ⟨compare policy options documents.base documents.left,
      compare policy options documents.base documents.right⟩ := by
  have hcompare (a b : Document) :
      (compare policy options a b).Pairwise fun f g => f.start₁ ≤ g.start₁ := by
    refine (compareLines_spec policy options a.lines b.lines).1.pairwise.imp ?_
    intro f g hfg
    exact Nat.le_trans f.start₁_le_stop₁ hfg.1
  exact Side.forall_iff.mpr ⟨hcompare _ _, hcompare _ _⟩

/-- The regions found are separated in the base. -/
theorem separated_align : Separated (align policy options documents) :=
  separated_regionsFrom ⟨0, 0⟩ (ordered_compare policy options documents)

variable {policy options documents}

/-- Every region found holds a chain of fragments. -/
theorem holdsChain_of_mem_align {r : Region} (hr : r ∈ align policy options documents) :
    r.HoldsChain ⟨compare policy options documents.base documents.left,
      compare policy options documents.base documents.right⟩ :=
  holdsChain_of_mem_regionsFrom ⟨0, 0⟩ (ordered_compare policy options documents)
    (fun _ _ hf => hf) r hr

/-- Every region found has a line on some side. -/
theorem isEmpty_eq_false_of_mem_align {r : Region} (hr : r ∈ align policy options documents) :
    r.isEmpty = false := by
  obtain ⟨_, side, hnot⟩ := not_run_of_mem_align hr
  by_contra hempty
  rw [Bool.not_eq_false] at hempty
  simp only [Region.isEmpty, LineRange.isEmpty, Bool.and_eq_true, beq_iff_eq] at hempty
  obtain ⟨⟨hleft, hbase⟩, hright⟩ := hempty
  have hside : (r.get side.toThreeSide).start = (r.get side.toThreeSide).stop := by
    cases side with
    | left => exact hleft
    | right => exact hright
  apply hnot
  rw [hbase, hside]
  exact Run.refl _ _ _

end Align

/-- The regions found are the components of the fragments between the base and both sides, and they
tile the three documents. -/
theorem align_tiles (policy : Policy) (options : CompareOptions)
    (documents : ThreeSided Document) :
    IsTiling policy documents
      ⟨compare policy options documents.base documents.left,
        compare policy options documents.base documents.right⟩
      (align policy options documents) := by
  have hcovers := covers_align policy options documents
  have hseparated := separated_align policy options documents
  have hall (x : Side × Fragment) (hx : IsFragmentOf _ x) := hcovers.exists_contains hx
  constructor
  · exact hcovers.agreeOutside hseparated fun r _ => Nat.zero_le _
  · exact fun r hr => (not_run_of_mem_align hr).1
  · exact fun r hr => isEmpty_eq_false_of_mem_align hr
  · intro r hr side
    refine hcovers.isMovedBy [] hseparated (fun f hf => absurd hf List.not_mem_nil) ?_ r hr
    cases side <;> rfl
  · exact fun r hr => (holdsChain_of_mem_align hr).isHull hseparated hall hr
  · intro x hx
    obtain ⟨r, hr, hcontains⟩ := hall x hx
    refine ⟨r, hr, hcontains, ?_⟩
    rintro r' hr' ⟨hle, hge⟩
    have := hcontains.1
    exact hseparated.eq_of_overlap hr hr' (by omega) (by omega)
  · intro x y hx hy
    constructor
    · rintro ⟨r, hr, hrx, hry⟩
      exact (holdsChain_of_mem_align hr).linked hx hy hrx hry
    · intro hlinked
      obtain ⟨r, hr, hrx⟩ := hall x hx
      exact ⟨r, hr, hrx, hseparated.contains_of_linked hall hr hrx hlinked⟩

end Linewise
