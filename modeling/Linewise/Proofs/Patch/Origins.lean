import Linewise.Proofs.Patch.Matching
import Linewise.Proofs.Patch.Replay

/-!
# Where the lines of a replay come from

A patch changes some lines and leaves the others matched, each line once. Replaying the
patch puts a line of the first document where its partner stands in the second, and a
line of the second document everywhere else. All this is known from the bounds of the
fragments alone, whatever the lines are.
-/

namespace Linewise

/-- The numbers of the lines in a range. -/
def LineRange.indices (r : LineRange) : List Nat := List.range' r.start r.size

namespace Patch

variable {α : Type} {R : Nat → Nat → Prop} {lines₁ lines₂ : Array α} {i j k n m : Nat} {p : Patch}
  {f : Fragment} {x : Nat × Nat}

/-- The numbers of the lines that the fragments delete. -/
def deletedIndices (p : Patch) : List Nat := p.flatMap fun f => f.deleted.indices

/-- The numbers of the lines that the fragments insert. -/
def insertedIndices (p : Patch) : List Nat := p.flatMap fun f => f.inserted.indices

/-! ## Every line once -/

/-- Numbers up to `s` and from there on are the numbers from `i` on. -/
theorem range'_append_range' {s t : Nat} (his : i ≤ s) (hst : s ≤ t) :
    List.range' i (s - i) ++ List.range' s (t - s) = List.range' i (t - i) := by
  have hcut := List.range'_append_1 (s := i) (m := s - i) (n := t - s)
  rwa [Nat.add_sub_cancel' his, show s - i + (t - s) = t - i by omega] at hcut

/-- The first lines of a diagonal. -/
theorem map_fst_diagonal (i j count : Nat) :
    (diagonal i j count).map Prod.fst = List.range' i count := by
  rw [List.range'_eq_map_range, diagonal, List.map_map]
  rfl

/-- The matched pairs of a swapped patch are the swapped pairs. -/
theorem matchedFrom_swap (p : Patch) (i j n m : Nat) :
    p.swap.matchedFrom j i m n = (p.matchedFrom i j n m).map Prod.swap := by
  have hdiagonal (i j count : Nat) :
      diagonal j i count = (diagonal i j count).map Prod.swap := by
    rw [diagonal, diagonal, List.map_map]
    rfl
  induction p generalizing i j with
  | nil =>
    rw [swap, List.map_nil, matchedFrom, matchedFrom, Nat.min_comm]
    exact hdiagonal _ _ _
  | cons f rest ih =>
    have hrest := ih f.stop₁ f.stop₂
    rw [matchedFrom, List.map_append, ← hdiagonal, ← hrest, Nat.min_comm]
    rfl

/-- The lines that an aligned patch deletes and the first lines of its matched pairs are together
all lines of the first document, each once. -/
theorem Aligned.perm_deleted (h : p.Aligned R i j n m) :
    (p.deletedIndices ++ (p.matchedFrom i j n m).map Prod.fst).Perm
      (List.range' i (n - i)) := by
  induction p generalizing i j with
  | nil =>
    have := Run.same_length h
    rw [matchedFrom, map_fst_diagonal, show min (n - i) (m - j) = n - i by omega]
    exact .refl _
  | cons f rest ih =>
    obtain ⟨hrun, _, hrest⟩ := h
    have := hrun.same_length
    have hblock := f.start₁_le_stop₁
    have hdeleted : deletedIndices (f :: rest) = f.deleted.indices ++ deletedIndices rest :=
      List.flatMap_cons
    rw [hdeleted, matchedFrom, List.map_append, map_fst_diagonal,
      show min (f.start₁ - i) (f.start₂ - j) = f.start₁ - i by omega,
      ← range'_append_range' hrun.le₁ (Nat.le_trans hblock hrest.le.1),
      ← range'_append_range' hblock hrest.le.1]
    -- The run before the fragment comes after what the patch deletes.
    refine (List.perm_append_comm_assoc _ _ _).trans ?_
    rw [List.append_assoc]
    exact ((ih hrest).append_left _).append_left _

/-- The lines that an aligned patch inserts and the second lines of its matched pairs are together
all lines of the second document, each once. -/
theorem Aligned.perm_inserted (h : p.Aligned R i j n m) :
    (p.insertedIndices ++ (p.matchedFrom i j n m).map Prod.snd).Perm
      (List.range' j (m - j)) := by
  have hswapped := h.swap.perm_deleted
  rw [matchedFrom_swap, List.map_map, deletedIndices, Patch.swap, List.flatMap_map] at hswapped
  exact hswapped

/-! ## Replaying -/

/-- A window has as many lines as its bounds say. -/
theorem length_window {start stop : Nat} (hle : start ≤ stop) (hstop : stop ≤ lines₁.size) :
    (window lines₁ start stop).length = stop - start := by
  simp only [window_eq hle hstop, List.length_take, List.length_drop, Array.length_toList]
  omega

/-- The lines of a window are those from its start on. -/
theorem getElem?_window {start stop : Nat} (hstop : stop ≤ lines₁.size) (hk : k < stop - start) :
    (window lines₁ start stop)[k]? = lines₁[start + k]? := by
  rw [window_eq (by omega) hstop, List.getElem?_take_of_lt hk, List.getElem?_drop,
    Array.getElem?_toList]

/-- A replay begins with the lines before the first fragment, which come from the first document,
and those that the fragment inserts. -/
theorem Aligned.getElem?_applyFrom_cons (h : Aligned R i j (f :: p) lines₁.size lines₂.size)
    (k : Nat) :
    (applyFrom i lines₁ lines₂ (f :: p))[k]? =
      if k < f.start₂ - j then lines₁[i + k]?
      else if k < f.stop₂ - j then lines₂[j + k]?
      else (applyFrom f.stop₁ lines₁ lines₂ p)[k - (f.stop₂ - j)]? := by
  obtain ⟨_, _, hend₁, hend₂⟩ := h.bounds List.mem_cons_self
  have hblock₁ := f.start₁_le_stop₁
  have hblock₂ := f.start₂_le_stop₂
  obtain ⟨hrun, _, _⟩ := h
  have hle₂ := hrun.le₂
  have hsame := hrun.same_length
  have hfirst := length_window hrun.le₁ (Nat.le_trans hblock₁ hend₁)
  have hsecond := length_window hblock₂ hend₂
  rw [applyFrom, List.append_assoc]
  by_cases hbefore : k < f.start₂ - j
  · rw [if_pos hbefore, List.getElem?_append_left (by omega),
      getElem?_window (Nat.le_trans hblock₁ hend₁) (by omega)]
  rw [if_neg hbefore, List.getElem?_append_right (by omega), hfirst, hsame]
  by_cases hinside : k < f.stop₂ - j
  · rw [if_pos hinside, List.getElem?_append_left (by omega), getElem?_window hend₂ (by omega),
      show f.start₂ + (k - (f.start₂ - j)) = j + k by omega]
  · rw [if_neg hinside, List.getElem?_append_right (by omega), hsecond,
      show k - (f.start₂ - j) - (f.stop₂ - f.start₂) = k - (f.stop₂ - j) by omega]

/-- In the replay of an aligned patch the second line of a matched pair gives way to the first. -/
theorem Aligned.getElem?_applyFrom_of_mem (h : p.Aligned R i j lines₁.size lines₂.size)
    (hx : x ∈ p.matchedFrom i j lines₁.size lines₂.size) :
    (p.applyFrom i lines₁ lines₂)[x.2 - j]? = lines₁[x.1]? := by
  induction p generalizing i j with
  | nil =>
    obtain ⟨t, ht, rfl⟩ := mem_diagonal.mp hx
    have hline := getElem?_window (Nat.le_refl lines₁.size) (show t < lines₁.size - i by omega)
    rwa [applyFrom, Nat.add_sub_cancel_left]
  | cons f rest ih =>
    rw [h.getElem?_applyFrom_cons]
    obtain ⟨hrun, _, hrest⟩ := h
    have := hrun.le₂
    have := f.start₂_le_stop₂
    rcases List.mem_append.mp hx with hx | hx
    · obtain ⟨t, ht, rfl⟩ := mem_diagonal.mp hx
      simp only
      rw [Nat.add_sub_cancel_left, if_pos (by omega)]
    · have hbounds := hrest.bounds_of_mem_matchedFrom hx
      rw [if_neg (by omega), if_neg (by omega), ← ih hrest hx,
        show x.2 - j - (f.stop₂ - j) = x.2 - f.stop₂ by omega]

/-- In the replay of an aligned patch every line that is in no matched pair comes from the second
document. -/
theorem Aligned.getElem?_applyFrom_of_notMem (h : p.Aligned R i j lines₁.size lines₂.size)
    (hj : j ≤ k) (hk : k < lines₂.size)
    (hnone : ∀ x ∈ p.matchedFrom i j lines₁.size lines₂.size, x.2 ≠ k) :
    (p.applyFrom i lines₁ lines₂)[k - j]? = lines₂[k]? := by
  induction p generalizing i j with
  | nil =>
    have := Run.same_length h
    have hpair := hnone _ (mem_diagonal.mpr ⟨k - j, by omega, rfl⟩)
    exact absurd (Nat.add_sub_cancel' hj) hpair
  | cons f rest ih =>
    rw [h.getElem?_applyFrom_cons]
    obtain ⟨hrun, _, hrest⟩ := h
    have := hrun.le₂
    have := hrun.same_length
    have := f.start₂_le_stop₂
    have hbefore : ¬k - j < f.start₂ - j := by
      intro hlt
      have hpair := hnone _ (List.mem_append_left _ (mem_diagonal.mpr ⟨k - j, by omega, rfl⟩))
      exact hpair (Nat.add_sub_cancel' hj)
    rw [if_neg hbefore]
    by_cases hinside : k - j < f.stop₂ - j
    · rw [if_pos hinside, Nat.add_sub_cancel' hj]
    · rw [if_neg hinside, ← ih hrest (by omega) fun x hx => hnone x (List.mem_append_right _ hx),
        show k - j - (f.stop₂ - j) = k - f.stop₂ by omega]

/-- Matching and replaying describe one alignment. The matched pairs of a well-formed patch increase
on both sides, and with the lines of the fragments they make up all lines of both documents, each
once. A replay has as many lines as the second document: it holds the first line of every matched
pair at the place of the second, and the second document's own line everywhere else. -/
theorem apply_follows_matchedPairs (hp : p.WellFormed lines₁.size lines₂.size) :
    Increasing (p.matchedPairs lines₁.size lines₂.size) ∧
      (p.deletedIndices ++
        (p.matchedPairs lines₁.size lines₂.size).map Prod.fst).Perm (List.range lines₁.size) ∧
      (p.insertedIndices ++
        (p.matchedPairs lines₁.size lines₂.size).map Prod.snd).Perm (List.range lines₂.size) ∧
      (p.apply lines₁ lines₂).length = lines₂.size ∧
      (∀ x ∈ p.matchedPairs lines₁.size lines₂.size,
        (p.apply lines₁ lines₂)[x.2]? = lines₁[x.1]?) ∧
      ∀ k < lines₂.size, (∀ x ∈ p.matchedPairs lines₁.size lines₂.size, x.2 ≠ k) →
        (p.apply lines₁ lines₂)[k]? = lines₂[k]? := by
  have haligned := (wellFormed_iff.mp hp).1
  refine ⟨haligned.increasing_matchedFrom, ?_, ?_, ?_, ?_, ?_⟩
  · rw [List.range_eq_range']
    exact haligned.perm_deleted
  · rw [List.range_eq_range']
    exact haligned.perm_inserted
  · have hall := haligned.forall₂_apply (S := fun _ _ : α => True) (fun _ => trivial)
      fun _ _ _ _ _ => trivial
    rw [hall.length_eq, Array.length_toList]
  · intro x hx
    exact haligned.getElem?_applyFrom_of_mem hx
  · intro k hk hnone
    exact haligned.getElem?_applyFrom_of_notMem (Nat.zero_le k) hk hnone

/-- A replacement, a deletion and an insertion at the end, between lines that are matched though
they are not the same. -/
theorem apply_follows_matchedPairs_indented :
    let lines₁ := #["a", "  b", "c", "d"]
    let lines₂ := #["x", "y", "b", "D", "e"]
    let p : Patch := [⟨.span 0 1, .span 0 2⟩, ⟨.span 2 3, .emptyAt 3⟩, ⟨.emptyAt 4, .span 4 5⟩]
    p.WellFormed lines₁.size lines₂.size ∧
      p.matchedPairs lines₁.size lines₂.size = [(1, 2), (3, 3)] ∧
      (p.deletedIndices ++ [1, 3]).Perm (List.range 4) ∧
      (p.insertedIndices ++ [2, 3]).Perm (List.range 5) ∧
      (p.apply lines₁ lines₂)[2]? = some "  b" ∧ (p.apply lines₁ lines₂)[4]? = some "e" := by
  intro lines₁ lines₂ p
  have hp : p.WellFormed lines₁.size lines₂.size := by decide
  have hpairs : p.matchedPairs lines₁.size lines₂.size = [(1, 2), (3, 3)] := by decide
  obtain ⟨_, hdeleted, hinserted, _, hmatched, hother⟩ := apply_follows_matchedPairs hp
  rw [hpairs] at hdeleted hinserted hmatched hother
  exact ⟨hp, hpairs, hdeleted, hinserted, hmatched (1, 2) (by decide),
    hother 4 (by decide) (by decide)⟩

end Patch

end Linewise
