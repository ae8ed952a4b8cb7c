import Linewise.Proofs.Patch.Aligned

/-!
# How much a patch adds

A fragment adds as many lines as it inserts more than it deletes. Between two matched
lines the documents are shifted against each other by what the fragments before them
add, `Patch.growthBefore`.
-/

namespace Linewise

/-- Number of lines that a fragment adds, negative if it removes more. -/
def Fragment.growth (f : Fragment) : Int := (f.inserted.size : Int) - f.deleted.size

/-- What a fragment adds by its four bounds. -/
theorem Fragment.growth_eq (f : Fragment) :
    f.growth = ((f.stop₂ : Int) - f.start₂) - ((f.stop₁ : Int) - f.start₁) := by
  have := f.start₁_le_stop₁
  have := f.start₂_le_stop₂
  have hinserted : f.inserted.size = f.stop₂ - f.start₂ := rfl
  have hdeleted : f.deleted.size = f.stop₁ - f.start₁ := rfl
  rw [growth]
  omega

namespace Patch

variable {R : Nat → Nat → Prop} {i j n m line : Nat} {p q : Patch}

/-- Number of lines that the fragments of a patch add, negative if they remove more. -/
def growth (p : Patch) : Int := p.foldr (fun f rest => f.growth + rest) 0

/-- Number of lines that the fragments add which end before a line of the first document. -/
def growthBefore (p : Patch) (line : Nat) : Int := growth (p.filter fun f => f.stop₁ < line)

/-- An empty patch adds nothing. -/
@[simp] theorem growth_nil : growth [] = 0 := rfl

/-- The first fragment adds to what the others add. -/
@[simp] theorem growth_cons (f : Fragment) (p : Patch) :
    growth (f :: p) = f.growth + growth p := rfl

/-- Two patches, one after the other, add what each of them adds. -/
theorem growth_append (p q : Patch) : growth (p ++ q) = growth p + growth q := by
  induction p with
  | nil => simp
  | cons f rest ih => rw [List.cons_append, growth_cons, growth_cons, ih, Int.add_assoc]

/-- The fragments of an aligned patch add what the second document has more than the first. -/
theorem Aligned.growth_eq (h : p.Aligned R i j n m) :
    p.growth = ((m : Int) - j) - ((n : Int) - i) := by
  induction p generalizing i j with
  | nil =>
    have := Run.le₁ h
    have := Run.le₂ h
    have := Run.same_length h
    rw [growth_nil]
    omega
  | cons f rest ih =>
    obtain ⟨hrun, _, hrest⟩ := h
    have := hrun.le₁
    have := hrun.le₂
    have := hrun.same_length
    rw [growth_cons, ih hrest, f.growth_eq]
    omega

/-- If only the fragments of the first part end before a line, they alone add to the lines before
it. -/
theorem growthBefore_append (hp : ∀ f ∈ p, f.stop₁ < line) (hq : ∀ f ∈ q, line ≤ f.stop₁) :
    growthBefore (p ++ q) line = p.growth := by
  have hfirst : p.filter (fun f => f.stop₁ < line) = p :=
    List.filter_eq_self.mpr fun f hf => decide_eq_true (hp f hf)
  have hsecond : q.filter (fun f => f.stop₁ < line) = [] :=
    List.filter_eq_nil_iff.mpr fun f hf => by simpa using hq f hf
  rw [growthBefore, List.filter_append, hfirst, hsecond, List.append_nil]

/-- Before a range in the first document only the fragments that end above it have added lines, and
behind it also those that end in it or at one of its bounds. -/
theorem growthBefore_around {before taken later : Patch} {r : LineRange}
    (hbefore : ∀ f ∈ before, f.stop₁ < r.start)
    (htaken : ∀ f ∈ taken, r.start ≤ f.stop₁ ∧ f.stop₁ ≤ r.stop)
    (hlater : ∀ f ∈ later, r.stop < f.stop₁) :
    growthBefore (before ++ (taken ++ later)) r.start = before.growth ∧
      growthBefore (before ++ (taken ++ later)) (r.stop + 1) = before.growth + taken.growth := by
  have hblock := r.start_le_stop
  constructor
  · refine growthBefore_append hbefore (List.forall_mem_append.mpr ⟨?_, ?_⟩)
    · exact fun f hf => (htaken f hf).1
    · exact fun f hf => Nat.le_trans hblock (Nat.le_of_lt (hlater f hf))
  · rw [← List.append_assoc, ← growth_append]
    refine growthBefore_append (List.forall_mem_append.mpr ⟨?_, ?_⟩) hlater
    · exact fun f hf => Nat.lt_of_lt_of_le (hbefore f hf) (Nat.le_succ_of_le hblock)
    · exact fun f hf => Nat.lt_succ_of_le (htaken f hf).2

end Patch

end Linewise
