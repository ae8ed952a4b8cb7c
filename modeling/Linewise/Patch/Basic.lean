import Linewise.Fragment

/-!
# Patches

A patch lists the fragments between two documents in order. Lines outside the
fragments are matched pairwise, so between fragments both documents run on by
the same number of lines. `Patch.WellFormed` states this, `Patch.matchedPairs`
lists the matched lines, and `Patch.apply` replays the patch.
-/

namespace Linewise

/-- The fragments between two documents. -/
abbrev Patch := List Fragment

namespace Patch

/-- Well-formedness of a patch from line `i` of the first document and line `j` of the second on,
where at least `gap` lines stay unchanged before the first fragment. -/
def WellFormedFrom (i j gap : Nat) : Patch → (n m : Nat) → Prop
  | [], n, m => i ≤ n ∧ j ≤ m ∧ n - i = m - j
  | f :: rest, n, m =>
    i + gap ≤ f.start₁ ∧ j + gap ≤ f.start₂ ∧ f.start₁ - i = f.start₂ - j ∧ 0 < f.cost ∧
      WellFormedFrom f.stop₁ f.stop₂ 1 rest n m

/-- A patch is well formed for documents of `n` and `m` lines if each fragment changes a line,
the unchanged lines before, between and after fragments are as many on both sides, at least one
line stays between two fragments, and all lies within the documents. -/
def WellFormed (p : Patch) (n m : Nat) : Prop := p.WellFormedFrom 0 0 0 n m

/-- Well-formedness from given lines on can be decided. -/
instance decidableWellFormedFrom :
    (p : Patch) → (i j gap n m : Nat) → Decidable (p.WellFormedFrom i j gap n m)
  | [], i, j, _, n, m => inferInstanceAs (Decidable (i ≤ n ∧ j ≤ m ∧ n - i = m - j))
  | f :: rest, i, j, gap, n, m =>
    have := decidableWellFormedFrom rest f.stop₁ f.stop₂ 1 n m
    inferInstanceAs (Decidable (i + gap ≤ f.start₁ ∧ j + gap ≤ f.start₂ ∧
      f.start₁ - i = f.start₂ - j ∧ 0 < f.cost ∧ WellFormedFrom f.stop₁ f.stop₂ 1 rest n m))

/-- Well-formedness can be decided. -/
instance (p : Patch) (n m : Nat) : Decidable (p.WellFormed n m) :=
  inferInstanceAs (Decidable (p.WellFormedFrom 0 0 0 n m))

/-- The pairs `(i, j)`, `(i + 1, j + 1)`, …, `count` of them. -/
def diagonal (i j count : Nat) : List (Nat × Nat) :=
  (List.range count).map fun k => (i + k, j + k)

/-- There are as many pairs as asked for. -/
@[simp] theorem length_diagonal (i j count : Nat) : (diagonal i j count).length = count := by
  simp [diagonal]

/-- The pairs of a diagonal are those at equal distance from its start. -/
theorem mem_diagonal {i j count : Nat} {pair : Nat × Nat} :
    pair ∈ diagonal i j count ↔ ∃ k < count, pair = (i + k, j + k) := by
  unfold diagonal
  rw [List.mem_map]
  constructor
  · rintro ⟨k, hk, rfl⟩
    exact ⟨k, List.mem_range.mp hk, rfl⟩
  · rintro ⟨k, hk, rfl⟩
    exact ⟨k, List.mem_range.mpr hk, rfl⟩

/-- The matched pairs from line `i` of the first document and line `j` of the second on. -/
def matchedFrom (i j : Nat) : Patch → (n m : Nat) → List (Nat × Nat)
  | [], n, m => diagonal i j (min (n - i) (m - j))
  | f :: rest, n, m =>
    diagonal i j (min (f.start₁ - i) (f.start₂ - j)) ++ matchedFrom f.stop₁ f.stop₂ rest n m

/-- The lines of documents of `n` and `m` lines that the patch leaves matched. -/
def matchedPairs (p : Patch) (n m : Nat) : List (Nat × Nat) := p.matchedFrom 0 0 n m

/-- The lines from `start` up to `stop`, or none if they do not all exist. -/
def window {α : Type} (lines : Array α) (start stop : Nat) : List α :=
  if start ≤ stop ∧ stop ≤ lines.size then (lines.extract start stop).toList else []

/-- The replay of a patch from line `i` of the first document on. -/
def applyFrom {α : Type} (i : Nat) (lines₁ lines₂ : Array α) : Patch → List α
  | [] => window lines₁ i lines₁.size
  | f :: rest =>
    window lines₁ i f.start₁ ++ window lines₂ f.start₂ f.stop₂ ++
      applyFrom f.stop₁ lines₁ lines₂ rest

/-- Replays a patch: unchanged lines come from the first document, inserted ones from the
second. -/
def apply {α : Type} (p : Patch) (lines₁ lines₂ : Array α) : List α :=
  p.applyFrom 0 lines₁ lines₂

/-- Number of changed lines, on both sides together. -/
def cost (p : Patch) : Nat := p.foldr (fun f rest => f.cost + rest) 0

/-- The same changes seen from the second document. -/
def swap (p : Patch) : Patch := p.map Fragment.swap

/-- The patch with all fragments moved down by `delta₁` and `delta₂` lines. -/
def offset (p : Patch) (delta₁ delta₂ : Nat) : Patch := p.map (·.offset delta₁ delta₂)

end Patch

end Linewise
