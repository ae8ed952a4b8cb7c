import Linewise.Comparison
import Linewise.Proofs.Key
import Linewise.Proofs.Patch.Replay
import Linewise.Proofs.Patch.Slide
import Linewise.Proofs.Patch.Tidy
import Linewise.Proofs.Script.Anchored

/-!
# What a comparison promises

The first patch of a comparison is aligned and tight in the equality of line keys,
and all later stages keep that. So the patch is well formed, leaves only lines
matched that are equal under the policy, can be replayed in both directions, and
never reports an unchanged stretch as changed.
-/

namespace Linewise

/-- Line `i` on the left and line `j` on the right exist and are equal under the policy. -/
def LinesAgree (policy : Policy) (lines : TwoSided (Array String)) (i j : Nat) : Prop :=
  ∃ x y, lines.left[i]? = some x ∧ lines.right[j]? = some y ∧ policy.linesEqual x y = true

/-- Every line equals itself under every policy. -/
theorem Policy.linesEqual_refl (policy : Policy) (line : String) :
    policy.linesEqual line line = true := Policy.linesEqual_iff.mpr rfl

/-- The order of lines does not matter. -/
theorem Policy.linesEqual_symm {policy : Policy} {a b : String}
    (h : policy.linesEqual a b = true) : policy.linesEqual b a = true :=
  Policy.linesEqual_iff.mpr (Policy.linesEqual_iff.mp h).symm

/-- Lines that are the same agree under every policy. -/
theorem LinesAgree.of_agree {policy : Policy} {lines : TwoSided (Array String)} {i j : Nat}
    (h : Agree lines i j) : LinesAgree policy lines i j := by
  obtain ⟨x, hleft, hright⟩ := h
  exact ⟨x, x, hleft, hright, policy.linesEqual_refl x⟩

namespace Line

/-- Blanks dropped from the front were not visible. -/
theorem visible_dropWhile (chars : List Char) :
    visible (chars.dropWhile Char.isWhitespace) = visible chars := by
  induction chars with
  | nil => rfl
  | cons c rest ih =>
    by_cases hblank : c.isWhitespace = true
    · rw [List.dropWhile_cons_of_pos hblank, ih]
      simp [visible, hblank]
    · rw [List.dropWhile_cons_of_neg hblank]

/-- Blanks dropped at both ends were not visible. -/
theorem visible_strip (chars : List Char) :
    visible (strip Char.isWhitespace chars) = visible chars := by
  have hreverse (chars : List Char) : visible chars.reverse = (visible chars).reverse :=
    List.filter_reverse
  rw [strip, hreverse, visible_dropWhile, hreverse, visible_dropWhile, List.reverse_reverse]

/-- What counts of a line under a policy has all its visible characters. -/
theorem visibleCount_lineKey (policy : Policy) (line : String) :
    visibleCount (policy.lineKey line) = visibleCount line := by
  cases policy with
  | exact => rfl
  | trim => simp only [Policy.lineKey, visibleCount, trimmed, String.toList_ofList, visible_strip]
  | ignoreWhitespace =>
    simp only [Policy.lineKey, visibleCount, squeezed, String.toList_ofList]
    rw [visible, visible, List.filter_filter]
    simp only [Bool.and_self]

end Line

section Compare

variable (policy : Policy) (options : CompareOptions) (lines₁ lines₂ : Array String)

/-- The patch before its fragments are moved and tidied is aligned and tight in the equality of
keys. -/
theorem raw_spec (keys : Array Nat × Array Nat) (hkeys : keys = internLines policy lines₁ lines₂) :
    let raw := if options.anchored then
        Script.anchoredPatch options.threshold lines₁ lines₂ keys.1 keys.2
      else Script.shortestPatch keys.1 keys.2
    raw.Aligned (Agree ⟨keys.1, keys.2⟩) 0 0 keys.1.size keys.2.size ∧
      raw.Tight (Agree ⟨keys.1, keys.2⟩) := by
  obtain ⟨hsize₁, hsize₂⟩ := size_internLines policy lines₁ lines₂
  rw [← hkeys] at hsize₁ hsize₂
  intro raw
  by_cases hanchored : options.anchored = true
  · simp only [raw, if_pos hanchored]
    refine ⟨Script.aligned_anchoredPatch _ hsize₁ hsize₂,
      Script.tight_anchoredPatch _ hsize₁ hsize₂ ?_⟩
    intro i j hagree
    rw [hkeys, agree_internLines] at hagree
    obtain ⟨x, y, hx, hy, hequal⟩ := hagree
    rw [hx, hy, Option.map_some, Option.map_some, ← Line.visibleCount_lineKey policy x,
      Policy.linesEqual_iff.mp hequal, Line.visibleCount_lineKey]
  · simp only [raw, if_neg hanchored]
    exact ⟨Script.aligned_shortestPatch _ _, Script.tight_shortestPatch _ _⟩

/-- The patch of a comparison before it is tidied. -/
def settledPatch : Patch :=
  let keys := internLines policy lines₁ lines₂
  let raw :=
    if options.anchored then Script.anchoredPatch options.threshold lines₁ lines₂ keys.1 keys.2
    else Script.shortestPatch keys.1 keys.2
  raw.settle ⟨keys.1, keys.2⟩ ⟨lines₁, lines₂⟩

/-- A comparison tidies this patch. -/
theorem compareLines_eq_tidy : compareLines policy options lines₁ lines₂ =
    (settledPatch policy options lines₁ lines₂).tidy options.threshold ⟨lines₁, lines₂⟩ := rfl

/-- Before it is tidied, the patch of a comparison is aligned in the equality of lines under the
policy, no two of its fragments touch, and it is tight. -/
theorem settledPatch_spec :
    (settledPatch policy options lines₁ lines₂).Aligned (LinesAgree policy ⟨lines₁, lines₂⟩) 0 0
        lines₁.size lines₂.size ∧
      (settledPatch policy options lines₁ lines₂).Apart ∧
      (settledPatch policy options lines₁ lines₂).Tight (LinesAgree policy ⟨lines₁, lines₂⟩) := by
  obtain ⟨keys, hkeys⟩ : ∃ keys, keys = internLines policy lines₁ lines₂ := ⟨_, rfl⟩
  obtain ⟨hsize₁, hsize₂⟩ := size_internLines policy lines₁ lines₂
  obtain ⟨haligned, htight⟩ := raw_spec policy options lines₁ lines₂ keys hkeys
  have hsettled := Patch.Aligned.settle ⟨lines₁, lines₂⟩ haligned
  have htightSettled := Patch.Tight.settle ⟨lines₁, lines₂⟩ haligned htight
  have hagree : Agree ⟨keys.1, keys.2⟩ = LinesAgree policy ⟨lines₁, lines₂⟩ := by
    funext i j
    rw [hkeys]
    exact propext agree_internLines
  rw [hagree] at hsettled htightSettled
  rw [← hkeys] at hsize₁ hsize₂
  simp only [hsize₁, hsize₂] at hsettled
  unfold settledPatch
  simp only [← hkeys]
  exact ⟨hsettled.1, hsettled.2, htightSettled⟩

/-- The patch of a comparison is aligned in the equality of lines under the policy, well formed, and
tight. -/
theorem compareLines_spec :
    (compareLines policy options lines₁ lines₂).Aligned (LinesAgree policy ⟨lines₁, lines₂⟩) 0 0
        lines₁.size lines₂.size ∧
      (compareLines policy options lines₁ lines₂).WellFormed lines₁.size lines₂.size ∧
      (compareLines policy options lines₁ lines₂).Tight (LinesAgree policy ⟨lines₁, lines₂⟩) := by
  obtain ⟨haligned, hapart, htight⟩ := settledPatch_spec policy options lines₁ lines₂
  obtain ⟨htidied, hwellFormed⟩ := haligned.tidy options.threshold
    (fun _ _ => LinesAgree.of_agree) (Nat.le_refl _) hapart
  rw [compareLines_eq_tidy]
  exact ⟨htidied, hwellFormed, htight.tidy options.threshold (fun _ _ => LinesAgree.of_agree)
    (Nat.le_refl _) haligned hapart⟩

/-- Replaying the patch on the first lines gives the second ones, as far as the policy can tell. -/
theorem forall₂_apply_compareLines :
    List.Forall₂ (fun x y => policy.linesEqual x y = true)
      ((compareLines policy options lines₁ lines₂).apply lines₁ lines₂) lines₂.toList := by
  refine (compareLines_spec policy options lines₁ lines₂).1.forall₂_apply policy.linesEqual_refl
    ?_
  rintro i j hi hj ⟨x, y, hx, hy, hequal⟩
  rw [Array.getElem?_eq_getElem hi, Option.some.injEq] at hx
  rw [Array.getElem?_eq_getElem hj, Option.some.injEq] at hy
  rwa [hx, hy]

/-- Replaying the patch backwards on the second lines gives the first ones, as far as the policy can
tell. -/
theorem forall₂_apply_swap_compareLines :
    List.Forall₂ (fun x y => policy.linesEqual x y = true)
      ((compareLines policy options lines₁ lines₂).swap.apply lines₂ lines₁) lines₁.toList := by
  refine (compareLines_spec policy options lines₁ lines₂).1.swap.forall₂_apply
    policy.linesEqual_refl ?_
  rintro j i hj hi ⟨x, y, hx, hy, hequal⟩
  rw [Array.getElem?_eq_getElem hi, Option.some.injEq] at hx
  rw [Array.getElem?_eq_getElem hj, Option.some.injEq] at hy
  rw [hx, hy]
  exact Policy.linesEqual_symm hequal

end Compare

/-- Lines that are equal one by one when every character counts are the same lines. -/
theorem eq_of_forall₂_exact {xs ys : List String}
    (h : List.Forall₂ (fun x y => Policy.exact.linesEqual x y = true) xs ys) : xs = ys := by
  rw [← List.forall₂_eq_eq_eq]
  exact h.imp fun _ _ hequal => Policy.linesEqual_iff.mp hequal

/-- A comparison gives a well-formed patch whose matched lines are equal under the policy. Replayed
on the first document it gives the second and, with its sides swapped, on the second the first: line
by line under the policy, and literally if every character counts. -/
theorem compare_replays (policy : Policy) (options : CompareOptions) (a b : Document) :
    (compare policy options a b).WellFormed a.lines.size b.lines.size ∧
      (∀ pair ∈ (compare policy options a b).matchedPairs a.lines.size b.lines.size,
        ∃ x y, a.lines[pair.1]? = some x ∧ b.lines[pair.2]? = some y ∧
          policy.linesEqual x y = true) ∧
      List.Forall₂ (fun x y => policy.linesEqual x y = true)
        ((compare policy options a b).apply a.lines b.lines) b.lines.toList ∧
      List.Forall₂ (fun x y => policy.linesEqual x y = true)
        ((compare policy options a b).swap.apply b.lines a.lines) a.lines.toList ∧
      (compare .exact options a b).apply a.lines b.lines = b.lines.toList ∧
      (compare .exact options a b).swap.apply b.lines a.lines = a.lines.toList := by
  obtain ⟨haligned, hwellFormed, _⟩ := compareLines_spec policy options a.lines b.lines
  exact ⟨hwellFormed, fun _ hpair => haligned.rel_of_mem_matchedFrom hpair,
    forall₂_apply_compareLines policy options a.lines b.lines,
    forall₂_apply_swap_compareLines policy options a.lines b.lines,
    eq_of_forall₂_exact (forall₂_apply_compareLines .exact options a.lines b.lines),
    eq_of_forall₂_exact (forall₂_apply_swap_compareLines .exact options a.lines b.lines)⟩

end Linewise
