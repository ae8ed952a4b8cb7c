import Linewise.Proofs.Comparison
import Linewise.Proofs.Text.Equality
import Linewise.Proofs.ThreeWay.Classification

/-!
# Policies by strictness

The three policies drop more and more of a line: nothing, the blanks at its ends, all
blanks. What is equal under a policy is equal under every looser one, whether lines,
texts or contents are compared. A judgement depends on the policy only where both sides
changed, so a looser policy leaves every judgement as it is, except that it may find
both sides of a conflict alike.
-/

namespace Linewise

namespace Line

/-- Trimming drops no visible character. -/
theorem visible_trimmed (line : String) :
    visible (trimmed line).toList = visible line.toList := by
  rw [trimmed, String.toList_ofList, visible_strip]

/-- The visible characters of a text are those of its lines, in order. -/
theorem visible_eq_flatMap (text : String) :
    visible text.toList = (splitLines text).flatMap fun line => visible line.toList := by
  rw [← visible_joinLines, joinLines_splitLines]

end Line

namespace Policy

variable {p q : Policy}

/-- Place of a policy among all of them, the strictest first. -/
def looseness (p : Policy) : Nat := all.idxOf p

/-- A policy comes before the looser ones. -/
instance : LE Policy := ⟨fun p q => p.looseness ≤ q.looseness⟩

/-- Which of two policies is looser can be decided. -/
instance (p q : Policy) : Decidable (p ≤ q) :=
  inferInstanceAs (Decidable (p.looseness ≤ q.looseness))

/-- Every text equals itself under every policy. -/
theorem textsEqual_refl (p : Policy) (text : String) : p.textsEqual text text = true := by
  cases p <;> simp only [textsEqual, beq_self_eq_true]

/-- Texts whose lines are equal when trimmed are equal when no blank counts. -/
theorem squeezed_eq_of_map_trimmed {a b : String}
    (h : (splitLines a).map Line.trimmed = (splitLines b).map Line.trimmed) :
    Line.squeezed a = Line.squeezed b := by
  have hvisible (text : String) : Line.visible text.toList =
      ((splitLines text).map Line.trimmed).flatMap fun line => Line.visible line.toList := by
    rw [Line.visible_eq_flatMap, List.flatMap_map]
    simp only [Line.visible_trimmed]
  rw [Line.squeezed, Line.squeezed, hvisible a, hvisible b, h]

/-- A looser policy is the same one, or one of two comes before it. -/
theorem eq_or_of_le (hpq : p ≤ q) : p = q ∨ p = .exact ∨ p = .trim ∧ q = .ignoreWhitespace := by
  revert hpq
  cases p <;> cases q <;> decide

/-- Texts that are equal under a policy are equal under every looser one. -/
theorem textsEqual_mono (hpq : p ≤ q) {a b : String} (h : p.textsEqual a b = true) :
    q.textsEqual a b = true := by
  rcases eq_or_of_le hpq with rfl | rfl | ⟨rfl, rfl⟩
  · exact h
  · obtain rfl : a = b := beq_iff_eq.mp h
    exact q.textsEqual_refl a
  · exact beq_iff_eq.mpr (squeezed_eq_of_map_trimmed (beq_iff_eq.mp h))

/-- Lines that are equal under a policy are equal under every looser one. -/
theorem linesEqual_mono (hpq : p ≤ q) {a b : String} (h : p.linesEqual a b = true) :
    q.linesEqual a b = true := by
  rcases eq_or_of_le hpq with rfl | rfl | ⟨rfl, rfl⟩
  · exact h
  · obtain rfl : a = b := linesEqual_iff.mp h
    exact q.linesEqual_refl a
  · have htrimmed : Line.trimmed a = Line.trimmed b := linesEqual_iff.mp h
    rw [linesEqual_iff, lineKey, lineKey, Line.squeezed, Line.squeezed, ← Line.visible_trimmed a,
      htrimmed, Line.visible_trimmed b]

/-- Contents that are equal under a policy are equal under every looser one. -/
theorem contentEqual_mono (hpq : p ≤ q) {a b : Option String} (h : p.contentEqual a b = true) :
    q.contentEqual a b = true := by
  cases a with
  | none =>
    cases b with
    | none => rfl
    | some b => exact Bool.noConfusion h
  | some a =>
    cases b with
    | none => exact Bool.noConfusion h
    | some b => exact textsEqual_mono hpq h

end Policy

namespace Classification

variable {p q : Policy}

/-- Equal contents are equal texts, if no content is read as an empty text. -/
theorem textsEqual_getD {a b : Option String} (h : p.contentEqual a b = true) :
    p.textsEqual (a.getD "") (b.getD "") = true := by
  cases a with
  | none =>
    cases b with
    | none => exact p.textsEqual_refl ""
    | some b => exact Bool.noConfusion h
  | some a =>
    cases b with
    | none => exact Bool.noConfusion h
    | some b => exact h

/-- Sides that hold the same under a policy hold the same under every looser one. -/
theorem sidesEqual_mono (hpq : p ≤ q) {left right : Option String}
    (h : sidesEqual p left right = true) : sidesEqual q left right = true := by
  rcases Policy.eq_or_of_le hpq with rfl | hp
  · exact h
  have hexact : p ≠ .ignoreWhitespace := by
    rcases hp with rfl | ⟨rfl, _⟩ <;> decide
  rw [sidesEqual, if_neg hexact] at h
  have hcontent := Policy.contentEqual_mono hpq h
  rw [sidesEqual]
  split
  · exact textsEqual_getD hcontent
  · exact hcontent

/-- What may become of an outcome under a looser policy: it stays, or a conflict becomes a change
that both sides made alike. -/
inductive Loosens : Except InputError Classification → Except InputError Classification → Prop
  | same (outcome : Except InputError Classification) : Loosens outcome outcome
  | resolved {kind : RegionKind} (hkind : kind ≠ .conflict) :
      Loosens (.ok (both .conflict)) (.ok (both kind))

/-- A change that both sides made is judged alike under a looser policy, or no longer a conflict. -/
theorem loosens_ofBoth (hpq : p ≤ q) {alike : RegionKind} (halike : alike ≠ .conflict)
    (left right : Option String) :
    Loosens (.ok (ofBoth p alike left right)) (.ok (ofBoth q alike left right)) := by
  unfold ofBoth
  by_cases hp : sidesEqual p left right = true
  · rw [if_pos hp, if_pos (sidesEqual_mono hpq hp)]
    exact .same _
  · rw [if_neg hp]
    by_cases hq : sidesEqual q left right = true
    · rw [if_pos hq]
      exact .resolved halike
    · rw [if_neg hq]
      exact .same _

/-- Contents are judged alike under a looser policy, apart from conflicts that it resolves. -/
theorem loosens_ofContents (hpq : p ≤ q) (c : ThreeSided (Option String)) :
    Loosens (ofContents p c) (ofContents q c) := by
  unfold ofContents
  dsimp only
  -- The policy matters only where both sides changed.
  split
  · split
    · exact .same _
    split
    · exact .same _
    exact loosens_ofBoth hpq (by decide) _ _
  · split
    · exact .same _
    split
    · exact .same _
    split
    · exact .same _
    exact loosens_ofBoth hpq (by decide) _ _

/-- What is a conflict under a looser policy was one before. -/
theorem Loosens.eq_of_isConflict {before after : Except InputError Classification}
    (h : Loosens before after) {k : Classification} (hafter : after = .ok k)
    (hconflict : k.isConflict = true) : before = .ok k := by
  cases h with
  | same => exact hafter
  | resolved hkind =>
    obtain rfl := Except.ok.inj hafter
    exact absurd (beq_iff_eq.mp hconflict) hkind

end Classification

/-- Under a looser policy a region is refused for the same cause or judged alike, apart from
conflicts that it resolves. -/
theorem loosens_classify {p q : Policy} (hpq : p ≤ q) (documents : ThreeSided Document)
    (region : Region) :
    Classification.Loosens (classify p documents region) (classify q documents region) := by
  unfold classify
  cases region.contents documents with
  | error error => exact .same _
  | ok contents => exact Classification.loosens_ofContents hpq contents

/-- What is equal under a policy is equal under every looser one: texts, lines, and contents that
may be absent. A region of any documents is refused for the same cause, or judged alike, except that
a conflict may become a change that both sides made; no other judgement becomes a conflict. -/
theorem policies_ordered {p q : Policy} (hpq : p ≤ q) :
    (∀ a b, p.textsEqual a b = true → q.textsEqual a b = true) ∧
      (∀ a b, p.linesEqual a b = true → q.linesEqual a b = true) ∧
      (∀ a b, p.contentEqual a b = true → q.contentEqual a b = true) ∧
      ∀ (documents : ThreeSided Document) (region : Region),
        (classify q documents region = classify p documents region ∨
          classify p documents region = .ok (.both .conflict) ∧
            ∃ kind, kind ≠ .conflict ∧ classify q documents region = .ok (.both kind)) ∧
        ∀ k, classify q documents region = .ok k → k.isConflict = true →
          classify p documents region = .ok k := by
  refine ⟨fun _ _ => Policy.textsEqual_mono hpq, fun _ _ => Policy.linesEqual_mono hpq,
    fun _ _ => Policy.contentEqual_mono hpq, fun documents region => ?_⟩
  have hloosens := loosens_classify hpq documents region
  refine ⟨?_, fun k hk hconflict => hloosens.eq_of_isConflict hk hconflict⟩
  generalize classify p documents region = before at hloosens
  generalize classify q documents region = after at hloosens
  cases hloosens with
  | same => exact .inl rfl
  | resolved hkind => exact .inr ⟨rfl, _, hkind, rfl⟩

/-- Left deleted the line that right made blank: a conflict, until no blank counts. -/
theorem policies_ordered_blank :
    let documents : ThreeSided Document := ⟨.ofText "", .ofText "x", .ofText " \t"⟩
    let region : Region := ⟨.emptyAt 0, .span 0 1, .span 0 1⟩
    Policy.trim ≤ .ignoreWhitespace ∧
      classify .trim documents region = .ok (.both .conflict) ∧
      ∃ kind, kind ≠ .conflict ∧
        classify .ignoreWhitespace documents region = .ok (.both kind) := by
  intro documents region
  have hpq : Policy.trim ≤ .ignoreWhitespace := by decide
  have hne : classify .ignoreWhitespace documents region ≠ classify .trim documents region := by
    decide +kernel
  obtain ⟨_, _, _, hjudged⟩ := policies_ordered hpq
  exact ⟨hpq, (hjudged documents region).1.resolve_left hne⟩

end Linewise
