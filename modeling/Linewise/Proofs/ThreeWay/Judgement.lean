import Linewise.Proofs.ThreeWay.Regions

/-!
# The meaning of a judgement

A region is judged by a table of cases, tried in order. What the table amounts to needs
no order: `Judges` says when each flag is set and when a region is of each kind, from
what the three documents hold there alone. `classify_judges` says that every region that
lies within the documents, and in which a side differs from the base, is judged so, and
why any other one is refused.
-/

namespace Linewise

variable {policy : Policy} {documents : ThreeSided Document} {region : Region}

/-! ## Refusals -/

/-- Whether a region reaches past the end of the document on a side. -/
def Region.outside (region : Region) (documents : ThreeSided Document) (side : ThreeSide) : Bool :=
  (documents.get side).lineCount < (region.get side).stop

/-- The first side, from left over the base to right, on which a region reaches past the end of its
document. -/
def Region.firstOutside (region : Region) (documents : ThreeSided Document) : Option ThreeSide :=
  ThreeSide.all.find? (region.outside documents)

/-- The content of a region on a side is refused exactly if the region reaches past the end. -/
theorem Region.rangeContent_eq (region : Region) (documents : ThreeSided Document)
    (side : ThreeSide) :
    (documents.get side).rangeContent (region.get side) =
      if region.outside documents side then
        .error (.outOfBounds (region.get side).start (region.get side).stop
          (documents.get side).lineCount)
      else .ok ((documents.get side).contentIn (region.get side)) := by
  unfold outside
  by_cases h : (documents.get side).lineCount < (region.get side).stop
  · rw [if_pos (decide_eq_true h), Document.rangeContent, LineRange.checkBounds,
      if_neg (Nat.not_le_of_lt h)]
    rfl
  · rw [if_neg (by simpa using h)]
    exact Document.rangeContent_of_le (Nat.le_of_not_lt h)

/-- A region that lies outside of no document lies within all three. -/
theorem Region.bounds_of_firstOutside (h : region.firstOutside documents = none)
    (side : ThreeSide) : (region.get side).stop ≤ (documents.get side).lineCount := by
  have hside : side ∈ ThreeSide.all := by
    cases side <;> decide
  have hinside := List.find?_eq_none.mp h side hside
  simpa only [outside, decide_eq_true_eq, Nat.not_lt] using hinside

/-- The contents of a region are refused for the first side on which it reaches past the end. -/
theorem Region.contents_of_firstOutside {side : ThreeSide}
    (h : region.firstOutside documents = some side) :
    region.contents documents = .error (.outOfBounds (region.get side).start
      (region.get side).stop (documents.get side).lineCount) := by
  have hleft := region.rangeContent_eq documents .left
  have hbase := region.rangeContent_eq documents .base
  have hright := region.rangeContent_eq documents .right
  simp only [ThreeSided.get] at hleft hbase hright
  simp only [firstOutside, ThreeSide.all, List.find?_cons] at h
  rw [contents, hleft, hbase, hright]
  -- The sides before the one found are inside.
  split at h
  · rename_i hfirst
    obtain rfl := Option.some.inj h
    rw [if_pos hfirst]
    rfl
  rename_i hfirst
  rw [hfirst]
  split at h
  · rename_i hsecond
    obtain rfl := Option.some.inj h
    rw [if_pos hsecond]
    rfl
  rename_i hsecond
  rw [hsecond]
  split at h
  · rename_i hthird
    obtain rfl := Option.some.inj h
    rw [if_pos hthird]
    rfl
  · cases h

/-! ## Judgements -/

namespace Classification

/-- Left and right hold the same under a policy: equal contents or, where no blank counts, equal
texts if a side without lines is read as an empty text. -/
def Alike (policy : Policy) (left right : Option String) : Prop :=
  policy.contentEqual left right = true ∨
    policy = .ignoreWhitespace ∧ policy.textsEqual (left.getD "") (right.getD "") = true

/-- The sides are found equal exactly if they are alike. -/
theorem sidesEqual_iff {left right : Option String} :
    sidesEqual policy left right = true ↔ Alike policy left right := by
  unfold sidesEqual Alike
  by_cases hpolicy : policy = .ignoreWhitespace
  · subst hpolicy
    rw [if_pos rfl]
    constructor
    · exact fun h => .inr ⟨rfl, h⟩
    · rintro (h | ⟨_, h⟩)
      · cases left <;> cases right <;> first | exact h | rfl | exact Bool.noConfusion h
      · exact h
  · rw [if_neg hpolicy]
    simp only [hpolicy, false_and, or_false]

/-- A change that both sides made without conflict is of the kind that it has if they agree. -/
theorem kind_ofBoth {alike : RegionKind} {left right : Option String}
    (hresolved : (ofBoth policy alike left right).kind ≠ .conflict) :
    (ofBoth policy alike left right).kind = alike := by
  unfold ofBoth both at hresolved ⊢
  dsimp only at hresolved ⊢
  split at hresolved
  · rename_i hequal
    rw [if_pos hequal]
  · exact absurd rfl hresolved

/-- A change without conflict inserts lines exactly if the base has none, and deletes lines exactly
if the base has some and no side that changed has any. -/
theorem kind_of_ofContents {c : ThreeSided (Option String)} {k : Classification}
    (h : ofContents policy c = .ok k) (hresolved : k.kind ≠ .conflict) :
    (k.kind = .inserted ↔ c.base = none) ∧
      (k.kind = .deleted ↔ c.base ≠ none ∧
        ∀ side : Side, k.changed side = true → c.get side.toThreeSide = none) := by
  obtain ⟨left, base, right⟩ := c
  simp only [Side.forall_iff]
  cases base with
  | none =>
    have hkind : k.kind = .inserted := by
      cases left with
      | none => exact congrArg kind (Except.ok.inj h).symm
      | some left =>
        cases right with
        | none => exact congrArg kind (Except.ok.inj h).symm
        | some right =>
          obtain rfl := Except.ok.inj h
          exact kind_ofBoth hresolved
    simp [hkind]
  | some base =>
    simp only [ofContents] at h
    split at h
    · rename_i hgone
      obtain rfl := Except.ok.inj h
      simp only [Bool.and_eq_true, Option.isNone_iff_eq_none] at hgone
      simp [both, hgone.1, hgone.2, Side.toThreeSide, ThreeSided.get]
    rename_i hgone
    simp only [Bool.and_eq_true, Option.isNone_iff_eq_none] at hgone
    split at h
    · split at h
      · cases h
      obtain rfl := Except.ok.inj h
      cases right <;>
        simp [rightOnly, kindOfSide, changed, Side.toThreeSide, ThreeSided.get]
    split at h
    · obtain rfl := Except.ok.inj h
      cases left <;> simp [leftOnly, kindOfSide, changed, Side.toThreeSide, ThreeSided.get]
    · obtain rfl := Except.ok.inj h
      rw [kind_ofBoth hresolved]
      simpa [ofBoth, both, changed, Side.toThreeSide, ThreeSided.get] using hgone

end Classification

/-- What a judgement on a region means: a flag is set exactly if its side differs literally from the
base; the change is a conflict exactly if both sides changed and are not alike under the policy.
Otherwise lines were inserted exactly if the base has none there, deleted exactly if the base has
some and no side that changed has any, and modified in all other cases. -/
structure Judges (policy : Policy) (documents : ThreeSided Document) (region : Region)
    (k : Classification) : Prop where
  changed : ∀ side, k.changed side = true ↔ Differs documents region side
  conflict : k.kind = .conflict ↔ (∀ side, k.changed side = true) ∧
    ¬Classification.Alike policy (documents.left.contentIn region.left)
      (documents.right.contentIn region.right)
  inserted : k.kind ≠ .conflict → (k.kind = .inserted ↔ region.base.isEmpty = true)
  deleted : k.kind ≠ .conflict → (k.kind = .deleted ↔ region.base.isEmpty = false ∧
    ∀ side : Side, k.changed side = true → (region.get side.toThreeSide).isEmpty = true)
  modified : k.kind ≠ .conflict → (k.kind = .modified ↔ region.base.isEmpty = false ∧
    ∃ side : Side, k.changed side = true ∧ (region.get side.toThreeSide).isEmpty = false)

/-- A range has no content exactly if it is empty. -/
theorem Document.contentIn_eq_none {d : Document} {r : LineRange} :
    d.contentIn r = none ↔ r.isEmpty = true := by
  rw [contentIn]
  split
  · rename_i hempty
    simp only [hempty]
  · rename_i hlines
    simp only [reduceCtorEq, hlines]

/-- A region within all three documents of which a side differs from the base is judged by its
meaning. -/
theorem exists_judges (policy : Policy)
    (hbounds : ∀ side : ThreeSide, (region.get side).stop ≤ (documents.get side).lineCount)
    (hdiffers : ∃ side, Differs documents region side) :
    ∃ k, classify policy documents region = .ok k ∧ Judges policy documents region k := by
  obtain ⟨k, hk, hchanged, hconflict⟩ := classify_of_differs policy hbounds hdiffers
  have hcontents := hk
  rw [classify, Region.contents_of_bounds hbounds] at hcontents
  have hkind := Classification.kind_of_ofContents hcontents
  have hnone (side : ThreeSide) : (⟨documents.left.contentIn region.left,
      documents.base.contentIn region.base, documents.right.contentIn region.right⟩ :
        ThreeSided (Option String)).get side = none ↔ (region.get side).isEmpty = true := by
    cases side <;> exact Document.contentIn_eq_none
  have hbase : documents.base.contentIn region.base = none ↔ region.base.isEmpty = true :=
    hnone .base
  have hdeleted (hresolved : k.kind ≠ .conflict) : k.kind = .deleted ↔
      region.base.isEmpty = false ∧
        ∀ side : Side, k.changed side = true → (region.get side.toThreeSide).isEmpty = true := by
    rw [(hkind hresolved).2, ← Bool.not_eq_true, ne_eq, hbase]
    simp only [hnone]
  refine ⟨k, hk, hchanged, ?_, fun hresolved => (hkind hresolved).1.trans hbase, hdeleted,
    fun hresolved => ?_⟩
  · have hkindConflict : k.kind = .conflict ↔ k.isConflict = true := beq_iff_eq.symm
    rw [hkindConflict, hconflict, ← Classification.sidesEqual_iff, Bool.not_eq_true]
    simp only [hchanged]
  · have hother : k.kind = .modified ↔ ¬k.kind = .inserted ∧ ¬k.kind = .deleted := by
      revert hresolved
      cases k.kind <;> decide
    rw [hother, hdeleted hresolved, (hkind hresolved).1, hbase, Bool.not_eq_true, not_and]
    refine and_congr_right fun hlines => ?_
    simp only [hlines, forall_const, not_forall, Bool.not_eq_true, exists_prop]

/-- A region within all three documents in which no side differs from the base is refused, if it is
not empty. -/
theorem classify_of_not_differs (policy : Policy)
    (hbounds : ∀ side : ThreeSide, (region.get side).stop ≤ (documents.get side).lineCount)
    (hregion : region.isEmpty = false) (hsame : ∀ side, ¬Differs documents region side) :
    classify policy documents region = .error .unchangedRegion := by
  have hleft : documents.left.contentIn region.left = documents.base.contentIn region.base :=
    not_not.mp (hsame .left)
  have hright : documents.right.contentIn region.right = documents.base.contentIn region.base :=
    not_not.mp (hsame .right)
  rw [classify, Region.contents_of_bounds hbounds, hleft, hright]
  cases hbase : documents.base.contentIn region.base with
  | none =>
    rw [hbase] at hleft hright
    rw [Document.contentIn_eq_none] at hbase hleft hright
    rw [Region.isEmpty, hleft, hbase, hright] at hregion
    cases hregion
  | some content =>
    change Classification.ofContents policy ⟨some content, some content, some content⟩ = _
    simp [Classification.ofContents]

/-- A region that is not empty is refused for the first side, from left over the base to right, on
which it reaches past the end of its document. Otherwise it is refused exactly if neither side
differs literally from the base, and judged by its meaning if one does. -/
theorem classify_judges (policy : Policy) (documents : ThreeSided Document) (region : Region)
    (hregion : region.isEmpty = false) :
    (∀ side, region.firstOutside documents = some side →
      classify policy documents region = .error (.outOfBounds (region.get side).start
        (region.get side).stop (documents.get side).lineCount)) ∧
    (region.firstOutside documents = none →
      (classify policy documents region = .error .unchangedRegion ↔
        ∀ side, ¬Differs documents region side) ∧
      ((∃ side, Differs documents region side) →
        ∃ k, classify policy documents region = .ok k ∧ Judges policy documents region k)) := by
  refine ⟨fun side hside => ?_, fun hinside => ?_⟩
  · rw [classify, Region.contents_of_firstOutside hside]
    rfl
  · have hbounds := Region.bounds_of_firstOutside hinside
    refine ⟨⟨fun hrefused side hdiffers => ?_, classify_of_not_differs policy hbounds hregion⟩,
      exists_judges policy hbounds⟩
    obtain ⟨k, hk, _⟩ := exists_judges policy hbounds ⟨side, hdiffers⟩
    rw [hk] at hrefused
    cases hrefused

/-- Four regions, where no blank counts. Left deleted the first line and right made it blank: this
modifies it, since a side that changed has a line. Both replaced the second line, each by another
one, and neither changed the third. A region past the end of the base and of the right is refused
for the base. -/
theorem classify_judges_each_way :
    let documents : ThreeSided Document :=
      ⟨.ofLines ["p", "e"], .ofLines ["x", "y", "e"], .ofLines [" \t", "z", "e"]⟩
    let blanked : Region := ⟨.emptyAt 0, .span 0 1, .span 0 1⟩
    let disputed : Region := ⟨.span 0 1, .span 1 2, .span 1 2⟩
    let unchanged : Region := ⟨.span 1 2, .span 2 3, .span 2 3⟩
    let outside : Region := ⟨.span 1 2, .span 2 4, .span 2 5⟩
    (∀ region ∈ [blanked, disputed, unchanged, outside], region.isEmpty = false) ∧
      (∀ region ∈ [blanked, disputed, unchanged], region.firstOutside documents = none) ∧
      outside.firstOutside documents = some .base ∧
      (∀ region ∈ [blanked, disputed], Differs documents region .left) ∧
      (∀ side, ¬Differs documents unchanged side) ∧
      (classify .ignoreWhitespace documents blanked = .ok (.both .modified) ∧
        Judges .ignoreWhitespace documents blanked (.both .modified)) ∧
      (classify .ignoreWhitespace documents disputed = .ok (.both .conflict) ∧
        Judges .ignoreWhitespace documents disputed (.both .conflict)) ∧
      classify .ignoreWhitespace documents unchanged = .error .unchangedRegion ∧
      classify .ignoreWhitespace documents outside = .error (.outOfBounds 2 4 3) := by
  intro documents blanked disputed unchanged outside
  have hregions : ∀ region ∈ [blanked, disputed, unchanged, outside], region.isEmpty = false := by
    decide
  have hinside : ∀ region ∈ [blanked, disputed, unchanged],
      region.firstOutside documents = none := by decide
  have houtside : outside.firstOutside documents = some .base := by decide
  have hdiffers : ∀ region ∈ [blanked, disputed], Differs documents region .left := by decide
  have hsame : ∀ side, ¬Differs documents unchanged side := by
    rintro (_ | _) <;> decide
  have hmodified : classify .ignoreWhitespace documents blanked = .ok (.both .modified) := by
    decide +kernel
  have hconflict : classify .ignoreWhitespace documents disputed = .ok (.both .conflict) := by
    decide +kernel
  have hblanked := classify_judges .ignoreWhitespace documents blanked (hregions _ (by simp))
  have hdisputed := classify_judges .ignoreWhitespace documents disputed (hregions _ (by simp))
  have hunchanged := classify_judges .ignoreWhitespace documents unchanged (hregions _ (by simp))
  have hrefused := classify_judges .ignoreWhitespace documents outside (hregions _ (by simp))
  refine ⟨hregions, hinside, houtside, hdiffers, hsame, ⟨hmodified, ?_⟩, ⟨hconflict, ?_⟩, ?_, ?_⟩
  · obtain ⟨k, hk, hjudges⟩ := (hblanked.2 (hinside _ (by simp))).2 ⟨.left, hdiffers _ (by simp)⟩
    obtain rfl := Except.ok.inj (hk.symm.trans hmodified)
    exact hjudges
  · obtain ⟨k, hk, hjudges⟩ := (hdisputed.2 (hinside _ (by simp))).2 ⟨.left, hdiffers _ (by simp)⟩
    obtain rfl := Except.ok.inj (hk.symm.trans hconflict)
    exact hjudges
  · exact (hunchanged.2 (hinside _ (by simp))).1.mpr hsame
  · exact hrefused.1 .base houtside

end Linewise
