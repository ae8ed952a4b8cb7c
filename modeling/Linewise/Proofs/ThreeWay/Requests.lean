import Linewise.Proofs.ThreeWay.Judgement
import Linewise.ThreeWay.Change

/-!
# Changes judged again and again

A change is made once and may then be judged anew any number of times, in other
documents and under other policies. Its region stays, its judgement is the one of the
last request that was not refused, and this fits the region's shape: whether the base
has lines there decides for good whether lines can be inserted, or only deleted or
modified.
-/

namespace Linewise

variable {policy : Policy} {documents : ThreeSided Document} {region : Region} {c : Change}

namespace Classification

/-- Some side changed, both in a conflict, and a side that did not change has lines exactly if the
base has. -/
theorem changed_of_ofContents {contents : ThreeSided (Option String)} {k : Classification}
    (h : ofContents policy contents = .ok k) :
    (∃ side, k.changed side = true) ∧ (k.kind = .conflict → ∀ side, k.changed side = true) ∧
      ∀ side : Side, k.changed side = false →
        (contents.get side.toThreeSide).isNone = contents.base.isNone := by
  by_cases hdiffers : contents.left ≠ contents.base ∨ contents.right ≠ contents.base
  · obtain ⟨k', hk, hleft, hright, hconflict⟩ := ofContents_spec policy hdiffers
    obtain rfl := Except.ok.inj (h.symm.trans hk)
    refine ⟨Side.exists_iff.mpr (hdiffers.imp hleft.mpr hright.mpr), fun hkind => ?_, ?_⟩
    · have hboth := hconflict.mp (beq_iff_eq.mpr hkind)
      exact Side.forall_iff.mpr ⟨hleft.mpr hboth.1, hright.mpr hboth.2.1⟩
    · have hsame {side : Bool} {content : Option String}
          (hside : side = true ↔ content ≠ contents.base) (hfalse : side = false) :
          content.isNone = contents.base.isNone := by
        rw [← Bool.not_eq_true, hside, not_not] at hfalse
        rw [hfalse]
      exact Side.forall_iff.mpr ⟨hsame hleft, hsame hright⟩
  · -- Without any difference only contents that are all absent are judged.
    rw [not_or, not_not, not_not] at hdiffers
    obtain ⟨left, base, right⟩ := contents
    dsimp only at hdiffers
    obtain ⟨rfl, rfl⟩ := hdiffers
    cases right with
    | none =>
      obtain rfl := Except.ok.inj h
      refine ⟨⟨.right, rfl⟩, fun hkind => absurd hkind (by decide), fun side _ => ?_⟩
      cases side <;> rfl
    | some content =>
      simp [ofContents] at h

end Classification

/-- The contents of a region are absent on the sides where its range is empty. -/
theorem Region.isNone_of_contents {contents : ThreeSided (Option String)}
    (h : region.contents documents = .ok contents) (side : ThreeSide) :
    (contents.get side).isNone = (region.get side).isEmpty := by
  cases hinside : region.firstOutside documents with
  | some outside =>
    rw [Region.contents_of_firstOutside hinside] at h
    cases h
  | none =>
    rw [Region.contents_of_bounds (Region.bounds_of_firstOutside hinside)] at h
    obtain rfl := Except.ok.inj h
    rw [Bool.eq_iff_iff, Option.isNone_iff_eq_none]
    cases side <;> exact Document.contentIn_eq_none

namespace Change

/-- The judgement of a change fits its region: some side changed, and both in a conflict; lines are
inserted only where the base has none, and deleted or modified only where it has some; and a side
that did not change has lines exactly if the base has. -/
structure Fits (c : Change) : Prop where
  changed : ∃ side, c.classification.changed side = true
  conflict : c.classification.kind = .conflict → ∀ side, c.classification.changed side = true
  inserted : c.classification.kind = .inserted → c.region.base.isEmpty = true
  deleted : c.classification.kind = .deleted → c.region.base.isEmpty = false
  modified : c.classification.kind = .modified → c.region.base.isEmpty = false
  unchanged : ∀ side : Side, c.classification.changed side = false →
    (c.region.get side.toThreeSide).isEmpty = c.region.base.isEmpty

/-- Whatever is judged at all fits its region. -/
theorem fits_of_classify {k : Classification} (h : classify policy documents region = .ok k) :
    Fits ⟨region, k⟩ := by
  cases hcontents : region.contents documents with
  | error e =>
    rw [classify, hcontents] at h
    cases h
  | ok contents =>
    rw [classify, hcontents] at h
    have hempty := Region.isNone_of_contents hcontents
    have hbase : contents.base.isNone = region.base.isEmpty := hempty .base
    obtain ⟨hchanged, hconflict, hunchanged⟩ := Classification.changed_of_ofContents h
    have hkind := Classification.kind_of_ofContents h
    have hfilled (hresolved : k.kind ≠ .conflict) (hother : k.kind ≠ .inserted) :
        region.base.isEmpty = false := by
      rw [← hbase, Option.isNone_eq_false_iff, Option.isSome_iff_ne_none]
      exact fun hnone => hother ((hkind hresolved).1.mpr hnone)
    refine ⟨hchanged, hconflict, fun hinserted => ?_, fun hdeleted => ?_, fun hmodified => ?_, ?_⟩
    · have hnone := (hkind (by rw [hinserted]; decide)).1.mp hinserted
      rw [← hbase, hnone, Option.isNone_none]
    · exact hfilled (by rw [hdeleted]; decide) (by rw [hdeleted]; decide)
    · exact hfilled (by rw [hmodified]; decide) (by rw [hmodified]; decide)
    · intro side hside
      rw [← hempty side.toThreeSide, ← hbase]
      exact hunchanged side hside

/-- A new change is its region with the judgement on it, and a region that is refused makes none. -/
theorem ofRegion_eq (policy : Policy) (documents : ThreeSided Document) (region : Region) :
    ofRegion policy documents region = (classify policy documents region).map (⟨region, ·⟩) := by
  rw [ofRegion]
  cases classify policy documents region <;> rfl

/-- A change is made only of a region that is judged. -/
theorem exists_of_ofRegion (h : ofRegion policy documents region = .ok c) :
    ∃ k, classify policy documents region = .ok k ∧ c = ⟨region, k⟩ := by
  rw [ofRegion_eq] at h
  cases hk : classify policy documents region with
  | ok k =>
    rw [hk] at h
    exact ⟨k, rfl, (Except.ok.inj h).symm⟩
  | error e =>
    rw [hk] at h
    cases h

/-- A request that is not refused puts its judgement on the region. -/
theorem update_of_ok {k : Classification} (h : classify policy documents c.region = .ok k) :
    c.update policy documents = ⟨c.region, k⟩ := by
  rw [update, reclassify, ofRegion_eq, h]
  rfl

/-- A request that is refused is refused for the reason for which the region is, and leaves the
change as it was. -/
theorem update_of_error {e : InputError} (h : classify policy documents c.region = .error e) :
    c.reclassify policy documents = .error e ∧ c.update policy documents = c := by
  have hrefused : c.reclassify policy documents = .error e := by
    rw [reclassify, ofRegion_eq, h]
    rfl
  refine ⟨hrefused, ?_⟩
  rw [update, hrefused]

/-- No request moves a change. -/
@[simp] theorem region_update (c : Change) (policy : Policy) (documents : ThreeSided Document) :
    (c.update policy documents).region = c.region := by
  cases h : classify policy documents c.region with
  | ok k => rw [update_of_ok h]
  | error e => rw [(update_of_error h).2]

/-- A change that fits its region does so after any request. -/
theorem Fits.update (h : c.Fits) (policy : Policy) (documents : ThreeSided Document) :
    (c.update policy documents).Fits := by
  cases hk : classify policy documents c.region with
  | ok k =>
    rw [update_of_ok hk]
    exact fits_of_classify hk
  | error e => rwa [(update_of_error hk).2]

/-- A request to judge a region in three documents under a policy. -/
structure Request where
  policy : Policy
  documents : ThreeSided Document

/-- The judgement on a region that a request leads to, if it is not refused. -/
def judgement? (region : Region) (request : Request) : Option Classification :=
  (classify request.policy request.documents region).toOption

/-- The change after requests to judge it anew, one after the other. -/
def after (c : Change) (requests : List Request) : Change :=
  requests.foldl (fun c request => c.update request.policy request.documents) c

/-- A judgement that is made answers its request. -/
theorem judgement?_of_ok {request : Request} {k : Classification}
    (h : classify request.policy request.documents region = .ok k) :
    judgement? region request = some k := by
  rw [judgement?, h]
  rfl

/-- A refusal gives no judgement. -/
theorem judgement?_of_error {request : Request} {e : InputError}
    (h : classify request.policy request.documents region = .error e) :
    judgement? region request = none := by
  rw [judgement?, h]
  rfl

/-- Requests can be made in two parts. -/
theorem after_append (c : Change) (requests later : List Request) :
    c.after (requests ++ later) = (c.after requests).after later :=
  List.foldl_append

/-- No requests move a change. -/
@[simp] theorem region_after (c : Change) (requests : List Request) :
    (c.after requests).region = c.region := by
  induction requests generalizing c with
  | nil => rfl
  | cons request requests ih => exact (ih _).trans (region_update c _ _)

/-- A change that fits its region does so after any requests. -/
theorem Fits.after (h : c.Fits) (requests : List Request) : (c.after requests).Fits := by
  induction requests generalizing c with
  | nil => exact h
  | cons request requests ih => exact ih (h.update request.policy request.documents)

/-- The judgement after requests is the last one of those made so far. -/
theorem getLast?_judgements {first : Request}
    (hfirst : judgement? c.region first = some c.classification) (requests : List Request) :
    ((first :: requests).filterMap (judgement? c.region)).getLast? =
      some (c.after requests).classification := by
  induction requests using List.reverseRecOn with
  | nil =>
    rw [List.filterMap_cons_some hfirst]
    rfl
  | append_singleton requests request ih =>
    have hregion := region_after c requests
    rw [← List.cons_append, List.filterMap_append, List.getLast?_append, ih, after_append]
    cases hk : classify request.policy request.documents c.region with
    | ok k =>
      have hupdate : (c.after requests).after [request] = ⟨(c.after requests).region, k⟩ :=
        update_of_ok (hregion ▸ hk)
      rw [hupdate, List.filterMap_cons_some (judgement?_of_ok hk)]
      rfl
    | error e =>
      have hupdate : (c.after requests).after [request] = c.after requests :=
        (update_of_error (hregion ▸ hk)).2
      rw [hupdate, List.filterMap_cons_none (judgement?_of_error hk)]
      rfl

/-- Of two judgements that fit the same region, not one is of inserted lines and the other of
deleted or modified ones. -/
theorem Fits.not_deleted_or_modified {c' : Change} (h : c.Fits) (h' : c'.Fits)
    (hregion : c'.region = c.region) (hinserted : c.classification.kind = .inserted) :
    ¬(c'.classification.kind = .deleted ∨ c'.classification.kind = .modified) := by
  have hempty := h.inserted hinserted
  rintro (hdeleted | hmodified)
  · rw [← hregion, h'.deleted hdeleted] at hempty
    cases hempty
  · rw [← hregion, h'.modified hmodified] at hempty
    cases hempty

/-- Whatever is asked of a change after it was made, its region stays, its judgement is that of the
last request not refused, a refused one leaves it as it was, and the judgement fits the region. So
what was inserted is never found deleted or modified later, and what was deleted or modified never
inserted. -/
theorem after_keeps {first : Request}
    (hc : ofRegion first.policy first.documents region = .ok c) (requests : List Request) :
    (c.after requests).region = region ∧
      ((first :: requests).filterMap (judgement? region)).getLast? =
        some (c.after requests).classification ∧
      (∀ request : Request, ∀ e, classify request.policy request.documents region = .error e →
        (c.after requests).reclassify request.policy request.documents = .error e ∧
          c.after (requests ++ [request]) = c.after requests) ∧
      (c.after requests).Fits ∧
      ∀ later : List Request,
        ((c.after requests).classification.kind = .inserted →
          ¬((c.after (requests ++ later)).classification.kind = .deleted ∨
            (c.after (requests ++ later)).classification.kind = .modified)) ∧
        ((c.after requests).classification.kind = .deleted ∨
            (c.after requests).classification.kind = .modified →
          (c.after (requests ++ later)).classification.kind ≠ .inserted) := by
  obtain ⟨k, hk, rfl⟩ := exists_of_ofRegion hc
  have hfits := fits_of_classify hk
  have hregion (requests : List Request) : (after ⟨region, k⟩ requests).region = region :=
    region_after _ requests
  have hlast := getLast?_judgements (c := ⟨region, k⟩) (judgement?_of_ok hk) requests
  refine ⟨hregion requests, hlast, ?_, hfits.after requests, ?_⟩
  · intro request e he
    rw [after_append]
    exact update_of_error ((hregion requests).symm ▸ he)
  · intro later
    have hnow := hfits.after requests
    have hlater := hfits.after (requests ++ later)
    have hsame := (hregion (requests ++ later)).trans (hregion requests).symm
    exact ⟨hnow.not_deleted_or_modified hlater hsame,
      fun hkind hinserted => hlater.not_deleted_or_modified hnow hsame.symm hinserted hkind⟩

/-- A line that right changed becomes a conflict when left changes it as well. The next request, in
documents that are all the same, is refused and leaves the conflict. -/
theorem after_keeps_refused :
    let region : Region := ⟨.span 0 1, .span 0 1, .span 0 1⟩
    let first : Request := ⟨.exact, ⟨.ofText "a", .ofText "a", .ofText "b"⟩⟩
    let requests : List Request := [⟨.exact, ⟨.ofText "c", .ofText "a", .ofText "b"⟩⟩,
      ⟨.trim, ⟨.ofText "a", .ofText "a", .ofText "a"⟩⟩]
    let c : Change := ⟨region, .rightOnly .modified⟩
    ofRegion first.policy first.documents region = .ok c ∧
      (c.after requests).region = region ∧ (c.after requests).Fits ∧
      c.after requests = ⟨region, .both .conflict⟩ := by
  intro region first requests c
  have hc : ofRegion first.policy first.documents region = .ok c := by decide +kernel
  obtain ⟨hregion, hlast, _, hfits, _⟩ := after_keeps hc requests
  exact ⟨hc, hregion, hfits, by decide +kernel⟩

end Change

end Linewise
