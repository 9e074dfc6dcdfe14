/-
What one more claim of a requester, or one more attribute of a document, does to a decision. A claim
takes from the matches and gives to the tiers: a match can only fail by it, if it looks for the
claim, and a requester can only be cleared by it (`met_withClaim_iff`, `cleared_withClaim_iff`). An
attribute takes from both, but for a match that insists on it and now finds the value that the
requester presents (`met_insert_and_not_met_iff`, `cleared_of_insert`).
-/
import ScopedRetrieval.Proofs.Policy.Admission

namespace ScopedRetrieval

variable {attributes : Attributes} {requester : Requester} {key value : String}

/-! ## One more claim -/

namespace Requester

theorem claim?_withClaim (requester : Requester) (key value k : String) :
    (requester.withClaim key value).claim? k =
      if k = key then some value else requester.claim? k :=
  requester.claims.find?_insert key k value

variable (h : requester.claim? key = none)

include h

theorem claim?_withClaim_eq_some_iff (k v : String) :
    (requester.withClaim key value).claim? k = some v ↔
      requester.claim? k = some v ∨ k = key ∧ value = v := by
  rw [claim?_withClaim]
  split
  · rename_i hk
    subst hk
    simp [h]
  · rename_i hk
    simp [hk]

/-- With a new claim one presents a value under a key if one did before, or it is the claim's. -/
theorem exists_claim?_withClaim (k : String) :
    (∃ v, (requester.withClaim key value).claim? k = some v) ↔
      (∃ v, requester.claim? k = some v) ∨ key = k := by
  simp only [claim?_withClaim_eq_some_iff h, exists_or]
  refine or_congr_right ⟨?_, ?_⟩
  · rintro ⟨v, hk, -⟩
    exact hk.symm
  · rintro rfl
    exact ⟨value, rfl, rfl⟩

theorem exists_mem_claim?_withClaim (k : String) (values : List String) :
    (∃ v ∈ values, (requester.withClaim key value).claim? k = some v) ↔
      (∃ v ∈ values, requester.claim? k = some v) ∨ key = k ∧ value ∈ values := by
  simp only [claim?_withClaim_eq_some_iff h, and_or_left, exists_or]
  refine or_congr_right ⟨?_, ?_⟩
  · rintro ⟨v, hv, rfl, rfl⟩
    exact ⟨rfl, hv⟩
  · rintro ⟨rfl, hv⟩
    exact ⟨value, hv, rfl, rfl⟩

end Requester

namespace AttributeMatch

/-- The match has something against a claim: the document has another value, or it has none and the
match insists on one. -/
def Rejects (m : AttributeMatch) (attributes : Attributes) (value : String) : Prop :=
  (∃ actual, attributes.find? m.attributeKey = some actual ∧ actual ≠ value) ∨
    attributes.find? m.attributeKey = none ∧ m.missing = .deny

/-- With a new claim a match is met as before, unless it looks for the claim and rejects it. -/
theorem met_withClaim_iff (m : AttributeMatch) (h : requester.claim? key = none) :
    m.Met attributes (requester.withClaim key value) ↔
      m.Met attributes requester ∧ ¬(m.contextKey = key ∧ m.Rejects attributes value) := by
  unfold Met ClaimMet Rejects
  rw [requester.claim?_withClaim]
  split
  · rename_i hk
    rw [hk, h]
    cases attributes.find? m.attributeKey with
    | none => cases m.missing <;> simp
    | some actual => simp
  · rename_i hk
    simp [hk]

end AttributeMatch

namespace PolicySettings

/-- A claim opens the tier of a document: a confidential one by a privileged department or a
privileged identity, an internal one by any identity. -/
def Opens (s : PolicySettings) (attributes : Attributes) (key value : String) : Prop :=
  attributes.find? s.sensitivityKey = some "confidential" ∧
      (key = s.departmentKey ∧ value ∈ s.privilegedDepartments ∨
        key = s.identityKey ∧ value ∈ s.privilegedIdentities) ∨
    attributes.find? s.sensitivityKey = some "internal" ∧ key = s.identityKey

/-- With a new claim a requester is cleared as before, or because the claim opens the tier. -/
theorem cleared_withClaim_iff (s : PolicySettings) (h : requester.claim? key = none) :
    s.Cleared attributes (requester.withClaim key value) ↔
      s.Cleared attributes requester ∨ s.Opens attributes key value := by
  unfold Cleared Opens
  rw [Requester.exists_mem_claim?_withClaim h, Requester.exists_mem_claim?_withClaim h,
    Requester.exists_claim?_withClaim h]
  -- a document is of one tier, so it is one of the two conditions that asks for something
  by_cases hconf : attributes.find? s.sensitivityKey = some "confidential"
  · simp [hconf, or_or_or_comm]
  · by_cases hint : attributes.find? s.sensitivityKey = some "internal"
    · simp [hint]
    · simp [hconf, hint]

end PolicySettings

/-- What a new claim does under valid settings. A document that was withheld is admitted with it
exactly when the claim opens the tier of the document and every match is met with it as well; one
that was admitted is withheld with it exactly when some match looks for the claim and rejects it. -/
theorem claim_gains_by_tier_and_loses_by_match {s : PolicySettings} (h : s.validate = .ok ()) :
    ∃ f, Filter.ofSettings s = .ok f ∧ ∀ attributes requester key value,
      requester.claim? key = none →
      (f.admits attributes requester = false →
        (f.admits attributes (requester.withClaim key value) = true ↔
          s.Opens attributes key value ∧
            ∀ m ∈ s.attributeMatches, m.Met attributes (requester.withClaim key value))) ∧
      (f.admits attributes requester = true →
        (f.admits attributes (requester.withClaim key value) = false ↔
          ∃ m ∈ s.attributeMatches, m.contextKey = key ∧ m.Rejects attributes value)) := by
  refine ⟨_, Filter.ofSettings_of_validate h, fun attributes requester key value hkey => ?_⟩
  rw [← Bool.not_eq_true, ← Bool.not_eq_true, s.admits_iff, s.admits_iff,
    s.cleared_withClaim_iff hkey]
  constructor
  · intro hdenied
    constructor
    · rintro ⟨hmet, hcleared | hopens⟩
      · have hmet' : ∀ m ∈ s.attributeMatches, m.Met attributes requester := fun m hm =>
          ((m.met_withClaim_iff hkey).1 (hmet m hm)).1
        exact absurd ⟨hmet', hcleared⟩ hdenied
      · exact ⟨hopens, hmet⟩
    · rintro ⟨hopens, hmet⟩
      exact ⟨hmet, .inr hopens⟩
  · rintro ⟨hmet, hcleared⟩
    constructor
    · intro hdenied
      by_contra hnone
      refine hdenied ⟨fun m hm => (m.met_withClaim_iff hkey).2 ⟨hmet m hm, ?_⟩, .inl hcleared⟩
      exact fun hrejects => hnone ⟨m, hm, hrejects⟩
    · rintro ⟨m, hm, hrejects⟩ ⟨hmet', -⟩
      exact ((m.met_withClaim_iff hkey).1 (hmet' m hm)).2 hrejects

/-- A rule that reads the department as well: one claim of it opens the tier of a document that IT
owns, and trips the rule at a document that nobody owns. -/
theorem claim_gains_by_tier_and_loses_by_match_department :
    let s : PolicySettings := { rules := [⟨"team", "owner", some "department", some .deny⟩] }
    let plan : Attributes := .ofList [("sensitivity", "confidential"), ("owner", "IT")]
    let memo : Attributes := .ofList [("location", "Rome")]
    let requester : Requester := .ofList [("location", "Rome")]
    let member := requester.withClaim "department" "IT"
    s.validate = .ok () ∧ requester.claim? "department" = none ∧
      ∃ f, Filter.ofSettings s = .ok f ∧
        f.admits plan requester = false ∧ f.admits plan member = true ∧
        s.Opens plan "department" "IT" ∧
        f.admits memo requester = true ∧ f.admits memo member = false ∧
        ∃ m ∈ s.attributeMatches, m.contextKey = "department" ∧ m.Rejects memo "IT" := by
  intro s plan memo requester member
  have hs : s.validate = .ok () := by decide
  have hkey : requester.claim? "department" = none := by decide
  obtain ⟨f, hf, hall⟩ := claim_gains_by_tier_and_loses_by_match hs
  obtain rfl := Filter.eq_of_ofSettings hs hf
  have hgains := (hall plan requester "department" "IT" hkey).1 (by decide)
  have hloses := (hall memo requester "department" "IT" hkey).2 (by decide)
  have hadmitted : (Filter.ofSettingsUnchecked s).admits plan member = true := by decide
  have hdenied : (Filter.ofSettingsUnchecked s).admits memo member = false := by decide
  exact ⟨hs, hkey, _, hf, by decide, hadmitted, (hgains.1 hadmitted).1, by decide, hdenied,
    hloses.1 hdenied⟩

/-! ## One more attribute -/

namespace AttributeMatch

/-- The match insists on just this attribute, with the value that the requester presents. -/
def Demands (m : AttributeMatch) (requester : Requester) (key value : String) : Prop :=
  m.missing = .deny ∧ m.attributeKey = key ∧ requester.claim? m.contextKey = some value

/-- A new attribute makes a match met that was not exactly where the match demands it. -/
theorem met_insert_and_not_met_iff (m : AttributeMatch) (h : attributes.find? key = none) :
    m.Met (attributes.insert key value) requester ∧ ¬m.Met attributes requester ↔
      m.Demands requester key value := by
  unfold Met ClaimMet Demands
  rw [attributes.find?_insert]
  split
  · rename_i hk
    rw [hk, h]
    cases requester.claim? m.contextKey <;> cases m.missing <;> simp [eq_comm]
  · rename_i hk
    rw [and_not_self_iff]
    simp [hk]

end AttributeMatch

/-- A new attribute clears nobody: without it the document was of no tier, if it is the tier. -/
theorem PolicySettings.cleared_of_insert (s : PolicySettings) (h : attributes.find? key = none)
    (hcleared : s.Cleared (attributes.insert key value) requester) :
    s.Cleared attributes requester := by
  unfold Cleared at hcleared ⊢
  rw [attributes.find?_insert] at hcleared
  split at hcleared
  · rename_i hk
    rw [hk, h]
    exact ⟨nofun, nofun⟩
  · exact hcleared

/-- What a new attribute does under valid settings to those who are admitted with it: they were
withheld without it exactly where some match demands it, and every check that denied then is such a
match. So where no match insists on its attribute, they were admitted without it. -/
theorem attribute_gains_only_where_demanded {s : PolicySettings} (h : s.validate = .ok ()) :
    ∃ f, Filter.ofSettings s = .ok f ∧ ∀ attributes requester key value,
      attributes.find? key = none → f.admits (attributes.insert key value) requester = true →
      (f.admits attributes requester = false ↔
        ∃ m ∈ s.attributeMatches, m.Demands requester key value) ∧
      (∀ check ∈ f.checks, (check.judge attributes requester).isDeny = true →
        ∃ m ∈ s.attributeMatches, m.toCheck = check ∧ m.Demands requester key value) ∧
      ((∀ m ∈ s.attributeMatches, m.missing ≠ .deny) → f.admits attributes requester = true) := by
  refine ⟨_, Filter.ofSettings_of_validate h, fun attributes requester key value hkey hmore => ?_⟩
  obtain ⟨hmet, hcleared⟩ := (s.admits_iff _ _).1 hmore
  have hcleared := s.cleared_of_insert hkey hcleared
  have hdemands : ∀ m ∈ s.attributeMatches,
      ¬m.Met attributes requester ↔ m.Demands requester key value := fun m hm => by
    rw [← m.met_insert_and_not_met_iff hkey]
    exact (and_iff_right (hmet m hm)).symm
  have hdenied : (Filter.ofSettingsUnchecked s).admits attributes requester = false ↔
      ∃ m ∈ s.attributeMatches, m.Demands requester key value := by
    rw [← Bool.not_eq_true, s.admits_iff, and_iff_left hcleared, not_forall₂]
    simp only [exists_prop]
    exact exists_congr fun m => and_congr_right (hdemands m)
  refine ⟨hdenied, ?_, ?_⟩
  · intro check hcheck hdeny
    rcases (s.mem_checks_iff check).1 hcheck with rfl | ⟨m, hm, rfl⟩
    · exact absurd hcleared ((s.isDeny_tierCheck_iff _ _).1 hdeny)
    · exact ⟨m, hm, rfl, (hdemands m hm).1 ((m.isDeny_judge_iff _ _).1 hdeny)⟩
  · intro hlax
    rw [← Bool.not_eq_false, hdenied]
    rintro ⟨m, hm, hdemands⟩
    exact hlax m hm hdemands.1

/-- Two rules that both insist on an owner, each with a claim of its own: a document without one
gains by it. Under the settings by default it does not. -/
theorem attribute_gains_only_where_demanded_two_rules :
    let s : PolicySettings :=
      { rules := [⟨"team", "owner", some "team", some .deny⟩,
          ⟨"group", "owner", some "group", some .deny⟩] }
    let memo : Attributes := .ofList [("location", "Rome")]
    let owned := memo.insert "owner" "infra"
    let requester : Requester := .ofList [("team", "infra"), ("group", "infra")]
    s.validate = .ok () ∧ ({} : PolicySettings).validate = .ok () ∧ memo.find? "owner" = none ∧
      (∃ f, Filter.ofSettings s = .ok f ∧ f.admits owned requester = true ∧
        f.admits memo requester = false ∧
        ∀ check ∈ f.checks, (check.judge memo requester).isDeny = true →
          ∃ m ∈ s.attributeMatches, m.toCheck = check ∧ m.Demands requester "owner" "infra") ∧
      ∃ f, Filter.ofSettings {} = .ok f ∧ f.admits owned requester = true ∧
        f.admits memo requester = true := by
  intro s memo owned requester
  have hs : s.validate = .ok () := by decide
  have hdefault : ({} : PolicySettings).validate = .ok () := by decide
  have hkey : memo.find? "owner" = none := by decide
  refine ⟨hs, hdefault, hkey, ?_, ?_⟩
  · obtain ⟨f, hf, hall⟩ := attribute_gains_only_where_demanded hs
    obtain rfl := Filter.eq_of_ofSettings hs hf
    have hmore : (Filter.ofSettingsUnchecked s).admits owned requester = true := by decide
    exact ⟨_, hf, hmore, by decide, (hall memo requester "owner" "infra" hkey hmore).2.1⟩
  · obtain ⟨f, hf, hall⟩ := attribute_gains_only_where_demanded hdefault
    obtain rfl := Filter.eq_of_ofSettings hdefault hf
    have hmore : (Filter.ofSettingsUnchecked {}).admits owned requester = true := by decide
    exact ⟨_, hf, hmore, (hall memo requester "owner" "infra" hkey hmore).2.2 (by decide)⟩

end ScopedRetrieval
