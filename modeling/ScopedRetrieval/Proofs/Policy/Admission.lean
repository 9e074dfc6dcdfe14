/-
When the filter of settings admits, told without verdicts. The checks of settings are matches, of
the owner, of the place and one for each rule, and the check of the tiers; a document is admitted
exactly when it meets every match and the requester is cleared for its tier (`admits_iff`).
-/
import ScopedRetrieval.Proofs.Policy.Requirement

namespace ScopedRetrieval

/-! ## Matches -/

namespace AttributeMatch

/-- The document meets the claim that the match looks for, or there is no such claim. -/
def Met (m : AttributeMatch) : Attributes → Requester → Prop :=
  ClaimMet m.attributeKey m.contextKey m.missing

theorem isDeny_judge_iff (m : AttributeMatch) (attributes : Attributes) (requester : Requester) :
    (m.judge attributes requester).isDeny = true ↔ ¬m.Met attributes requester :=
  m.enforces.denies attributes requester

end AttributeMatch

namespace PolicySettings

variable (s : PolicySettings)

/-- The matches that settings ask for: of the owner, of the place and one for each rule. -/
def attributeMatches : List AttributeMatch :=
  [.identity s.identityKey s.missing, .location s.locationKey s.missing] ++
    s.rules.map s.ruleMatch

/-- No match insists on its attribute if and only if neither the policy nor a rule says so. -/
theorem forall_missing_ne_deny_iff :
    (∀ m ∈ s.attributeMatches, m.missing ≠ .deny) ↔
      s.missing ≠ .deny ∧ ∀ r ∈ s.rules, r.missing ≠ some .deny := by
  have hrule : s.missing ≠ .deny → ∀ r : Rule,
      (s.ruleMatch r).missing ≠ .deny ↔ r.missing ≠ some .deny := by
    intro hs r
    show r.missing.getD s.missing ≠ .deny ↔ _
    cases r.missing with
    | none => simpa using hs
    | some mode => simp
  unfold attributeMatches
  rw [List.forall_mem_append, List.forall_mem_map]
  constructor
  · rintro ⟨hbuiltin, hrules⟩
    have hs : s.missing ≠ .deny := hbuiltin _ List.mem_cons_self
    exact ⟨hs, fun r hr => (hrule hs r).1 (hrules r hr)⟩
  · rintro ⟨hs, hrules⟩
    refine ⟨?_, fun r hr => (hrule hs r).2 (hrules r hr)⟩
    simpa [AttributeMatch.identity, AttributeMatch.location] using hs

/-! ## The checks of settings -/

/-- The check of the tiers stands among the matches; all other checks are matches. -/
theorem mem_checks_iff (k : Check) :
    k ∈ s.checks ↔ k = s.tierCheck.toCheck ∨ ∃ m ∈ s.attributeMatches, m.toCheck = k := by
  rw [← List.mem_map, ← List.mem_cons]
  refine List.Perm.mem_iff ?_
  unfold checks attributeMatches
  rw [List.map_append, List.map_map]
  show ([_, _] ++ s.tierCheck.toCheck :: s.rules.map _).Perm (_ :: ([_, _] ++ s.rules.map _))
  exact List.perm_middle

theorem isDeny_tierCheck_iff (attributes : Attributes) (requester : Requester) :
    (s.tierCheck.judge attributes requester).isDeny = true ↔ ¬s.Cleared attributes requester :=
  s.tierCheck_enforces.denies attributes requester

/-- A document is admitted when it meets every match and the requester is cleared for it. -/
theorem admits_iff (attributes : Attributes) (requester : Requester) :
    (Filter.ofSettingsUnchecked s).admits attributes requester = true ↔
      (∀ m ∈ s.attributeMatches, m.Met attributes requester) ∧ s.Cleared attributes requester := by
  show s.checks.all _ = true ↔ _
  rw [List.all_eq_true]
  constructor
  · intro hall
    have hpasses : ∀ k ∈ s.checks, ¬(k.judge attributes requester).isDeny = true := fun k hk => by
      simpa using hall k hk
    constructor
    · intro m hm
      by_contra hn
      exact hpasses m.toCheck ((s.mem_checks_iff _).2 (.inr ⟨m, hm, rfl⟩))
        ((m.isDeny_judge_iff attributes requester).2 hn)
    · by_contra hn
      exact hpasses s.tierCheck.toCheck ((s.mem_checks_iff _).2 (.inl rfl))
        ((s.isDeny_tierCheck_iff attributes requester).2 hn)
  · rintro ⟨hmet, hcleared⟩ k hk
    rw [Bool.not_eq_true', ← Bool.not_eq_true]
    rcases (s.mem_checks_iff k).1 hk with rfl | ⟨m, hm, rfl⟩
    · exact fun hdeny => (s.isDeny_tierCheck_iff attributes requester).1 hdeny hcleared
    · exact fun hdeny => (m.isDeny_judge_iff attributes requester).1 hdeny (hmet m hm)

end PolicySettings

namespace Filter

variable {s : PolicySettings} (h : s.validate = .ok ())

include h

theorem ofSettings_of_validate : ofSettings s = .ok (ofSettingsUnchecked s) := by
  unfold ofSettings
  rw [h]
  rfl

theorem eq_of_ofSettings {f : Filter} (hf : ofSettings s = .ok f) : f = ofSettingsUnchecked s := by
  rw [ofSettings_of_validate h] at hf
  exact (Except.ok.inj hf).symm

end Filter

end ScopedRetrieval
