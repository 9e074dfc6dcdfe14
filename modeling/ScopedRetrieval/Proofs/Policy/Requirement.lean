/-
The policy as a list of requirements, and the filter that settings describe as its decision
procedure. A requirement is a name and a relation between a document and a requester, written
without verdicts and without an order of evaluation. Check by check the filter enforces the
requirements of its settings, so it admits a document exactly when all of them hold, and otherwise
names the first that does not.
-/
import ScopedRetrieval.Proofs.Policy.Evaluation
import Mathlib.Data.List.Forall2

namespace ScopedRetrieval

/-! ## Requirements -/

/-- What a policy asks of a document and a requester, under the name that a violation bears. -/
structure Requirement where
  name : String
  Holds : Attributes → Requester → Prop

/-- A claim, if there is one, meets the attribute: the attribute has its value, or there is no such
attribute and that is let pass. -/
def ClaimMet (attributeKey contextKey : String) (missing : MissingMode) (attributes : Attributes)
    (requester : Requester) : Prop :=
  requester.claim? contextKey = none ∨
    attributes.find? attributeKey = requester.claim? contextKey ∨
    (attributes.find? attributeKey = none ∧ missing = .noOpinion)

namespace PolicySettings

/-- A confidential document asks for a privileged department or a privileged identity, an internal
one for any identity. -/
def Cleared (s : PolicySettings) (attributes : Attributes) (requester : Requester) : Prop :=
  (attributes.find? s.sensitivityKey = some "confidential" →
    (∃ d ∈ s.privilegedDepartments, requester.claim? s.departmentKey = some d) ∨
      ∃ i ∈ s.privilegedIdentities, requester.claim? s.identityKey = some i) ∧
  (attributes.find? s.sensitivityKey = some "internal" →
    ∃ i, requester.claim? s.identityKey = some i)

/-- The requirements of a policy in the order in which they are looked at. -/
def requirements (s : PolicySettings) : List Requirement :=
  [⟨"identity", ClaimMet s.identityKey s.identityKey s.missing⟩,
    ⟨"location", ClaimMet s.locationKey s.locationKey s.missing⟩,
    ⟨"sensitivity", s.Cleared⟩] ++
  s.rules.map fun r =>
    ⟨r.name, ClaimMet r.attributeKey (r.contextKey.getD r.attributeKey)
      (r.missing.getD s.missing)⟩

end PolicySettings

/-! ## Checks that enforce them -/

/-- A check denies under the name of a requirement, exactly where that is violated. -/
structure Check.Enforces (k : Check) (r : Requirement) : Prop where
  name : k.name = r.name
  denies : ∀ attributes requester,
    (k.judge attributes requester).isDeny = true ↔ ¬r.Holds attributes requester

/-- A match denies exactly where the claim does not meet the attribute. -/
theorem AttributeMatch.enforces (m : AttributeMatch) :
    m.toCheck.Enforces ⟨m.name, ClaimMet m.attributeKey m.contextKey m.missing⟩ := by
  refine ⟨rfl, fun attributes requester => ?_⟩
  show (m.judge attributes requester).isDeny = true ↔ ¬ClaimMet _ _ _ attributes requester
  unfold judge ClaimMet
  cases requester.claim? m.contextKey with
  | none => simp [Verdict.isDeny, Verdict.veto?]
  | some required =>
    cases attributes.find? m.attributeKey with
    | none => cases m.missing <;> simp [Verdict.isDeny, Verdict.veto?]
    | some actual =>
      by_cases h : actual = required <;> simp [h, Verdict.isDeny, Verdict.veto?]

/-- A text stands for a tier exactly when it is the label of that tier. -/
theorem SensitivityTier.ofLabel?_eq_some_iff (text : String) (t : SensitivityTier) :
    ofLabel? text = some t ↔ text = t.label := by
  unfold ofLabel?
  constructor
  · intro h
    have := List.find?_some h
    exact (of_decide_eq_true this).symm
  · rintro rfl
    cases t <;> decide

theorem TierCheck.tier?_eq_some_iff (g : TierCheck) (attributes : Attributes)
    (t : SensitivityTier) :
    g.tier? attributes = some t ↔ attributes.find? g.attributeKey = some t.label := by
  unfold tier?
  rw [Option.bind_eq_some_iff]
  constructor
  · rintro ⟨text, htext, ht⟩
    rw [htext, (SensitivityTier.ofLabel?_eq_some_iff text t).1 ht]
  · intro h
    exact ⟨t.label, h, (SensitivityTier.ofLabel?_eq_some_iff _ t).2 rfl⟩

/-- The requester is privileged by a department or by an identity that is on the list. -/
theorem TierCheck.isPrivileged_iff (g : TierCheck) (requester : Requester) :
    g.isPrivileged requester = true ↔
      (∃ d ∈ g.privilegedDepartments, requester.claim? g.departmentKey = some d) ∨
        ∃ i ∈ g.privilegedIdentities, requester.claim? g.identityKey = some i := by
  unfold isPrivileged
  rw [Bool.or_eq_true, Option.any_eq_true, Option.any_eq_true]
  simp only [List.contains_iff_mem]
  constructor
  · rintro (⟨d, hd, hm⟩ | ⟨i, hi, hm⟩)
    · exact .inl ⟨d, hm, hd⟩
    · exact .inr ⟨i, hm, hi⟩
  · rintro (⟨d, hm, hd⟩ | ⟨i, hm, hi⟩)
    · exact .inl ⟨d, hd, hm⟩
    · exact .inr ⟨i, hi, hm⟩

theorem Requester.presents_iff (r : Requester) (key : String) :
    r.presents key = true ↔ ∃ v, r.claim? key = some v :=
  Option.isSome_iff_exists

/-- The check of tiers denies exactly the requesters who are not cleared. -/
theorem PolicySettings.tierCheck_enforces (s : PolicySettings) :
    s.tierCheck.toCheck.Enforces ⟨TierCheck.name, s.Cleared⟩ := by
  refine ⟨rfl, fun attributes requester => ?_⟩
  show (s.tierCheck.judge attributes requester).isDeny = true ↔ ¬s.Cleared attributes requester
  have hconf : attributes.find? s.sensitivityKey = some "confidential" ↔ _ :=
    (s.tierCheck.tier?_eq_some_iff attributes .confidential).symm
  have hint : attributes.find? s.sensitivityKey = some "internal" ↔ _ :=
    (s.tierCheck.tier?_eq_some_iff attributes .internal).symm
  have hpriv : _ ↔ (∃ d ∈ s.privilegedDepartments, requester.claim? s.departmentKey = some d) ∨
      ∃ i ∈ s.privilegedIdentities, requester.claim? s.identityKey = some i :=
    s.tierCheck.isPrivileged_iff requester
  have hid : requester.presents s.tierCheck.identityKey = true ↔
      ∃ i, requester.claim? s.identityKey = some i := requester.presents_iff _
  unfold TierCheck.judge Cleared
  rw [hconf, hint, ← hpriv, ← hid]
  -- from here on the verdict depends on the tier and on two facts about the requester
  generalize s.tierCheck.tier? attributes = tier
  generalize s.tierCheck.isPrivileged requester = privileged
  generalize requester.presents s.tierCheck.identityKey = known
  rcases tier with _ | tier
  · simp [Verdict.isDeny, Verdict.veto?]
  · cases tier <;> cases privileged <;> cases known <;> simp [Verdict.isDeny, Verdict.veto?]

/-- Check by check, the filter of settings enforces their requirements. -/
theorem PolicySettings.checks_enforce (s : PolicySettings) :
    List.Forall₂ Check.Enforces s.checks s.requirements := by
  unfold checks requirements
  refine List.rel_append (.cons ?_ (.cons ?_ (.cons ?_ .nil))) ?_
  · exact (AttributeMatch.identity s.identityKey s.missing).enforces
  · exact (AttributeMatch.location s.locationKey s.missing).enforces
  · exact s.tierCheck_enforces
  · rw [List.forall₂_map_left_iff, List.forall₂_map_right_iff, List.forall₂_same]
    exact fun r _ => (s.ruleMatch r).enforces

/-! ## The first violation -/

/-- The requirement `r` is the first in a list that a document and a requester violate. -/
def FirstViolated (requirements : List Requirement) (attributes : Attributes)
    (requester : Requester) (r : Requirement) : Prop :=
  ∃ before after, requirements = before ++ r :: after ∧
    (∀ q ∈ before, q.Holds attributes requester) ∧ ¬r.Holds attributes requester

theorem FirstViolated.not_forall {requirements : List Requirement} {attributes : Attributes}
    {requester : Requester} {r : Requirement}
    (h : FirstViolated requirements attributes requester r) :
    ¬∀ q ∈ requirements, q.Holds attributes requester := by
  obtain ⟨before, after, rfl, -, hr⟩ := h
  exact fun hall => hr (hall r (List.mem_append_right _ List.mem_cons_self))

/-- Checks that enforce requirements one by one deny nothing when all of them hold, and otherwise
put the first violated one on record. -/
theorem deniedBy_of_enforces {checks : List Check} {requirements : List Requirement}
    (h : List.Forall₂ Check.Enforces checks requirements) (attributes : Attributes)
    (requester : Requester) :
    (checks.findSome? (fun k => k.denial? attributes requester) = none ∧
      ∀ r ∈ requirements, r.Holds attributes requester) ∨
    ∃ r reason, FirstViolated requirements attributes requester r ∧
      checks.findSome? (fun k => k.denial? attributes requester) = some ⟨r.name, reason⟩ := by
  -- along the two lists at once: a check that does not deny leaves the decision to the rest
  induction h with
  | nil => exact .inl ⟨rfl, by simp⟩
  | @cons k r checks requirements hk _ ih =>
    have hdenies := hk.denies attributes requester
    rw [List.findSome?_cons, Check.denial?]
    cases hv : (k.judge attributes requester).veto? with
    | some reason =>
      have hr : ¬r.Holds attributes requester := hdenies.1 (by simp [Verdict.isDeny, hv])
      exact .inr ⟨r, reason, ⟨[], requirements, rfl, by simp, hr⟩, by simp [hk.name]⟩
    | none =>
      have hr : r.Holds attributes requester := by
        by_contra hn
        have := hdenies.2 hn
        simp [Verdict.isDeny, hv] at this
      rcases ih with ⟨hnone, hall⟩ | ⟨q, reason, ⟨before, after, rfl, hbefore, hq⟩, hsome⟩
      · exact .inl ⟨hnone, List.forall_mem_cons.2 ⟨hr, hall⟩⟩
      · exact .inr ⟨q, reason, ⟨r :: before, after, rfl, List.forall_mem_cons.2 ⟨hr, hbefore⟩, hq⟩,
          hsome⟩

/-! ## The configured filter -/

/-- Valid settings describe a filter. It admits a document for a requester exactly when every
requirement of the settings holds of them, its recorded decision says the same, and where it does
not admit, the denial bears the name of the first requirement that is violated. -/
theorem ofSettings_decides_requirements {s : PolicySettings} (h : s.validate = .ok ()) :
    ∃ f, Filter.ofSettings s = .ok f ∧ ∀ attributes requester,
      (f.admits attributes requester = true ↔
        ∀ r ∈ s.requirements, r.Holds attributes requester) ∧
      (f.evaluate attributes requester).isAdmitted = f.admits attributes requester ∧
      (f.admits attributes requester = false →
        ∃ r reason, FirstViolated s.requirements attributes requester r ∧
          (f.evaluate attributes requester).deniedBy = some ⟨r.name, reason⟩) := by
  refine ⟨Filter.ofSettingsUnchecked s, by simp [Filter.ofSettings, h, Except.map], ?_⟩
  intro attributes requester
  have hchecks : (Filter.ofSettingsUnchecked s).checks = s.checks := rfl
  have hadmits := (Filter.ofSettingsUnchecked s).isAdmitted_evaluate attributes requester
  rw [← hadmits, Decision.isAdmitted, Filter.evaluate_deniedBy, hchecks]
  rcases deniedBy_of_enforces s.checks_enforce attributes requester with
    ⟨hnone, hall⟩ | ⟨r, reason, hr, hsome⟩
  · rw [hnone]
    simpa using hall
  · rw [hsome]
    exact ⟨by simpa using hr.not_forall, rfl, fun _ => ⟨r, reason, hr, rfl⟩⟩

/-- Two rules: one that renames the claim and turns down documents without the attribute, and one
that leaves both to the defaults. -/
theorem ofSettings_decides_requirements_two_rules :
    let s : PolicySettings :=
      { rules := [⟨"team", "owner", some "team", some .deny⟩, ⟨"region", "region", none, none⟩] }
    s.validate = .ok () ∧ ∃ f, Filter.ofSettings s = .ok f ∧ ∀ attributes requester,
      (f.admits attributes requester = true ↔
        ∀ r ∈ s.requirements, r.Holds attributes requester) ∧
      (f.evaluate attributes requester).isAdmitted = f.admits attributes requester ∧
      (f.admits attributes requester = false →
        ∃ r reason, FirstViolated s.requirements attributes requester r ∧
          (f.evaluate attributes requester).deniedBy = some ⟨r.name, reason⟩) :=
  ⟨by decide, ofSettings_decides_requirements (by decide)⟩

end ScopedRetrieval
