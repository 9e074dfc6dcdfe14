/-
The keys that a policy names, and that nothing else is looked at. Each check reads the values under
its own keys only, so where two documents and two requesters have the same under all of these, the
whole decision on record is the same, every verdict with its reason (`evaluate_eq_of_agreeOn`), and
two such requesters are given and withheld the same documents.
-/
import ScopedRetrieval.Proofs.Policy.Admission
import ScopedRetrieval.Proofs.Retrieval.Partition

namespace ScopedRetrieval

/-- The maps have the same under each of the keys, a value or none. -/
def KeyMap.AgreeOn {β : Type} (m : KeyMap β) (keys : List String) (m' : KeyMap β) : Prop :=
  ∀ k ∈ keys, m.find? k = m'.find? k

theorem KeyMap.AgreeOn.refl {β : Type} (keys : List String) (m : KeyMap β) : m.AgreeOn keys m :=
  fun _ _ => rfl

/-! ## What a check reads -/

section

variable {attributes attributes' : Attributes} {requester requester' : Requester}

theorem AttributeMatch.judge_congr {m : AttributeMatch}
    (ha : attributes.find? m.attributeKey = attributes'.find? m.attributeKey)
    (hr : requester.claim? m.contextKey = requester'.claim? m.contextKey) :
    m.judge attributes requester = m.judge attributes' requester' := by
  unfold judge
  rw [ha, hr]

theorem TierCheck.judge_congr {g : TierCheck}
    (ha : attributes.find? g.attributeKey = attributes'.find? g.attributeKey)
    (hidentity : requester.claim? g.identityKey = requester'.claim? g.identityKey)
    (hdepartment : requester.claim? g.departmentKey = requester'.claim? g.departmentKey) :
    g.judge attributes requester = g.judge attributes' requester' := by
  have htier : g.tier? attributes = g.tier? attributes' := by
    unfold tier?
    rw [ha]
  have hprivileged : g.isPrivileged requester = g.isPrivileged requester' := by
    unfold isPrivileged
    rw [hidentity, hdepartment]
  have hpresents : requester.presents g.identityKey = requester'.presents g.identityKey :=
    congrArg Option.isSome hidentity
  unfold judge
  rw [htier, hprivileged, hpresents]

end

/-! ## The keys of a policy -/

namespace PolicySettings

variable (s : PolicySettings)

/-- The keys under which a policy looks for claims. -/
def claimKeys : List String :=
  [s.identityKey, s.locationKey, s.departmentKey] ++
    s.rules.map fun r => r.contextKey.getD r.attributeKey

/-- The keys under which a policy looks for attributes. -/
def attributeKeys : List String :=
  [s.identityKey, s.locationKey, s.sensitivityKey] ++ s.rules.map (·.attributeKey)

theorem keys_mem_of_mem_attributeMatches {m : AttributeMatch} (hm : m ∈ s.attributeMatches) :
    m.attributeKey ∈ s.attributeKeys ∧ m.contextKey ∈ s.claimKeys := by
  rcases List.mem_append.1 hm with hm | hm
  · rcases List.mem_pair.1 hm with rfl | rfl
    · exact ⟨by simp [attributeKeys, AttributeMatch.identity],
        by simp [claimKeys, AttributeMatch.identity]⟩
    · exact ⟨by simp [attributeKeys, AttributeMatch.location],
        by simp [claimKeys, AttributeMatch.location]⟩
  · obtain ⟨r, hr, rfl⟩ := List.mem_map.1 hm
    exact ⟨List.mem_append_right _ (List.mem_map_of_mem hr),
      List.mem_append_right _ (List.mem_map_of_mem hr)⟩

variable {s} {attributes attributes' : Attributes} {requester requester' : Requester}
  (ha : attributes.AgreeOn s.attributeKeys attributes')
  (hr : requester.claims.AgreeOn s.claimKeys requester'.claims)

include ha hr

theorem judge_eq_of_agreeOn {k : Check} (hk : k ∈ s.checks) :
    k.judge attributes requester = k.judge attributes' requester' := by
  rcases (s.mem_checks_iff k).1 hk with rfl | ⟨m, hm, rfl⟩
  · exact TierCheck.judge_congr (ha _ (by simp [attributeKeys, tierCheck]))
      (hr _ (by simp [claimKeys, tierCheck])) (hr _ (by simp [claimKeys, tierCheck]))
  · obtain ⟨hattribute, hclaim⟩ := s.keys_mem_of_mem_attributeMatches hm
    exact AttributeMatch.judge_congr (ha _ hattribute) (hr _ hclaim)

/-- The decision on record, with all its verdicts and reasons, is the same. -/
theorem evaluate_eq_of_agreeOn :
    (Filter.ofSettingsUnchecked s).evaluate attributes requester =
      (Filter.ofSettingsUnchecked s).evaluate attributes' requester' :=
  Filter.evaluate_congr fun _ hk => judge_eq_of_agreeOn ha hr hk

end PolicySettings

/-! ## Retrievals -/

/-- Of a filter that decides the same for two requesters both are given and withheld the same. -/
theorem Filter.admitted_denied_eq {f : Filter} {requester requester' : Requester}
    (h : ∀ attributes, f.evaluate attributes requester = f.evaluate attributes requester')
    (ds : List Document) : f.admitted requester ds = f.admitted requester' ds ∧
      f.denied requester ds = f.denied requester' ds := by
  have hdenial : f.denial? requester = f.denial? requester' := funext fun d =>
    congrArg Decision.deniedBy (h d.attributes)
  unfold admitted denied
  rw [hdenial]
  exact ⟨rfl, rfl⟩

/-- Under valid settings the decision depends on the keys that they name and on nothing else: where
two requesters have the same claims under these, and two documents the same attributes, the decision
is the same with all its verdicts and reasons. From a loaded index two such requesters are given the
same documents and withheld the same ones, with the same denials. -/
theorem decisions_depend_on_named_keys {s : PolicySettings} (h : s.validate = .ok ()) :
    ∃ f, Filter.ofSettings s = .ok f ∧ ∀ requester requester' : Requester,
      requester.claims.AgreeOn s.claimKeys requester'.claims →
      (∀ attributes attributes' : Attributes, attributes.AgreeOn s.attributeKeys attributes' →
        f.evaluate attributes requester = f.evaluate attributes' requester') ∧
      ∀ (i : Index) query query', i.loaded = true →
        ∃ o o', i.retrieve f query requester = .ok o ∧ i.retrieve f query' requester' = .ok o' ∧
          o.admitted = o'.admitted ∧ o.denied = o'.denied := by
  refine ⟨_, Filter.ofSettings_of_validate h, fun requester requester' hr => ⟨?_, ?_⟩⟩
  · intro attributes attributes' ha
    exact PolicySettings.evaluate_eq_of_agreeOn ha hr
  · intro i query query' hl
    have heq := Filter.admitted_denied_eq
      (fun attributes => PolicySettings.evaluate_eq_of_agreeOn (KeyMap.AgreeOn.refl _ attributes) hr)
      i.documents
    exact ⟨_, _, Index.retrieve_of_loaded hl _ query requester,
      Index.retrieve_of_loaded hl _ query' requester', heq⟩

/-- A claim and an attribute that no rule names do not count, also where a rule looks for its claim
under another key than for its attribute, and denies. -/
theorem decisions_depend_on_named_keys_unnamed_claim :
    let s : PolicySettings := { rules := [⟨"team", "owner", some "team", some .deny⟩] }
    let requester : Requester := .ofList [("user_id", "7"), ("team", "web")]
    let requester' := requester.withClaim "owner" "infra"
    let plan : Attributes := .ofList [("owner", "infra")]
    let plan' := plan.insert "team" "web"
    let i := Index.empty.replaceAll
      [⟨⟨"a", "plan", plan⟩, ⟨[]⟩⟩, ⟨⟨"b", "news", .ofList [("owner", "web")]⟩, ⟨[]⟩⟩]
    s.validate = .ok () ∧ requester.claims.AgreeOn s.claimKeys requester'.claims ∧
      plan.AgreeOn s.attributeKeys plan' ∧ i.loaded = true ∧
      ∃ f, Filter.ofSettings s = .ok f ∧
        f.evaluate plan requester = f.evaluate plan' requester' ∧
        (f.evaluate plan requester).isAdmitted = false ∧
        ∃ o o', i.retrieve f "q" requester = .ok o ∧ i.retrieve f "r" requester' = .ok o' ∧
          o.admitted = o'.admitted ∧ o.denied = o'.denied := by
  intro s requester requester' plan plan' i
  have hs : s.validate = .ok () := by decide
  have hr : requester.claims.AgreeOn s.claimKeys requester'.claims := by
    unfold KeyMap.AgreeOn
    decide
  have ha : plan.AgreeOn s.attributeKeys plan' := by
    unfold KeyMap.AgreeOn
    decide
  obtain ⟨f, hf, hall⟩ := decisions_depend_on_named_keys hs
  obtain rfl := Filter.eq_of_ofSettings hs hf
  obtain ⟨hdecision, hretrieval⟩ := hall requester requester' hr
  exact ⟨hs, hr, ha, rfl, _, hf, hdecision plan plan' ha, by decide, hretrieval i "q" "r" rfl⟩

end ScopedRetrieval
