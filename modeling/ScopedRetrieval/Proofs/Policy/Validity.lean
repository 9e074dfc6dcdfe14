/-
Which settings of a policy are valid, and what is wrong with the others. Settings are accepted
exactly when they are well-formed (`validate_eq_ok_iff`), and refused with their first fault, of the
keys and then of the rules (`validate_eq_error_iff`). The checks of accepted settings have names of
their own, so a denial tells which of them denied (`Filter.exists_check_of_mem_denied`).
-/
import ScopedRetrieval.Proofs.Policy.Admission
import ScopedRetrieval.Proofs.Retrieval.Partition
import ScopedRetrieval.Proofs.Text.Cutting
import Mathlib.Data.List.Nodup

namespace ScopedRetrieval

/-! ## One rule -/

namespace Rule

/-- Nothing that a rule needs is left blank. -/
structure FilledIn (r : Rule) : Prop where
  name : Text.trim r.name ≠ ""
  attributeKey : Text.trim r.attributeKey ≠ ""
  contextKey : ∀ key, r.contextKey = some key → Text.trim key ≠ ""

/-- The first thing that is wrong with a rule when the names `taken` are given away. -/
inductive FirstFault (taken : List String) (r : Rule) : PolicyFault → Prop where
  | incomplete (blank : Text.trim r.name = "" ∨ Text.trim r.attributeKey = "") :
    FirstFault taken r .incompleteRule
  | contextKey {key : String} (name : Text.trim r.name ≠ "")
    (attributeKey : Text.trim r.attributeKey ≠ "") (given : r.contextKey = some key)
    (blank : Text.trim key = "") : FirstFault taken r (.emptyContextKey r.name)
  | duplicate (filledIn : r.FilledIn) (mem : r.name ∈ taken) :
    FirstFault taken r (.duplicateRule r.name)

/-- Which names were given away counts, and not in which order. -/
theorem firstFault_congr {taken taken' : List String} (h : ∀ name, name ∈ taken ↔ name ∈ taken')
    (r : Rule) (fault : PolicyFault) : r.FirstFault taken fault ↔ r.FirstFault taken' fault := by
  constructor
  · rintro (blank | ⟨name, attributeKey, given, blank⟩ | ⟨filledIn, mem⟩)
    · exact .incomplete blank
    · exact .contextKey name attributeKey given blank
    · exact .duplicate filledIn ((h _).1 mem)
  · rintro (blank | ⟨name, attributeKey, given, blank⟩ | ⟨filledIn, mem⟩)
    · exact .incomplete blank
    · exact .contextKey name attributeKey given blank
    · exact .duplicate filledIn ((h _).2 mem)

theorem any_isBlank_contextKey_iff (r : Rule) : r.contextKey.any Text.isBlank = true ↔
    ∃ key, r.contextKey = some key ∧ Text.trim key = "" := by
  simp only [Option.any_eq_true, Text.isBlank_iff]

end Rule

namespace PolicySettings

theorem ruleFault?_eq_none_iff (taken : List String) (r : Rule) :
    ruleFault? taken r = none ↔ r.FilledIn ∧ r.name ∉ taken := by
  unfold ruleFault?
  simp only [Text.isBlank_iff, r.any_isBlank_contextKey_iff]
  constructor
  · intro h
    split at h
    · cases h
    rename_i hfilled
    split at h
    · cases h
    rename_i hcontext
    split at h
    · cases h
    rename_i hfree
    obtain ⟨hname, hattribute⟩ := not_or.1 hfilled
    exact ⟨⟨hname, hattribute, fun key hkey hblank => hcontext ⟨key, hkey, hblank⟩⟩, hfree⟩
  · rintro ⟨⟨hname, hattribute, hcontext⟩, hfree⟩
    rw [if_neg (not_or_intro hname hattribute), if_neg, if_neg hfree]
    rintro ⟨key, hkey, hblank⟩
    exact hcontext key hkey hblank

theorem ruleFault?_eq_some_iff (taken : List String) (r : Rule) (fault : PolicyFault) :
    ruleFault? taken r = some fault ↔ r.FirstFault taken fault := by
  unfold ruleFault?
  simp only [Text.isBlank_iff, r.any_isBlank_contextKey_iff]
  constructor
  · intro h
    split at h
    · rename_i hblank
      cases h
      exact .incomplete hblank
    rename_i hfilled
    obtain ⟨hname, hattribute⟩ := not_or.1 hfilled
    split at h
    · rename_i hcontext
      cases h
      obtain ⟨key, hkey, hblank⟩ := hcontext
      exact .contextKey hname hattribute hkey hblank
    rename_i hcontext
    split at h
    · rename_i htaken
      cases h
      exact .duplicate ⟨hname, hattribute, fun key hkey hblank => hcontext ⟨key, hkey, hblank⟩⟩
        htaken
    · cases h
  · rintro (hblank | ⟨hname, hattribute, hkey, hblank⟩ | ⟨⟨hname, hattribute, hcontext⟩, htaken⟩)
    · rw [if_pos hblank]
    · rw [if_neg (not_or_intro hname hattribute), if_pos ⟨_, hkey, hblank⟩]
    · rw [if_neg (not_or_intro hname hattribute), if_neg, if_pos htaken]
      rintro ⟨key, hkey, hblank⟩
      exact hcontext key hkey hblank

/-! ## Rules in their order -/

/-- Rules with names of their own, which are not among `taken`, and nothing left blank. -/
structure RulesFit (taken : List String) (rules : List Rule) : Prop where
  filledIn : ∀ r ∈ rules, r.FilledIn
  distinct : (rules.map (·.name)).Nodup
  free : ∀ r ∈ rules, r.name ∉ taken

theorem rulesFit_nil (taken : List String) : RulesFit taken [] := ⟨nofun, .nil, nofun⟩

theorem rulesFit_cons_iff (taken : List String) (r : Rule) (rest : List Rule) :
    RulesFit taken (r :: rest) ↔
      (r.FilledIn ∧ r.name ∉ taken) ∧ RulesFit (r.name :: taken) rest := by
  constructor
  · rintro ⟨hfilled, hdistinct, hfree⟩
    obtain ⟨hr, hrest⟩ := List.forall_mem_cons.1 hfilled
    obtain ⟨hrFree, hrestFree⟩ := List.forall_mem_cons.1 hfree
    obtain ⟨hnew, hrestDistinct⟩ := List.nodup_cons.1 hdistinct
    refine ⟨⟨hr, hrFree⟩, hrest, hrestDistinct, fun q hq hmem => ?_⟩
    rcases List.mem_cons.1 hmem with heq | hmem
    · exact hnew (List.mem_map.2 ⟨q, hq, heq⟩)
    · exact hrestFree q hq hmem
  · rintro ⟨⟨hr, hrFree⟩, hrest, hrestDistinct, hrestFree⟩
    constructor
    case filledIn => exact List.forall_mem_cons.2 ⟨hr, hrest⟩
    case distinct =>
      refine List.nodup_cons.2 ⟨fun hmem => ?_, hrestDistinct⟩
      obtain ⟨q, hq, heq⟩ := List.mem_map.1 hmem
      exact hrestFree q hq (heq ▸ List.mem_cons_self)
    case free =>
      refine List.forall_mem_cons.2 ⟨hrFree, fun q hq hmem => ?_⟩
      exact hrestFree q hq (List.mem_cons_of_mem _ hmem)

theorem rulesFault?_eq_none_iff (taken : List String) (rules : List Rule) :
    rulesFault? taken rules = none ↔ RulesFit taken rules := by
  induction rules generalizing taken with
  | nil => exact iff_of_true rfl (rulesFit_nil taken)
  | cons r rest ih =>
    rw [rulesFault?, Option.or_eq_none_iff, ruleFault?_eq_none_iff, ih, rulesFit_cons_iff]

/-- The fault is that of the first faulty rule, behind rules that fit. -/
theorem rulesFault?_eq_some_iff (taken : List String) (rules : List Rule) (fault : PolicyFault) :
    rulesFault? taken rules = some fault ↔ ∃ before r after, rules = before ++ r :: after ∧
      RulesFit taken before ∧ r.FirstFault (taken ++ before.map (·.name)) fault := by
  induction rules generalizing taken with
  | nil => simp [rulesFault?]
  | cons q rest ih =>
    -- a name that is given away by `q` stands in front of the others in the recursion
    have hnames : ∀ (before : List Rule) (r : Rule),
        r.FirstFault (q.name :: taken ++ before.map (·.name)) fault ↔
          r.FirstFault (taken ++ (q :: before).map (·.name)) fault := fun before r =>
      Rule.firstFault_congr (fun name => by simp [or_left_comm]) r fault
    rw [rulesFault?, Option.or_eq_some_iff, ruleFault?_eq_some_iff, ruleFault?_eq_none_iff, ih]
    constructor
    · rintro (hq | ⟨hq, before, r, after, rfl, hbefore, hr⟩)
      · exact ⟨[], q, rest, rfl, rulesFit_nil taken, by simpa using hq⟩
      · exact ⟨q :: before, r, after, rfl, (rulesFit_cons_iff ..).2 ⟨hq, hbefore⟩,
          (hnames before r).1 hr⟩
    · rintro ⟨before, r, after, hrules, hbefore, hr⟩
      cases before with
      | nil =>
        cases hrules
        exact .inl (by simpa using hr)
      | cons q' before =>
        cases hrules
        obtain ⟨hq, hbefore⟩ := (rulesFit_cons_iff ..).1 hbefore
        exact .inr ⟨hq, before, r, after, rfl, hbefore, (hnames before r).2 hr⟩

/-! ## Settings -/

/-- Every key is filled in, and the rules fit beside the built-in checks. -/
structure WellFormed (s : PolicySettings) : Prop where
  identityKey : Text.trim s.identityKey ≠ ""
  locationKey : Text.trim s.locationKey ≠ ""
  departmentKey : Text.trim s.departmentKey ≠ ""
  sensitivityKey : Text.trim s.sensitivityKey ≠ ""
  rules : RulesFit ["identity", "location", "sensitivity"] s.rules

/-- The first thing that is wrong with settings: a key, or a rule behind keys that are filled in. -/
inductive FirstFault (s : PolicySettings) : PolicyFault → Prop where
  | key {before after : List (String × String)} {field value : String}
    (keys : s.requiredKeys = before ++ (field, value) :: after)
    (filledIn : ∀ k ∈ before, Text.trim k.2 ≠ "") (blank : Text.trim value = "") :
    FirstFault s (.emptyKey field)
  | rule {before after : List Rule} {r : Rule} {fault : PolicyFault}
    (filledIn : ∀ k ∈ s.requiredKeys, Text.trim k.2 ≠ "")
    (rules : s.rules = before ++ r :: after)
    (fit : RulesFit ["identity", "location", "sensitivity"] before)
    (faulty : r.FirstFault (["identity", "location", "sensitivity"] ++ before.map (·.name)) fault) :
    FirstFault s fault

variable (s : PolicySettings)

theorem keysFault?_eq_none_iff :
    s.keysFault? = none ↔ ∀ k ∈ s.requiredKeys, Text.trim k.2 ≠ "" := by
  unfold keysFault?
  rw [Option.map_eq_none_iff, List.find?_eq_none]
  simp only [Text.isBlank_iff]

theorem keysFault?_eq_some_iff (fault : PolicyFault) :
    s.keysFault? = some fault ↔ ∃ before field value after,
      s.requiredKeys = before ++ (field, value) :: after ∧
        (∀ k ∈ before, Text.trim k.2 ≠ "") ∧ Text.trim value = "" ∧ fault = .emptyKey field := by
  unfold keysFault?
  rw [Option.map_eq_some_iff]
  constructor
  · rintro ⟨⟨field, value⟩, hfind, rfl⟩
    obtain ⟨hblank, before, after, hkeys, hbefore⟩ := List.find?_eq_some_iff_append.1 hfind
    refine ⟨before, field, value, after, hkeys, fun k hk => ?_, (Text.isBlank_iff value).1 hblank,
      rfl⟩
    rw [Ne, ← Text.isBlank_iff]
    simpa using hbefore k hk
  · rintro ⟨before, field, value, after, hkeys, hbefore, hblank, rfl⟩
    refine ⟨(field, value), List.find?_eq_some_iff_append.2 ⟨(Text.isBlank_iff value).2 hblank,
      before, after, hkeys, fun k hk => ?_⟩, rfl⟩
    have hfilled := hbefore k hk
    rw [Ne, ← Text.isBlank_iff] at hfilled
    simpa using hfilled

theorem wellFormed_iff : s.WellFormed ↔ (∀ k ∈ s.requiredKeys, Text.trim k.2 ≠ "") ∧
    RulesFit builtinNames s.rules := by
  have hkeys : (∀ k ∈ s.requiredKeys, Text.trim k.2 ≠ "") ↔ Text.trim s.identityKey ≠ "" ∧
      Text.trim s.locationKey ≠ "" ∧ Text.trim s.departmentKey ≠ "" ∧
        Text.trim s.sensitivityKey ≠ "" := by
    simp [requiredKeys]
  rw [hkeys]
  constructor
  · rintro ⟨hidentity, hlocation, hdepartment, hsensitivity, hrules⟩
    exact ⟨⟨hidentity, hlocation, hdepartment, hsensitivity⟩, hrules⟩
  · rintro ⟨⟨hidentity, hlocation, hdepartment, hsensitivity⟩, hrules⟩
    exact ⟨hidentity, hlocation, hdepartment, hsensitivity, hrules⟩

theorem validate_eq_ok_iff : s.validate = .ok () ↔ s.WellFormed := by
  have hfault : s.validate = .ok () ↔ s.fault? = none := by
    unfold validate
    cases s.fault? <;> simp
  rw [hfault, fault?, Option.or_eq_none_iff, keysFault?_eq_none_iff, rulesFault?_eq_none_iff,
    wellFormed_iff]

theorem validate_eq_error_iff (fault : PolicyFault) :
    s.validate = .error fault ↔ s.FirstFault fault := by
  have hfault : s.validate = .error fault ↔ s.fault? = some fault := by
    unfold validate
    cases s.fault? <;> simp
  rw [hfault, fault?, Option.or_eq_some_iff, keysFault?_eq_none_iff, keysFault?_eq_some_iff,
    rulesFault?_eq_some_iff]
  constructor
  · rintro (⟨before, field, value, after, hkeys, hbefore, hblank, rfl⟩ |
      ⟨hkeys, before, r, after, hrules, hbefore, hr⟩)
    · exact .key hkeys hbefore hblank
    · exact .rule hkeys hrules hbefore hr
  · rintro (⟨hkeys, hbefore, hblank⟩ | ⟨hkeys, hrules, hbefore, hr⟩)
    · exact .inl ⟨_, _, _, _, hkeys, hbefore, hblank, rfl⟩
    · exact .inr ⟨hkeys, _, _, _, hrules, hbefore, hr⟩

end PolicySettings

/-! ## Names of checks -/

namespace Filter

theorem checkNames_ofSettingsUnchecked (s : PolicySettings) :
    (ofSettingsUnchecked s).checkNames =
      ["identity", "location", "sensitivity"] ++ s.rules.map (·.name) := by
  show s.checks.map (·.name) = _
  unfold PolicySettings.checks
  rw [List.map_append, List.map_map]
  rfl

theorem nodup_checkNames {s : PolicySettings} (h : s.WellFormed) :
    (ofSettingsUnchecked s).checkNames.Nodup := by
  rw [checkNames_ofSettingsUnchecked]
  refine List.nodup_append.2 ⟨by decide, h.rules.distinct, fun name hbuiltin name' hrule heq => ?_⟩
  obtain ⟨r, hr, hname⟩ := List.mem_map.1 hrule
  exact h.rules.free r hr (by rwa [hname, ← heq])

/-- Among checks with names of their own, a denial tells which one of them denied the document. -/
theorem exists_check_of_mem_denied {f : Filter} (hnames : f.checkNames.Nodup)
    {requester : Requester} {ds : List Document} {r : DeniedDocument}
    (hr : r ∈ f.denied requester ds) :
    ∃ d ∈ ds, d.id = r.id ∧ ∃ k ∈ f.checks,
      k.judge d.attributes requester = .deny r.denial.reason ∧
        ∀ k' ∈ f.checks, k'.name = r.denial.check ↔ k' = k := by
  obtain ⟨d, hd, hid, hdenied⟩ := (f.mem_denied_iff requester ds r).1 hr
  rw [evaluate_deniedBy] at hdenied
  obtain ⟨k, hk, hdenial⟩ := List.exists_of_findSome?_eq_some hdenied
  obtain ⟨reason, hveto, heq⟩ := Option.map_eq_some_iff.1 hdenial
  have hname : k.name = r.denial.check := congrArg Denial.check heq
  have hreason : reason = r.denial.reason := congrArg Denial.reason heq
  refine ⟨d, hd, hid, k, hk, ?_, fun k' hk' => ⟨fun hname' => ?_, fun heq' => ?_⟩⟩
  · rw [(Verdict.veto?_eq_some_iff _ _).1 hveto, hreason]
  · exact List.inj_on_of_nodup_map hnames hk' hk (hname'.trans hname.symm)
  · rw [heq', hname]

theorem ofSettings_eq_error_iff (s : PolicySettings) (fault : PolicyFault) :
    ofSettings s = .error fault ↔ s.validate = .error fault := by
  unfold ofSettings
  cases s.validate <;> simp [Except.map]

theorem exists_ofSettings_eq_ok_iff (s : PolicySettings) :
    (∃ f, ofSettings s = .ok f) ↔ s.validate = .ok () := by
  unfold ofSettings
  cases s.validate <;> simp [Except.map]

end Filter

/-- Settings are accepted, and describe a filter, exactly when they are well-formed; otherwise both
report the first fault, of the keys and then of the rules in their order. The filter of accepted
settings has the built-in checks and then one for each rule, all with names of their own, so every
denial in a retrieval bears the name of exactly one check, the one that denied the document. -/
theorem settings_accepted_iff_wellFormed (s : PolicySettings) :
    (s.validate = .ok () ↔ s.WellFormed) ∧
    (∀ fault, s.validate = .error fault ↔ s.FirstFault fault) ∧
    ((∃ f, Filter.ofSettings s = .ok f) ↔ s.WellFormed) ∧
    (∀ fault, Filter.ofSettings s = .error fault ↔ s.FirstFault fault) ∧
    ∀ f, Filter.ofSettings s = .ok f →
      f.checkNames = ["identity", "location", "sensitivity"] ++ s.rules.map (·.name) ∧
      f.checkNames.Nodup ∧
      ∀ (i : Index) query requester o, i.retrieve f query requester = .ok o → ∀ r ∈ o.denied,
        ∃ d ∈ i.documents, d.id = r.id ∧ ∃ k ∈ f.checks,
          k.judge d.attributes requester = .deny r.denial.reason ∧
            ∀ k' ∈ f.checks, k'.name = r.denial.check ↔ k' = k := by
  refine ⟨s.validate_eq_ok_iff, s.validate_eq_error_iff, ?_, fun fault => ?_, fun f hf => ?_⟩
  · rw [Filter.exists_ofSettings_eq_ok_iff, s.validate_eq_ok_iff]
  · rw [Filter.ofSettings_eq_error_iff, s.validate_eq_error_iff]
  · have hvalid := (Filter.exists_ofSettings_eq_ok_iff s).1 ⟨f, hf⟩
    obtain rfl := Filter.eq_of_ofSettings hvalid hf
    have hnodup := Filter.nodup_checkNames (s.validate_eq_ok_iff.1 hvalid)
    refine ⟨Filter.checkNames_ofSettingsUnchecked s, hnodup, ?_⟩
    intro i query requester o ho r hr
    rw [Index.eq_record_of_retrieve ho] at hr
    exact Filter.exists_check_of_mem_denied hnodup hr

/-- Two rules beside the built-in checks, of which one denies; and two rules of which the second has
a blank key for its claim as well as a name that is taken, so the key is reported. -/
theorem settings_accepted_iff_wellFormed_two_rules :
    let s : PolicySettings :=
      { rules := [⟨"team", "owner", some "team", some .deny⟩, ⟨"region", "region", none, none⟩] }
    let faulty : PolicySettings :=
      { rules := [⟨"team", "owner", none, none⟩, ⟨"identity", "owner", some "\u2003", none⟩] }
    let i := Index.empty.replaceAll [⟨⟨"a", "plan", .ofList [("owner", "web")]⟩, ⟨[]⟩⟩]
    let requester : Requester := .ofList [("team", "infra")]
    let denial : Denial := ⟨"team", AttributeMatch.mismatchReason "owner" "web" "infra"⟩
    s.WellFormed ∧ faulty.FirstFault (.emptyContextKey "identity") ∧
      ∃ f, Filter.ofSettings s = .ok f ∧
        f.checkNames = ["identity", "location", "sensitivity", "team", "region"] ∧
        ∃ o, i.retrieve f "q" requester = .ok o ∧ ⟨"a", denial⟩ ∈ o.denied ∧
          ∃ d ∈ i.documents, d.id = "a" ∧ ∃ k ∈ f.checks,
            k.judge d.attributes requester = .deny denial.reason ∧
              ∀ k' ∈ f.checks, k'.name = "team" ↔ k' = k := by
  intro s faulty i requester denial
  obtain ⟨hvalid, -, -, -, hall⟩ := settings_accepted_iff_wellFormed s
  obtain ⟨-, hfault, -⟩ := settings_accepted_iff_wellFormed faulty
  have hs : s.validate = .ok () := by decide
  have hf := Filter.ofSettings_of_validate hs
  obtain ⟨hnames, -, hdenials⟩ := hall _ hf
  have ho := Index.retrieve_of_loaded (i := i) rfl (.ofSettingsUnchecked s) "q" requester
  have hmem : ⟨"a", denial⟩ ∈ (i.record (.ofSettingsUnchecked s) "q" requester).denied := by decide
  exact ⟨hvalid.1 hs, (hfault _).1 (by decide), _, hf, hnames, _, ho, hmem,
    hdenials i "q" requester _ ho _ hmem⟩

end ScopedRetrieval
