/-
Configurations of which a document gives only a part. Whatever is removed from the document of a
configuration, what is left is read as the configuration with the defaults in its place, those of a
section where the whole section is removed, and with rules that do not say it (`ofToml_left`); only
a rule that is left without its name or its attribute cannot be read (`ofToml_incomplete`). Where
nothing is removed every field is written, so no default takes the place of a value
(`ofToml_toToml`).
-/
import ScopedRetrieval.Configuration.Coding
import ScopedRetrieval.Proofs.Toml.Removal

namespace ScopedRetrieval

open Toml (Value Table Removal)

/-! ## Fields -/

namespace Toml.Value

theorem natural?_ofNat {limit n : Nat} (h : n < limit) :
    (Value.ofNat n).natural? limit = some n := by
  have hrange : 0 ≤ (n : Int) ∧ (n : Int) < limit := by omega
  rw [ofNat, natural?, if_pos hrange, Int.toNat_natCast]

theorem word?_ofNat (n : UInt64) : (Value.ofNat n.toNat).word? = some n := by
  rw [word?, natural?_ofNat n.toNat_lt, Option.map_some, UInt64.ofNat_toNat]

theorem halfWord?_ofNat (n : UInt16) : (Value.ofNat n.toNat).halfWord? = some n := by
  rw [halfWord?, natural?_ofNat n.toNat_lt, Option.map_some, UInt16.ofNat_toNat]

theorem texts_ofStrings (l : List String) : (Value.ofStrings l).list? string? = some l :=
  list?_map fun _ _ => rfl

theorem missingMode?_label (mode : MissingMode) :
    (Value.string mode.label).missingMode? = some mode := by
  cases mode <;> rfl

end Toml.Value

variable (processors : UInt64) (removed : Removal)

/-! ## Defaults for what is removed -/

/-- The rule without what is removed. -/
def Rule.reset (r : Rule) : Rule :=
  { r with
    contextKey := removed.keepOr "context_key" none r.contextKey
    missing := removed.keepOr "missing_attribute" none r.missing }

def PolicySettings.reset (s : PolicySettings) : PolicySettings :=
  let d : PolicySettings := {}
  let texts (key : String) (l : List String) :=
    (removed.inside (.field key)).keptItems (fun _ text => text) 0 l
  { identityKey := removed.keepOr "identity_key" d.identityKey s.identityKey
    locationKey := removed.keepOr "location_key" d.locationKey s.locationKey
    departmentKey := removed.keepOr "department_key" d.departmentKey s.departmentKey
    sensitivityKey := removed.keepOr "sensitivity_key" d.sensitivityKey s.sensitivityKey
    privilegedDepartments := removed.keepOr "privileged_departments" d.privilegedDepartments
      (texts "privileged_departments" s.privilegedDepartments)
    privilegedIdentities := removed.keepOr "privileged_identities" d.privilegedIdentities
      (texts "privileged_identities" s.privilegedIdentities)
    missing := removed.keepOr "missing_attribute" d.missing s.missing
    rules := removed.keepOr "rules" d.rules
      ((removed.inside (.field "rules")).keptItems Rule.reset 0 s.rules) }

def EmbeddingSettings.reset (s : EmbeddingSettings) : EmbeddingSettings :=
  let d : EmbeddingSettings := {}
  { backend := removed.keepOr "provider" d.backend s.backend
    dimension := removed.keepOr "dimension" d.dimension s.dimension
    host := removed.keepOr "host" d.host s.host
    port := removed.keepOr "port" d.port s.port
    model := removed.keepOr "model" d.model s.model
    requestTimeoutSecs := removed.keepOr "request_timeout_secs" d.requestTimeoutSecs
      s.requestTimeoutSecs }

def LoaderSettings.reset (s : LoaderSettings) : LoaderSettings :=
  let d := builtIn processors
  { concurrency := removed.keepOr "concurrency" d.concurrency s.concurrency
    providerTimeoutMs := removed.keepOr "provider_timeout_ms" d.providerTimeoutMs
      s.providerTimeoutMs }

def PromptSettings.reset (s : PromptSettings) : PromptSettings :=
  let d : PromptSettings := {}
  { maxTokens := removed.keepOr "max_context_tokens" d.maxTokens s.maxTokens
    includeAttributes := removed.keepOr "include_attributes" d.includeAttributes
      s.includeAttributes }

/-- The configuration with the defaults for the fields and sections that are removed. -/
def Configuration.reset (c : Configuration) : Configuration :=
  let d := builtIn processors
  { policy := removed.keepOr "policy" d.policy (c.policy.reset (removed.inside (.field "policy")))
    embedding := removed.keepOr "embedding" d.embedding
      (c.embedding.reset (removed.inside (.field "embedding")))
    loader := removed.keepOr "loader" d.loader
      (c.loader.reset processors (removed.inside (.field "loader")))
    prompt := removed.keepOr "context" d.prompt
      (c.prompt.reset (removed.inside (.field "context")))
    logLevel := removed.keepOr "logging" d.logLevel
      ((removed.inside (.field "logging")).keepOr "level" d.logLevel c.logLevel) }

/-- Nothing that a rule must have is removed. -/
def Rule.IsLeft : Prop := removed [.field "name"] = false ∧ removed [.field "attribute"] = false

/-- Every rule that is left has its name and the attribute that it is about. -/
def PolicySettings.KeepsRules (s : PolicySettings) : Prop :=
  removed [.field "rules"] = false → ∀ i < s.rules.length,
    removed [.field "rules", .item i] = false →
      Rule.IsLeft ((removed.inside (.field "rules")).inside (.item i))

def Configuration.KeepsRules (c : Configuration) : Prop :=
  removed [.field "policy"] = false → c.policy.KeepsRules (removed.inside (.field "policy"))

instance (s : PolicySettings) : Decidable (s.KeepsRules removed) :=
  inferInstanceAs (Decidable (_ → ∀ i < s.rules.length, _ → _ ∧ _))

instance (c : Configuration) : Decidable (c.KeepsRules removed) :=
  inferInstanceAs (Decidable (_ → c.policy.KeepsRules _))

variable {processors} {removed}

/-! ## Reading what is left -/

theorem Toml.Value.texts_without (l : List String) :
    ((Value.ofStrings l).without removed).list? Value.string? =
      some (removed.keptItems (fun _ text => text) 0 l) := by
  have hmap : removed.keptItems (fun r text => (Value.string text).without r) 0 l =
      (removed.keptItems (fun _ text => text) 0 l).map Value.string := by
    rw [Removal.map_keptItems]
    rfl
  rw [ofStrings, Value.without, itemsWithout_eq_keptItems, Removal.keptItems_map, hmap, ← ofStrings]
  exact texts_ofStrings _

namespace Rule

theorem lookup_toToml (r : Rule) :
    r.toToml.fields.lookup "name" = some (.string r.name) ∧
      r.toToml.fields.lookup "attribute" = some (.string r.attributeKey) ∧
      r.toToml.fields.lookup "context_key" = r.contextKey.map .string ∧
      r.toToml.fields.lookup "missing_attribute" =
        r.missing.map fun mode => .string mode.label := by
  obtain ⟨name, attributeKey, contextKey, missing⟩ := r
  cases contextKey <;> cases missing <;> exact ⟨rfl, rfl, rfl, rfl⟩

/-- What is left of a rule is read, unless its name or its attribute is removed. -/
theorem ofToml_without (r : Rule) :
    ofToml (r.toToml.without removed) =
      if removed [.field "name"] then .error (.missing "name")
      else if removed [.field "attribute"] then .error (.missing "attribute")
      else .ok (r.reset removed) := by
  obtain ⟨hname, hattribute, hcontext, hmissing⟩ := r.lookup_toToml
  have hname := Table.need_without removed _ _ hname (Toml.string?_without r.name)
  have hattribute := Table.need_without removed _ _ hattribute
    (Toml.string?_without r.attributeKey)
  have hcontext := Table.need?_without removed _ _ hcontext Toml.string?_without
  have hmissing := Table.need?_without removed _ _ hmissing Value.missingMode?_label
  have hfields : r.toToml.without removed = .table (Table.without r.toToml.fields removed) :=
    Toml.without_table _
  rw [hfields]
  simp only [ofToml, Value.record?, hname, hattribute, hcontext, hmissing]
  split
  · rfl
  · split <;> rfl

/-- Rules from a position on, each of which has what a rule must have, unless it is removed. -/
theorem mapM_ofToml_without (removed : Removal) (position : Nat) (rules : List Rule)
    (h : ∀ i < rules.length, removed [.item (position + i)] = false →
      IsLeft (removed.inside (.item (position + i)))) :
    (removed.keptItems (fun r rule => rule.toToml.without r) position rules).mapM ofToml =
      .ok (removed.keptItems reset position rules) := by
  induction rules generalizing position with
  | nil => rfl
  | cons rule rules ih =>
    have hrest := ih (position + 1) fun i hi => by
      have hi := h (i + 1) (Nat.succ_lt_succ hi)
      rwa [Nat.add_comm i 1, ← Nat.add_assoc] at hi
    rw [Removal.keptItems, Removal.keptItems]
    cases hposition : removed [.item position] with
    | true => exact hrest
    | false =>
      obtain ⟨hname, hattribute⟩ := h 0 (Nat.succ_pos _) hposition
      rw [Nat.add_zero] at hname hattribute
      simp only [Bool.false_eq_true, if_false, List.mapM_cons]
      rw [ofToml_without, hname, hattribute, hrest]
      rfl

/-- The first rule that is left without its name or its attribute ends the reading. -/
theorem mapM_ofToml_without_incomplete (removed : Removal) (position : Nat) (rules : List Rule)
    (h : ∃ i < rules.length, removed [.item (position + i)] = false ∧
      ¬IsLeft (removed.inside (.item (position + i)))) :
    ∃ field ∈ ["name", "attribute"],
      (removed.keptItems (fun r rule => rule.toToml.without r) position rules).mapM ofToml =
        .error (.missing field) := by
  induction rules generalizing position with
  | nil => simp at h
  | cons rule rules ih =>
    obtain ⟨i, hi, hleft, hincomplete⟩ := h
    have hrest : 0 < i → ∃ field ∈ ["name", "attribute"],
        (removed.keptItems (fun r rule => rule.toToml.without r) (position + 1) rules).mapM ofToml =
          .error (.missing field) := by
      intro hpos
      have hplace : position + i = position + 1 + (i - 1) := by omega
      rw [hplace] at hleft hincomplete
      exact ih _ ⟨i - 1, by simp only [List.length_cons] at hi; omega, hleft, hincomplete⟩
    rw [Removal.keptItems]
    cases hposition : removed [.item position] with
    | true =>
      refine hrest (Nat.pos_of_ne_zero ?_)
      rintro rfl
      exact Bool.false_ne_true (hleft.symm.trans hposition)
    | false =>
      simp only [Bool.false_eq_true, if_false, List.mapM_cons]
      rw [ofToml_without]
      by_cases hname : (removed.inside (.item position)) [.field "name"] = true
      · exact ⟨"name", by simp, by rw [if_pos hname]; rfl⟩
      by_cases hattribute : (removed.inside (.item position)) [.field "attribute"] = true
      · exact ⟨"attribute", by simp, by rw [if_neg hname, if_pos hattribute]; rfl⟩
      have hpos : 0 < i := by
        refine Nat.pos_of_ne_zero ?_
        rintro rfl
        exact hincomplete ⟨Bool.eq_false_iff.2 hname, Bool.eq_false_iff.2 hattribute⟩
      obtain ⟨field, hfield, herror⟩ := hrest hpos
      refine ⟨field, hfield, ?_⟩
      rw [if_neg hname, if_neg hattribute, herror]
      rfl

theorem listOfToml_without (rules : List Rule) :
    listOfToml ((Value.array (rules.map toToml)).without removed) =
      (removed.keptItems (fun r rule => rule.toToml.without r) 0 rules).mapM ofToml := by
  rw [Value.without, Toml.itemsWithout_eq_keptItems, Removal.keptItems_map]
  rfl

end Rule

theorem PolicySettings.ofToml_without (s : PolicySettings) :
    PolicySettings.ofToml (.table (s.toToml.without removed)) =
      (if removed [.field "rules"] then .ok []
        else Rule.listOfToml ((Value.array (s.rules.map Rule.toToml)).without
          (removed.inside (.field "rules")))).map
        fun rules => { s.reset removed with rules } := by
  have hidentity := Table.text_without removed s.toToml "identity_key" rfl
  have hlocation := Table.text_without removed s.toToml "location_key" rfl
  have hdepartment := Table.text_without removed s.toToml "department_key" rfl
  have hsensitivity := Table.text_without removed s.toToml "sensitivity_key" rfl
  have hdepartments := Table.needOr_without removed s.toToml "privileged_departments" rfl
    (Value.texts_without s.privilegedDepartments)
  have hidentities := Table.needOr_without removed s.toToml "privileged_identities" rfl
    (Value.texts_without s.privilegedIdentities)
  have hmissing := Table.needOr_without removed s.toToml "missing_attribute" rfl
    (Value.missingMode?_label s.missing)
  have hrules := Table.within_without removed s.toToml "rules" rfl [] Rule.listOfToml
  simp only [ofToml, Value.record?, hidentity, hlocation, hdepartment, hsensitivity, hdepartments,
    hidentities, hmissing, hrules]
  generalize (if removed [.field "rules"] then _ else _) = rules
  cases rules <;> rfl

theorem PolicySettings.ofToml_left {s : PolicySettings} (h : s.KeepsRules removed) :
    PolicySettings.ofToml (.table (s.toToml.without removed)) = .ok (s.reset removed) := by
  rw [ofToml_without]
  cases hrules : removed [.field "rules"] with
  | true => simp [reset, Removal.keepOr, hrules, Except.map]
  | false =>
    have hread := Rule.mapM_ofToml_without (removed.inside (.field "rules")) 0 s.rules
      fun i hi => by
        rw [Nat.zero_add]
        exact h hrules i hi
    rw [Rule.listOfToml_without, hread]
    simp [reset, Removal.keepOr, hrules, Except.map]

theorem PolicySettings.ofToml_incomplete {s : PolicySettings} (h : ¬s.KeepsRules removed) :
    ∃ field ∈ ["name", "attribute"],
      PolicySettings.ofToml (.table (s.toToml.without removed)) = .error (.missing field) := by
  simp only [KeepsRules, not_forall] at h
  obtain ⟨hrules, i, hi, hleft, hincomplete⟩ := h
  rw [← Nat.zero_add i] at hleft hincomplete
  obtain ⟨field, hfield, herror⟩ := Rule.mapM_ofToml_without_incomplete
    (removed.inside (.field "rules")) 0 s.rules ⟨i, hi, hleft, hincomplete⟩
  refine ⟨field, hfield, ?_⟩
  rw [ofToml_without, hrules, Rule.listOfToml_without, herror]
  rfl

theorem EmbeddingSettings.ofToml_without (s : EmbeddingSettings) :
    EmbeddingSettings.ofToml (.table (s.toToml.without removed)) = .ok (s.reset removed) := by
  have hbackend : (Value.string s.backend.label).choice?
      (labelled EmbeddingBackend.label [.hash, .remote]) = some s.backend := by
    cases s.backend <;> rfl
  have hprovider := Table.needOr_without removed s.toToml "provider" rfl hbackend
  have hdimension := Table.needOr_without removed s.toToml "dimension" rfl
    (Value.word?_ofNat s.dimension)
  have hhost := Table.text_without removed s.toToml "host" rfl
  have hport := Table.needOr_without removed s.toToml "port" rfl (Value.halfWord?_ofNat s.port)
  have hmodel := Table.text_without removed s.toToml "model" rfl
  have htimeout := Table.needOr_without removed s.toToml "request_timeout_secs" rfl
    (Value.word?_ofNat s.requestTimeoutSecs)
  simp only [ofToml, Value.record?, hprovider, hdimension, hhost, hport, hmodel, htimeout]
  rfl

theorem LoaderSettings.ofToml_without (processors : UInt64) (s : LoaderSettings) :
    LoaderSettings.ofToml processors (.table (s.toToml.without removed)) =
      .ok (s.reset processors removed) := by
  have hconcurrency := Table.needOr_without removed s.toToml "concurrency" rfl
    (Value.word?_ofNat s.concurrency)
  have htimeout := Table.needOr_without removed s.toToml "provider_timeout_ms" rfl
    (Value.word?_ofNat s.providerTimeoutMs)
  simp only [ofToml, Value.record?, hconcurrency, htimeout]
  rfl

theorem PromptSettings.ofToml_without (s : PromptSettings) :
    PromptSettings.ofToml (.table (s.toToml.without removed)) = .ok (s.reset removed) := by
  have htokens := Table.needOr_without removed s.toToml "max_context_tokens" rfl
    (Value.word?_ofNat s.maxTokens)
  have hattributes := Table.needOr_without removed s.toToml "include_attributes" rfl
    (Toml.boolean?_without s.includeAttributes)
  simp only [ofToml, Value.record?, htokens, hattributes]
  rfl

namespace Configuration

theorem ofToml_without (c : Configuration) :
    ofToml processors (c.toToml.without removed) =
      (if removed [.field "policy"] then .ok (builtIn processors).policy
        else PolicySettings.ofToml
          (.table (c.policy.toToml.without (removed.inside (.field "policy"))))).map
        fun policy => { c.reset processors removed with policy } := by
  have hpolicy := Table.within_without removed c.toToml "policy" rfl (builtIn processors).policy
    PolicySettings.ofToml
  rw [Toml.without_table] at hpolicy
  have hembedding := Table.within_without_eq_ok removed c.toToml "embedding" rfl
    c.embedding.ofToml_without
  have hloader := Table.within_without_eq_ok removed c.toToml "loader" rfl
    (c.loader.ofToml_without processors)
  have hprompt := Table.within_without_eq_ok removed c.toToml "context" rfl
    c.prompt.ofToml_without
  have hlevel := Table.text_without (removed.inside (.field "logging"))
    [("level", .string c.logLevel)] "level" rfl (builtIn processors).logLevel
  have hlogging := Table.within_without_eq_ok removed c.toToml "logging" rfl
    (show logLevelOfToml _ _ = _ from hlevel)
  simp only [ofToml, hpolicy, hembedding, hloader, hprompt, hlogging]
  generalize (if removed [.field "policy"] then _ else _) = policy
  cases policy <;> rfl

theorem ofToml_left {c : Configuration} (h : c.KeepsRules removed) :
    ofToml processors (c.toToml.without removed) = .ok (c.reset processors removed) := by
  rw [ofToml_without]
  cases hpolicy : removed [.field "policy"] with
  | true => simp [reset, Removal.keepOr, hpolicy, Except.map]
  | false =>
    rw [PolicySettings.ofToml_left (h hpolicy)]
    simp [reset, Removal.keepOr, hpolicy, Except.map]

theorem ofToml_incomplete {c : Configuration} (h : ¬c.KeepsRules removed) :
    ∃ field ∈ ["name", "attribute"],
      ofToml processors (c.toToml.without removed) = .error (.missing field) := by
  simp only [KeepsRules, not_forall] at h
  obtain ⟨hpolicy, hincomplete⟩ := h
  obtain ⟨field, hfield, herror⟩ := PolicySettings.ofToml_incomplete hincomplete
  refine ⟨field, hfield, ?_⟩
  rw [ofToml_without, hpolicy, herror]
  rfl

/-! ## Whole documents -/

theorem reset_nothing (c : Configuration) : c.reset processors .nothing = c := by
  have hpolicy : c.policy.reset .nothing = c.policy := by
    show PolicySettings.mk _ _ _ _ (Removal.nothing.keptItems (fun _ text => text) 0 _)
      (Removal.nothing.keptItems (fun _ text => text) 0 _) _
      (Removal.nothing.keptItems Rule.reset 0 _) = _
    rw [Removal.keptItems_nothing fun _ => rfl, Removal.keptItems_nothing fun _ => rfl,
      Removal.keptItems_nothing fun _ => rfl]
    rfl
  show { c with policy := c.policy.reset .nothing } = c
  rw [hpolicy]

/-- The whole document of a configuration is read as it. -/
theorem ofToml_toToml (c : Configuration) : ofToml processors c.toToml = .ok c := by
  have hkeeps : c.KeepsRules .nothing := fun _ _ _ _ _ => ⟨rfl, rfl⟩
  have hleft : ofToml processors (c.toToml.without .nothing) = .ok (c.reset processors .nothing) :=
    ofToml_left hkeeps
  rwa [Table.without_nothing, reset_nothing] at hleft

end Configuration

end ScopedRetrieval
