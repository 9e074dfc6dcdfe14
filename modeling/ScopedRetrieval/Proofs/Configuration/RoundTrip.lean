/-
Configurations are written and read back, whole (`saved_loads_back`) or in part
(`part_loads_with_defaults`). What is written reads back as long as its integers have 63 bits
(`nested_toToml`), and so does what is left of it when something is removed (`nested_without`); a
larger integer cannot be written at all.
-/
import ScopedRetrieval.Configuration.Storage
import ScopedRetrieval.Proofs.Configuration.Partial
import ScopedRetrieval.Proofs.Text.Decoding
import ScopedRetrieval.Proofs.Volume.Change

namespace ScopedRetrieval

open Toml (Value Table Removal)

variable {processors : UInt64} {removed : Removal}

/-! ## What can be written -/

/-- The integers among the settings. -/
def Configuration.integers (c : Configuration) : List Nat :=
  [c.embedding.dimension.toNat, c.embedding.port.toNat, c.embedding.requestTimeoutSecs.toNat,
    c.loader.concurrency.toNat, c.loader.providerTimeoutMs.toNat, c.prompt.maxTokens.toNat]

namespace Toml.Value

@[simp] theorem isLine_string (s : String) : (Value.string s).IsLine := .scalar (.string s)

@[simp] theorem isLine_boolean (b : Bool) : (Value.boolean b).IsLine := .scalar (.boolean b)

@[simp] theorem isLine_ofStrings (l : List String) : (Value.ofStrings l).IsLine := by
  refine .array fun v hv => ?_
  obtain ⟨s, -, rfl⟩ := List.mem_map.1 hv
  exact .string s

@[simp] theorem fits_ofNat (n : Nat) : (Value.ofNat n).fits = true ↔ n ≤ 2 ^ 63 - 1 := by
  rw [ofNat, fits, integerFits, decide_eq_true_iff, integerMin, integerMax]
  omega

theorem isLine_ofNat {n : Nat} (h : n ≤ 2 ^ 63 - 1) : (Value.ofNat n).IsLine :=
  .scalar (.integer ((fits_ofNat n).2 h))

end Toml.Value

theorem Rule.nested_toToml (r : Rule) : r.toToml.fields.Nested 0 := by
  refine Table.nested_of_lines ?_ ?_
  · obtain ⟨name, attributeKey, contextKey, missing⟩ := r
    cases contextKey <;> cases missing <;> simp [Rule.toToml, Value.fields]
  · intro e he
    -- the names that every rule has, and those that it may have
    rcases List.mem_append.1 he with he | he
    · rcases List.mem_append.1 he with he | he
      · rcases List.mem_pair.1 he with rfl | rfl <;> simp
      · obtain ⟨_, -, rfl⟩ := List.mem_map.1 he
        simp
    · obtain ⟨_, -, rfl⟩ := List.mem_map.1 he
      simp

theorem EmbeddingSettings.nested_toToml {s : EmbeddingSettings}
    (hdimension : s.dimension.toNat ≤ 2 ^ 63 - 1) (hport : s.port.toNat ≤ 2 ^ 63 - 1)
    (htimeout : s.requestTimeoutSecs.toNat ≤ 2 ^ 63 - 1) : s.toToml.Nested 0 := by
  refine Table.nested_of_lines (by simp [toToml]) ?_
  simp [toToml, Value.isLine_ofNat hdimension, Value.isLine_ofNat hport,
    Value.isLine_ofNat htimeout]

theorem LoaderSettings.nested_toToml {s : LoaderSettings}
    (hconcurrency : s.concurrency.toNat ≤ 2 ^ 63 - 1)
    (htimeout : s.providerTimeoutMs.toNat ≤ 2 ^ 63 - 1) : s.toToml.Nested 0 := by
  refine Table.nested_of_lines (by simp [toToml]) ?_
  simp [toToml, Value.isLine_ofNat hconcurrency, Value.isLine_ofNat htimeout]

theorem PromptSettings.nested_toToml {s : PromptSettings}
    (htokens : s.maxTokens.toNat ≤ 2 ^ 63 - 1) : s.toToml.Nested 0 := by
  refine Table.nested_of_lines (by simp [toToml]) ?_
  simp [toToml, Value.isLine_ofNat htokens]

/-- What is left of a policy; its rules are rows, or a plain field when none is left. -/
theorem PolicySettings.nested_without (s : PolicySettings) :
    (s.toToml.without removed).Nested 1 := by
  let plain : Table := s.toToml.dropLast
  have hkeys : ((plain.map (·.1)) ++ ["rules"]).Nodup := by
    simp [plain, toToml]
  have hlines : ∀ e ∈ plain, e.2.IsLine := by
    simp [plain, toToml]
  have hsplit : s.toToml.without removed = plain.without removed ++
      Table.without [("rules", .array (s.rules.map Rule.toToml))] removed :=
    Toml.without_append plain _
  have hsublist : ((plain.without removed).map (·.1)).Sublist (plain.map (·.1)) :=
    Toml.keys_without_sublist plain
  rw [hsplit, Toml.without_singleton]
  split
  · rw [List.append_nil]
    exact (Table.nested_of_lines ((List.nodup_append.1 hkeys).1.sublist hsublist)
      (Toml.lines_without hlines)).succ
  · have hrules : (Value.array (s.rules.map Rule.toToml)).without
          (removed.inside (.field "rules")) =
        .array (((removed.inside (.field "rules")).keptItems
          (fun r rule => Table.without rule.toToml.fields r) 0 s.rules).map .table) := by
      rw [Value.without, Toml.itemsWithout_eq_keptItems, Removal.keptItems_map,
        Removal.map_keptItems]
      simp only [← Toml.without_table]
      rfl
    rw [hrules]
    refine Table.nested_of_records _ _ (hkeys.sublist (hsublist.append (.refl _)))
      (Toml.lines_without hlines) (fun _ => rfl) fun fields hfields => ?_
    obtain ⟨rule, -, r, rfl⟩ := Removal.mem_keptItems _ _ hfields
    exact rule.nested_toToml.without

namespace Configuration

/-- What is left of a configuration is arranged to be written, whatever is removed. -/
theorem nested_without {c : Configuration} (h : ∀ n ∈ c.integers, n ≤ 2 ^ 63 - 1) :
    (c.toToml.without removed).Nested 2 := by
  simp only [integers, List.forall_mem_cons] at h
  obtain ⟨hdimension, hport, hrequest, hconcurrency, hprovider, htokens, -⟩ := h
  have hlogging : Table.Nested 0 [("level", Value.string c.logLevel)] :=
    Table.nested_of_lines (by simp) (by simp)
  have hembedding := EmbeddingSettings.nested_toToml hdimension hport hrequest
  have hloader := LoaderSettings.nested_toToml hconcurrency hprovider
  have hprompt := PromptSettings.nested_toToml htokens
  have hkeys : (c.toToml.map (·.1)).Nodup := by simp [toToml]
  refine ⟨[], c.toToml.without removed, rfl, hkeys.sublist (Toml.keys_without_sublist _),
    by simp, ?_⟩
  intro e he
  obtain ⟨u, hu, hleft⟩ := Toml.mem_without he
  rw [hleft]
  simp only [toToml, List.mem_cons, List.not_mem_nil, or_false, Prod.mk.injEq] at hu
  rcases hu with ⟨-, rfl⟩ | ⟨-, rfl⟩ | ⟨-, rfl⟩ | ⟨-, rfl⟩ | ⟨-, rfl⟩
  · exact .table c.policy.nested_without
  · exact .table hembedding.without.succ
  · exact .table hloader.without.succ
  · exact .table hprompt.without.succ
  · exact .table hlogging.without.succ

theorem nested_toToml {c : Configuration} (h : ∀ n ∈ c.integers, n ≤ 2 ^ 63 - 1) :
    c.toToml.Nested 2 :=
  c.toToml.without_nothing ▸ nested_without h

/-- Where every integer can be written, every one of the settings has 63 bits. -/
theorem integers_le_of_fits {c : Configuration} (h : Toml.fieldsFit c.toToml = true) :
    ∀ n ∈ c.integers, n ≤ 2 ^ 63 - 1 := by
  simp only [toToml, EmbeddingSettings.toToml, LoaderSettings.toToml, PromptSettings.toToml,
    Toml.fieldsFit, Bool.and_eq_true, Value.fits_ofNat, Value.fits] at h
  obtain ⟨-, ⟨-, hdimension, -, hport, -, hrequest, -⟩, ⟨hconcurrency, hprovider, -⟩,
    ⟨htokens, -⟩, -⟩ := h
  simp only [integers, List.forall_mem_cons]
  exact ⟨hdimension, hport, hrequest, hconcurrency, hprovider, htokens, by simp⟩

/-! ## Saving and loading -/

/-- What a document is read as that describes a configuration. -/
theorem parse_of_ofToml {c : Configuration} {t : Table} {text : String}
    (hparse : Toml.parse text = .ok t) (hread : ofToml processors t = .ok c) :
    parse processors text = c.validate.map fun _ => c := by
  rw [parse, hparse]
  show ((ofToml processors t).mapError ConfigurationFault.misshapen).bind _ = _
  rw [hread]
  cases hvalid : c.validate with
  | error fault => simp [Except.mapError, Except.bind, hvalid, bind]; rfl
  | ok _ => simp [Except.mapError, Except.bind, hvalid, bind]; rfl

theorem parse_of_misshapen {t : Table} {text : String} {fault : Toml.ShapeFault}
    (hparse : Toml.parse text = .ok t) (hread : ofToml processors t = .error fault) :
    parse processors text = .error (.misshapen fault) := by
  rw [parse, hparse]
  show ((ofToml processors t).mapError ConfigurationFault.misshapen).bind _ = _
  rw [hread]
  rfl

/-- What the text of a configuration is read as. -/
theorem parse_renderText {c : Configuration} (h : ∀ n ∈ c.integers, n ≤ 2 ^ 63 - 1) :
    parse processors (Toml.renderText c.toToml) = c.validate.map fun _ => c :=
  parse_of_ofToml (Toml.parse_renderText ((nested_toToml h).mono (by decide))) c.ofToml_toToml

theorem load_of_readText {v : Volume} {path text : String} (home : Option String)
    (hread : v.readText path = .ok text) :
    load processors v home (some path) = parse processors text := by
  show ((v.readText path).mapError ConfigurationFault.unreadable).bind (parse processors) = _
  rw [hread]
  rfl

/-- The text of a file at the root. -/
theorem readText_saved (text : String) :
    Volume.readText { nodes := .ofList [("", ⟨.directory, .empty⟩),
      ("/saved.toml", ⟨.file (Text.utf8 text), .empty⟩)] } "/saved.toml" = .ok text := by
  let volume : Volume := { nodes := .ofList [("", ⟨.directory, .empty⟩),
    ("/saved.toml", ⟨.file (Text.utf8 text), .empty⟩)] }
  have hroot : volume.nodes.find? "" = some ⟨.directory, .empty⟩ := by
    rw [KeyMap.find?_ofList]
    rfl
  have hfile : volume.nodes.find? (Volume.place "" "saved.toml") =
      some ⟨.file (Text.utf8 text), .empty⟩ := by
    rw [KeyMap.find?_ofList]
    rfl
  have hplain : Volume.PlainName "saved.toml" := by decide
  have hleads : volume.LeadsTo "/" "" := Volume.leadsTo_root hroot rfl
  have hfits : Volume.Fits "/" "saved.toml" := ⟨by decide +kernel, by decide +kernel, by decide⟩
  have hjoin : Volume.Path.join "/" "saved.toml" = "/saved.toml" := by decide +kernel
  have hread := Volume.read_join hplain hleads hfits hfile rfl
  rw [hjoin] at hread
  show volume.readText "/saved.toml" = _
  unfold Volume.readText
  rw [hread]
  simp only [bind, Except.bind, Text.ofUtf8?_utf8]
  rfl

/-- Configurations whose integers have 63 bits survive saving: the text can be written, and loading
a file with it gives the same configuration on every machine, or the fault that is wrong with it.
With a larger integer nothing is written. -/
theorem saved_loads_back (c : Configuration) :
    ((∀ n ∈ c.integers, n ≤ 2 ^ 63 - 1) →
      ∃ text, c.render = .ok text ∧
        ∀ (processors : UInt64) (v : Volume) (home : Option String) (path : String),
          v.readText path = .ok text →
            load processors v home (some path) = c.validate.map fun _ => c) ∧
      ((∃ n ∈ c.integers, 2 ^ 63 - 1 < n) → c.render = .error .unwritable) := by
  constructor
  · intro h
    refine ⟨Toml.renderText c.toToml, ?_, ?_⟩
    · rw [render, Toml.render_of_nested (nested_toToml h)]
      rfl
    · intro processors v home path hread
      rw [load_of_readText home hread]
      exact parse_renderText h
  · rintro ⟨n, hn, hlarge⟩
    have hunfit : ¬Toml.fieldsFit c.toToml = true := fun hfits =>
      absurd (integers_le_of_fits hfits n hn) (by omega)
    rw [render, Toml.render, if_neg hunfit]
    rfl

/-- The largest integer, texts with quotes and rules that leave something out come back from a file;
one more, and there is no text. -/
theorem saved_loads_back_largest :
    let rules : List Rule :=
      [⟨"tenant", "a.b", none, some .deny⟩, ⟨"\"'\\", "x\n", some "k", none⟩]
    let c : Configuration :=
      { policy := { privilegedIdentities := [], rules }
        embedding := { dimension := 0x7FFFFFFFFFFFFFFF, host := "" }
        loader := { concurrency := 1 } }
    let larger := { c with loader := { concurrency := 0x8000000000000000 } }
    let volume (text : String) : Volume := { nodes := .ofList [("", ⟨.directory, .empty⟩),
      ("/saved.toml", ⟨.file (Text.utf8 text), .empty⟩)] }
    (∀ n ∈ c.integers, n ≤ 2 ^ 63 - 1) ∧ (∃ n ∈ larger.integers, 2 ^ 63 - 1 < n) ∧
      larger.render = .error .unwritable ∧
      ∃ text, c.render = .ok text ∧ load 8 (volume text) none (some "/saved.toml") = .ok c := by
  intro rules c larger volume
  have hfits : ∀ n ∈ c.integers, n ≤ 2 ^ 63 - 1 := by decide
  have hlarge : ∃ n ∈ larger.integers, 2 ^ 63 - 1 < n := by decide
  obtain ⟨text, hrender, hload⟩ := (saved_loads_back c).1 hfits
  have hvalid : c.validate = .ok () := by decide +kernel
  refine ⟨hfits, hlarge, (saved_loads_back larger).2 hlarge, text, hrender, ?_⟩
  rw [hload 8 _ none _ (readText_saved text), hvalid]
  rfl

/-- A file that gives a part of a configuration means the configuration with the defaults of the
machine for the rest, as long as that is valid, and its fault otherwise; where a rule is left
without its name or its attribute the file has a wrong shape. There is such a file for every part,
if the whole can be written. -/
theorem part_loads_with_defaults (c : Configuration) (removed : Removal) :
    (∀ (processors : UInt64) (v : Volume) (home : Option String) (path text : String),
        v.readText path = .ok text → Toml.parse text = .ok (c.toToml.without removed) →
        (c.KeepsRules removed →
          load processors v home (some path) =
            (c.reset processors removed).validate.map fun _ => c.reset processors removed) ∧
        (¬c.KeepsRules removed → ∃ field ∈ ["name", "attribute"],
          load processors v home (some path) = .error (.misshapen (.missing field)))) ∧
      ((∀ n ∈ c.integers, n ≤ 2 ^ 63 - 1) → ∃ text,
        Toml.render (c.toToml.without removed) = some text ∧
          Toml.parse text = .ok (c.toToml.without removed)) := by
  constructor
  · intro processors v home path text hread hparse
    rw [load_of_readText home hread]
    refine ⟨fun h => parse_of_ofToml hparse (ofToml_left h), fun h => ?_⟩
    obtain ⟨field, hfield, herror⟩ := ofToml_incomplete h
    exact ⟨field, hfield, parse_of_misshapen hparse herror⟩
  · intro h
    have hnested : (c.toToml.without removed).Nested 2 := nested_without h
    exact ⟨_, Toml.render_of_nested hnested, Toml.parse_renderText (hnested.mono (by decide))⟩

/-- A section, a field and the claim of a rule are removed, on a machine with six processors;
without its name the rule cannot be read. -/
theorem part_loads_with_defaults_rule :
    let rule : Rule := ⟨"tenant", "org", some "customer", some .deny⟩
    let c : Configuration :=
      { policy := { missing := .deny, rules := [rule] }
        embedding := { backend := .remote, dimension := 768 }
        loader := { concurrency := 7, providerTimeoutMs := 9 } }
    let rules : List Toml.Step := [.field "policy", .field "rules", .item 0]
    let removed : Removal := fun place =>
      place ∈ [[.field "embedding"], [.field "loader", .field "concurrency"],
        rules ++ [.field "context_key"]]
    let nameless : Removal := fun place => place = rules ++ [.field "name"]
    let volume (text : String) : Volume := { nodes := .ofList [("", ⟨.directory, .empty⟩),
      ("/saved.toml", ⟨.file (Text.utf8 text), .empty⟩)] }
    (∃ text, Toml.render (c.toToml.without removed) = some text ∧
      load 6 (volume text) none (some "/saved.toml") =
        .ok
          { policy := { missing := .deny, rules := [⟨"tenant", "org", none, some .deny⟩] }
            loader := { concurrency := 6, providerTimeoutMs := 9 } }) ∧
      ∃ text, Toml.render (c.toToml.without nameless) = some text ∧
        ∃ field ∈ ["name", "attribute"],
          load 6 (volume text) none (some "/saved.toml") =
            .error (.misshapen (.missing field)) := by
  intro rule c rules removed nameless volume
  have hfits : ∀ n ∈ c.integers, n ≤ 2 ^ 63 - 1 := by decide
  have hleft : c.KeepsRules removed := by decide
  have hnameless : ¬c.KeepsRules nameless := by decide
  obtain ⟨text, hrender, hparse⟩ := (part_loads_with_defaults c removed).2 hfits
  obtain ⟨text', hrender', hparse'⟩ := (part_loads_with_defaults c nameless).2 hfits
  have hload := ((part_loads_with_defaults c removed).1 6 _ none _ text (readText_saved text)
    hparse).1 hleft
  have hfail := ((part_loads_with_defaults c nameless).1 6 _ none _ text' (readText_saved text')
    hparse').2 hnameless
  refine ⟨⟨text, hrender, hload.trans ?_⟩, text', hrender', hfail⟩
  have hvalid : (c.reset 6 removed).validate = .ok () := by decide +kernel
  rw [hvalid]
  rfl

end Configuration

end ScopedRetrieval
