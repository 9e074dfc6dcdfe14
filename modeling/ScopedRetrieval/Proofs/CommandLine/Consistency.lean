/-
What is asked for agrees with what is given. A line is accepted exactly if it is spelled, what it
gives fits before the command and behind it, and the command makes sense with it: parameters that
exclude each other are not both there, and those that are required are (`parse_eq_ok_iff`). It is
spelled in one way, wherever its options stand (`Spelled.unique`).
-/
import ScopedRetrieval.Proofs.CommandLine.Scanning

namespace ScopedRetrieval.CommandLine

/-! ## Command lines -/

/-- A command line by its parts, with what is given before the command and behind it. -/
inductive Spelled : List String → Given → Verb → Given → Prop where
  | line {front back : List String} {before behind : Given} (v : Verb)
      (hfront : programLevel.Spells none front before)
      (hback : v.level.SpellsAll none back behind) :
      Spelled (front ++ v.name :: back) before v behind

namespace Verb

theorem name_injective {v w : Verb} (h : v.name = w.name) : v = w := by
  revert h
  cases v <;> cases w <;> decide +kernel

theorem name_of_ofName? {name : String} {v : Verb} (h : ofName? name = some v) :
    v.name = name := by
  unfold ofName? at h
  simpa using List.find?_some h

theorem ofName?_name (v : Verb) : ofName? v.name = some v := by
  cases v <;> decide +kernel

theorem mem_commands (v : Verb) : v.name ∈ programLevel.commands := by
  cases v <;> decide +kernel

theorem wellFormed_level (v : Verb) : v.level.WellFormed := by
  have hcommands : v.level.commands = [] := by
    cases v <;> rfl
  refine ⟨fun p hp => ?_, by simp [hcommands], by simp [hcommands]⟩
  cases v <;> cases hp <;> rfl

end Verb

theorem wellFormed_programLevel : programLevel.WellFormed := by
  refine ⟨fun _ hp => (nomatch hp), fun name hname => ?_, fun _ => rfl⟩
  have hlooks : ∀ name ∈ programLevel.commands, Argument.ofString name = .word := by
    decide +kernel
  exact Argument.isWord (hlooks name hname)

/-- The name of a command is nothing else before the command. -/
theorem blocked_verb (v : Verb) (rest : List String) : programLevel.Blocked (v.name :: rest) :=
  Level.blocked_cons fun _ _ => wellFormed_programLevel.not_piece v.mem_commands

theorem Spelled.unique {arguments : List String} {before before' behind behind' : Given}
    {v v' : Verb} (h : Spelled arguments before v behind)
    (h' : Spelled arguments before' v' behind') :
    before = before' ∧ v = v' ∧ behind = behind' := by
  obtain ⟨v, hfront, hback⟩ := h
  generalize harguments : _ ++ v.name :: _ = arguments at h'
  obtain ⟨v', hfront', hback'⟩ := h'
  obtain ⟨rfl, htail⟩ := hfront.unique hfront' (blocked_verb v _) (blocked_verb v' _) harguments
  obtain ⟨hname, rfl⟩ := List.cons.inj htail
  obtain rfl := Verb.name_injective hname
  exact ⟨rfl, rfl, hback.unique hback'⟩

/-- Before the command stand options of the program alone. -/
theorem Spelled.values_before {arguments : List String} {before behind : Given} {v : Verb}
    {p : Parameter} (h : Spelled arguments before v behind) (hp : p ∉ programLevel.options) :
    before.values p = [] := by
  obtain ⟨v, hfront, -⟩ := h
  refine Given.values_eq_nil fun o ho heq => ?_
  rcases hfront.mem (by simp) o ho with hmem | hoperand
  · exact hp (heq ▸ hmem)
  · cases hoperand

/-! ## Commands -/

/-- What may be given once is given with one value, or not at all. -/
theorem Given.Fits.value?_eq_iff {g : Given} {p : Parameter} {value? : Option String} (h : g.Fits)
    (hp : p.isSingle) : g.value? p = value? ↔ g.values p = value?.toList := by
  have hlength := h.once p hp
  unfold Given.value?
  match hvalues : g.values p with
  | [] => cases value? <;> simp
  | [value] => cases value? <;> simp
  | _ :: _ :: _ => simp [hvalues] at hlength

theorem exclude_eq_ok_iff {g : Given} {p q : Parameter} {u : Unit} :
    exclude g p q = .ok u ↔ ¬(g.has p ∧ g.has q) := by
  unfold exclude
  rw [← Bool.and_eq_true]
  split <;> simp_all

/-- One source is given, and it is this one. -/
def CorpusSource.GivenBy (g : Given) : CorpusSource → Prop
  | manifest path => g.values .manifest = [path] ∧ g.values .directory = []
  | directory path => g.values .directory = [path] ∧ g.values .manifest = []

/-- A query asks for what is given, and no two of its options exclude each other. -/
structure QueryAgrees (g : Given) (text : String) (source : CorpusSource) (claims : List String)
    (form : AnswerForm) : Prop where
  text : g.values .query = [text]
  source : source.GivenBy g
  claims : g.values .claim = claims
  oneForm : ¬(g.has .json ∧ g.has .explain)
  json : form = .json ↔ g.has .json
  explained : form = .explained ↔ g.has .explain

/-- A demonstration asks for what is given, and no two of its options exclude each other. -/
structure DemonstrationAgrees (g : Given) (store : DemonstrationStore) (brief : Bool) : Prop where
  oneStore : ¬(g.has .inMemory ∧ g.has .requireAttributes)
  memory : store = .memory ↔ g.has .inMemory
  directory : store = .directory ↔ g.has .requireAttributes
  brief : g.has .brief = brief

/-- A command asks for what is given. -/
def Command.AgreesWith (g : Given) : Command → Prop
  | demonstrate store brief => DemonstrationAgrees g store brief
  | query text source claims form => QueryAgrees g text source claims form
  | checkAttributes directory => g.values .probed = directory.toList
  | showConfiguration => True

def Command.verb : Command → Verb
  | demonstrate .. => .demo
  | query .. => .query
  | checkAttributes .. => .checkAttributes
  | showConfiguration => .config

theorem CorpusSource.GivenBy.one {g : Given} {source : CorpusSource} (h : source.GivenBy g) :
    ¬(g.has .manifest ∧ g.has .directory) := by
  rw [Given.has_iff, Given.has_iff]
  cases source with
  | manifest path => exact fun hboth => hboth.2 h.2
  | directory path => exact fun hboth => hboth.1 h.2

theorem sourceOf_eq_ok_iff {g : Given} {source : CorpusSource} (hg : g.Fits)
    (hone : ¬(g.has .manifest ∧ g.has .directory)) :
    sourceOf g = .ok source ↔ source.GivenBy g := by
  rw [Given.has_iff, Given.has_iff] at hone
  constructor
  · intro h
    unfold sourceOf at h
    split at h
    · rename_i path hmanifest
      cases h
      have hvalues : g.values .manifest = [path] := (hg.value?_eq_iff rfl).1 hmanifest
      refine ⟨hvalues, ?_⟩
      by_contra hdirectory
      exact hone ⟨by simp [hvalues], hdirectory⟩
    · rename_i path hmanifest hdirectory
      cases h
      exact ⟨(hg.value?_eq_iff rfl).1 hdirectory, (hg.value?_eq_iff rfl).1 hmanifest⟩
    · cases h
  · intro h
    unfold sourceOf
    cases source with
    | manifest path =>
      have hmanifest : g.value? .manifest = some path := (hg.value?_eq_iff rfl).2 h.1
      rw [hmanifest]
    | directory path =>
      have hmanifest : g.value? .manifest = none := (hg.value?_eq_iff rfl).2 h.2
      have hdirectory : g.value? .directory = some path := (hg.value?_eq_iff rfl).2 h.1
      rw [hmanifest, hdirectory]

theorem form_eq_iff {json explain : Bool} {form : AnswerForm} (h : ¬(json ∧ explain)) :
    (if json then AnswerForm.json else if explain then .explained else .text) = form ↔
      (form = .json ↔ json) ∧ (form = .explained ↔ explain) := by
  revert h
  cases json <;> cases explain <;> cases form <;> decide

theorem store_eq_iff {inMemory inDirectory : Bool} {store : DemonstrationStore}
    (h : ¬(inMemory ∧ inDirectory)) :
    (if inMemory then DemonstrationStore.memory else if inDirectory then .directory
        else .directoryIfPossible) = store ↔
      (store = .memory ↔ inMemory) ∧ (store = .directory ↔ inDirectory) := by
  revert h
  cases inMemory <;> cases inDirectory <;> cases store <;> decide

theorem queryOf_eq_ok_iff {g : Given} {command : Command} (hg : g.Fits) :
    queryOf g = .ok command ↔ ∃ text source claims form,
      command = .query text source claims form ∧ QueryAgrees g text source claims form := by
  unfold queryOf
  simp only [bind_eq_ok, exclude_eq_ok_iff]
  constructor
  · rintro ⟨_, hsource, _, hform, h⟩
    cases htext : g.value? .query with
    | none => simp [htext, throw, throwThe, MonadExceptOf.throw] at h
    | some text =>
      simp only [htext, bind_eq_ok] at h
      obtain ⟨source, hgiven, ⟨⟩⟩ := h
      obtain ⟨hjson, hexplained⟩ := (form_eq_iff hform).1 rfl
      exact ⟨_, _, _, _, rfl, (hg.value?_eq_iff rfl).1 htext,
        (sourceOf_eq_ok_iff hg hsource).1 hgiven, rfl, hform, hjson, hexplained⟩
  · rintro ⟨text, source, _, form, rfl, h⟩
    have hone := h.source.one
    have hsource := (sourceOf_eq_ok_iff hg hone).2 h.source
    have hform := (form_eq_iff h.oneForm).2 ⟨h.json, h.explained⟩
    have htext : g.value? .query = some text := (hg.value?_eq_iff rfl).2 h.text
    refine ⟨(), hone, (), h.oneForm, ?_⟩
    simp only [htext, bind_eq_ok]
    exact ⟨source, hsource, by rw [hform, h.claims]; rfl⟩

theorem demonstrationOf_eq_ok_iff {g : Given} {command : Command} :
    demonstrationOf g = .ok command ↔ ∃ store brief,
      command = .demonstrate store brief ∧ DemonstrationAgrees g store brief := by
  unfold demonstrationOf
  simp only [bind_eq_ok, exclude_eq_ok_iff]
  constructor
  · rintro ⟨_, hone, ⟨⟩⟩
    obtain ⟨hmemory, hdirectory⟩ := (store_eq_iff hone).1 rfl
    exact ⟨_, _, rfl, hone, hmemory, hdirectory, rfl⟩
  · rintro ⟨store, brief, rfl, h⟩
    have hstore := (store_eq_iff h.oneStore).2 ⟨h.memory, h.directory⟩
    exact ⟨(), h.oneStore, by rw [hstore, h.brief]; rfl⟩

theorem Verb.command_eq_ok_iff {v : Verb} {g : Given} {command : Command} (hg : g.Fits) :
    v.command g = .ok command ↔ command.verb = v ∧ command.AgreesWith g := by
  cases v with
  | demo =>
    rw [Verb.command, demonstrationOf_eq_ok_iff]
    constructor
    · rintro ⟨store, brief, rfl, h⟩
      exact ⟨rfl, h⟩
    · rintro ⟨hverb, h⟩
      cases command <;> cases hverb
      exact ⟨_, _, rfl, h⟩
  | query =>
    rw [Verb.command, queryOf_eq_ok_iff hg]
    constructor
    · rintro ⟨text, source, claims, form, rfl, h⟩
      exact ⟨rfl, h⟩
    · rintro ⟨hverb, h⟩
      cases command <;> cases hverb
      exact ⟨_, _, _, _, rfl, h⟩
  | checkAttributes =>
    constructor
    · rintro ⟨⟩
      exact ⟨rfl, (hg.value?_eq_iff rfl).1 rfl⟩
    · rintro ⟨hverb, h⟩
      cases command <;> cases hverb
      have hprobed := (hg.value?_eq_iff rfl).2 h
      rw [Verb.command, hprobed]
  | config =>
    constructor
    · rintro ⟨⟩
      exact ⟨rfl, trivial⟩
    · rintro ⟨hverb, h⟩
      cases command <;> cases hverb
      rfl

/-- What a command asks for depends only on what is given behind it. -/
theorem Command.AgreesWith.of_values_eq {g g' : Given} {command : Command}
    (hvalues : ∀ p ∉ programLevel.options, g.values p = g'.values p)
    (h : command.AgreesWith g) : command.AgreesWith g' := by
  have hhas : ∀ p ∉ programLevel.options, g.has p = g'.has p := fun p hp => by
    rw [Given.has, Given.count, hvalues p hp, ← Given.count, ← Given.has]
  cases command with
  | demonstrate store brief =>
    have hmemory := hhas .inMemory (by decide)
    have hdirectory := hhas .requireAttributes (by decide)
    exact ⟨hmemory ▸ hdirectory ▸ h.oneStore, hmemory ▸ h.memory, hdirectory ▸ h.directory,
      hhas .brief (by decide) ▸ h.brief⟩
  | query text source claims form =>
    have hjson := hhas .json (by decide)
    have hexplain := hhas .explain (by decide)
    have hsource : source.GivenBy g' := by
      have hmanifest := hvalues .manifest (by decide)
      have hdirectory := hvalues .directory (by decide)
      cases source with
      | manifest path => exact ⟨hmanifest ▸ h.source.1, hdirectory ▸ h.source.2⟩
      | directory path => exact ⟨hdirectory ▸ h.source.1, hmanifest ▸ h.source.2⟩
    exact ⟨hvalues .query (by decide) ▸ h.text, hsource, hvalues .claim (by decide) ▸ h.claims,
      hjson ▸ hexplain ▸ h.oneForm, hjson ▸ h.json, hexplain ▸ h.explained⟩
  | checkAttributes directory =>
    rw [AgreesWith, ← hvalues .probed (by decide)]
    exact h
  | showConfiguration => trivial

theorem Command.agreesWith_append_iff {before behind : Given} {command : Command}
    (hbefore : ∀ p ∉ programLevel.options, before.values p = []) :
    command.AgreesWith (before ++ behind) ↔ command.AgreesWith behind := by
  have hvalues : ∀ p ∉ programLevel.options,
      Given.values (before ++ behind) p = behind.values p := fun p hp => by
    rw [Given.values_append, hbefore p hp, List.nil_append]
  exact ⟨.of_values_eq hvalues, .of_values_eq fun p hp => (hvalues p hp).symm⟩

/-! ## Accepted lines -/

/-- A line is accepted exactly if it is spelled, with parts that fit, and a command asks for what
they give. -/
theorem parse_eq_ok_iff {arguments : List String} {i : Invocation} :
    parse arguments = .ok i ↔ ∃ before v behind, Spelled arguments before v behind ∧
      before.Fits ∧ behind.Fits ∧ i.command.verb = v ∧ i.command.AgreesWith (before ++ behind) ∧
        i = invocationOf before behind i.command := by
  constructor
  · intro h
    obtain ⟨⟨s, stop⟩, hscan, h⟩ := bind_eq_ok.1 h
    cases stop with
    | none => cases h
    | some command =>
      obtain ⟨name, rest⟩ := command
      cases hfound : Verb.ofName? name with
      | none => simp [hfound, throw, throwThe, MonadExceptOf.throw] at h
      | some v =>
        simp only [hfound] at h
        obtain ⟨⟨behind, command⟩, hread, h⟩ := bind_eq_ok.1 h
        obtain ⟨before, hbefore, h⟩ := bind_eq_ok.1 h
        cases h
        obtain ⟨⟨t, stop⟩, hbehind, hread⟩ := bind_eq_ok.1 hread
        obtain ⟨given, hgiven, hread⟩ := bind_eq_ok.1 hread
        obtain ⟨command, hmade, hread⟩ := bind_eq_ok.1 hread
        cases hread
        obtain ⟨⟨-, front, rfl, hfront⟩, hfits⟩ :=
          (Level.scan_settles_iff wellFormed_programLevel).1 ⟨s, hscan, hbefore⟩
        obtain ⟨hback, hfits'⟩ :=
          (Level.scan_settles_iff v.wellFormed_level).1 ⟨t, hbehind, hgiven⟩
        obtain ⟨hverb, hagrees⟩ := (Verb.command_eq_ok_iff hfits').1 hmade
        obtain rfl := Verb.name_of_ofName? hfound
        cases stop with
        | none =>
          have hspelled : Spelled (front ++ v.name :: rest) before v behind :=
            .line v hfront hback
          exact ⟨before, v, behind, hspelled, hfits, hfits', hverb,
            (Command.agreesWith_append_iff fun _ => hspelled.values_before).2 hagrees, rfl⟩
        | some _ => cases v <;> cases hback.1
  · rintro ⟨before, v, behind, hspelled, hfits, hfits', hverb, hagrees, hi⟩
    rw [Command.agreesWith_append_iff fun _ => hspelled.values_before] at hagrees
    obtain @⟨front, back, _, _, v, hfront, hback⟩ := hspelled
    have hreads : programLevel.Reads none (front ++ v.name :: back) before
        (some (v.name, back)) := ⟨v.mem_commands, front, rfl, hfront⟩
    have hreads' : v.level.Reads none back behind none := hback
    obtain ⟨s, hscan, hbefore⟩ :=
      (Level.scan_settles_iff wellFormed_programLevel).2 ⟨hreads, hfits⟩
    obtain ⟨t, hbehind, hgiven⟩ :=
      (Level.scan_settles_iff v.wellFormed_level).2 ⟨hreads', hfits'⟩
    have hmade : v.command behind = .ok i.command :=
      (Verb.command_eq_ok_iff hfits').2 ⟨hverb, hagrees⟩
    have hread : readCommand v back = .ok (behind, i.command) :=
      bind_eq_ok.2 ⟨_, hbehind, bind_eq_ok.2 ⟨_, hgiven, bind_eq_ok.2 ⟨_, hmade, rfl⟩⟩⟩
    refine bind_eq_ok.2 ⟨_, hscan, ?_⟩
    simp only [Verb.ofName?_name]
    exact bind_eq_ok.2 ⟨_, hread, bind_eq_ok.2 ⟨_, hbefore, by rw [hi]; rfl⟩⟩

/-- A line that is accepted is spelled in one way, and asks for what it gives before its command and
behind it: a query for one text, over one source, with the claims in their order and in one form, a
demonstration for one store. -/
theorem parse_agrees {arguments : List String} {i : Invocation} (h : parse arguments = .ok i) :
    ∃ before v behind,
      (∀ b w a, Spelled arguments b w a ↔ b = before ∧ w = v ∧ a = behind) ∧
        i.command.verb = v ∧ i.command.AgreesWith (before ++ behind) := by
  obtain ⟨before, v, behind, hspelled, -, -, hverb, hagrees, -⟩ := parse_eq_ok_iff.1 h
  refine ⟨before, v, behind, fun b w a => ⟨fun h' => h'.unique hspelled, ?_⟩, hverb, hagrees⟩
  rintro ⟨rfl, rfl, rfl⟩
  exact hspelled

/-- Options on both sides of the command, short ones in one argument, and a text behind the mark. -/
theorem parse_agrees_mixed :
    ∃ i, parse ["-v", "query", "-C", "a=1", "--dir=docs", "-qC", "b=2", "--", "-what"] = .ok i ∧
      i.command = .query "-what" (.directory "docs") ["a=1", "b=2"] .text ∧
      ∃ before v behind,
        (∀ b w a, Spelled ["-v", "query", "-C", "a=1", "--dir=docs", "-qC", "b=2", "--", "-what"]
            b w a ↔ b = before ∧ w = v ∧ a = behind) ∧
          i.command.verb = v ∧ i.command.AgreesWith (before ++ behind) := by
  have hparse : parse ["-v", "query", "-C", "a=1", "--dir=docs", "-qC", "b=2", "--", "-what"] =
      .ok ⟨none, 1, true, .query "-what" (.directory "docs") ["a=1", "b=2"] .text⟩ := by
    decide +kernel
  exact ⟨_, hparse, rfl, parse_agrees hparse⟩

end ScopedRetrieval.CommandLine
