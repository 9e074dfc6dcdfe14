/-
Manifests are written and read back. What is written for a corpus is a document that reads back
(`nested_toToml`), and reading takes from it the documents of the corpus in their order
(`documentsOfToml_toToml`). Whether they make a corpus again is decided by their identifiers: they
all differ, so the only fault that is left is a blank one (`ofDistinct_toList`).
-/
import ScopedRetrieval.Proofs.Corpus.Memory
import ScopedRetrieval.Proofs.Toml.Shape

namespace ScopedRetrieval

open Toml (Value Table)

/-! ## Documents -/

namespace Document

/-- A document is read back from what is written for it. -/
theorem ofToml_toToml (d : Document) : ofToml d.toToml = .ok d := by
  have hrecord : d.toToml.record? fieldNames = some d.toToml.fields := rfl
  have hattributes := Table.needOr_of_lookup d.toToml.fields "attributes" rfl
    (Value.texts?_toList d.attributes) .empty
  simp only [ofToml, hrecord, hattributes]
  rfl

theorem nested_toToml (d : Document) : d.toToml.fields.Nested 1 := by
  have hattributes : Table.Nested 0 (d.attributes.toList.map fun e => (e.1, .string e.2)) := by
    refine Table.nested_of_lines ?_ ?_
    · rw [List.map_map]
      exact d.attributes.keys_nodup
    · intro e he
      obtain ⟨_, -, rfl⟩ := List.mem_map.1 he
      exact .scalar (.string _)
  refine ⟨[("id", .string d.id), ("content", .string d.content)], _, rfl, ?_, ?_, ?_⟩
  · show ["id", "content", "attributes"].Nodup
    decide
  · intro e he
    rcases List.mem_pair.1 he with rfl | rfl
    all_goals exact .scalar (.string _)
  · intro e he
    rw [List.mem_singleton.1 he]
    exact .table hattributes

end Document

/-! ## Corpora -/

namespace MemoryCorpus

/-- What is written for a corpus is read back as a document. -/
theorem nested_toToml (c : MemoryCorpus) : c.toToml.Nested 2 :=
  Table.nested_of_records [] "documents" (List.nodup_singleton _) (by simp) (fun _ => rfl)
    fun d _ => d.nested_toToml

theorem documentsOfToml_toToml (c : MemoryCorpus) : documentsOfToml c.toToml = .ok c.toList :=
  Toml.mapM_map_eq_pure fun d _ => d.ofToml_toToml

/-- Among documents with different identifiers only a blank one is a fault. -/
theorem idFault?_of_nodup {documents : List Document} {seen : List String}
    (h : (seen ++ documents.map (·.id)).Nodup) :
    idFault? seen documents =
      if documents.any fun d => Text.isBlank d.id then some .blankId else none := by
  induction documents generalizing seen with
  | nil => rfl
  | cons d rest ih =>
    have hseen : d.id ∉ seen := by
      intro hmem
      exact (List.nodup_append.1 h).2.2 _ hmem _ List.mem_cons_self rfl
    have hrest : (d.id :: seen ++ rest.map (·.id)).Nodup := by
      rw [List.map_cons] at h
      exact List.nodup_middle.1 h
    rw [idFault?, List.any_cons, if_neg hseen, ih hrest]
    cases Text.isBlank d.id <;> rfl

section

variable {c : MemoryCorpus} (hc : c.Filed)

include hc

/-- A corpus is made again of the documents that it lists. -/
theorem ofDocuments_toList : ofDocuments c.toList = c := by
  have hentries : c.toList.map (fun d => (d.id, d)) = c.documents.toList := by
    show (c.documents.entries.map (·.2)).map (fun d => (d.id, d)) = c.documents.entries
    rw [List.map_map]
    refine (List.map_congr_left fun e he => ?_).trans (List.map_id _)
    have hid : e.2.id = e.1 := hc e.1 e.2 ((c.documents.mem_entries_iff e.1 e.2).1 he)
    show (e.2.id, e.2) = e
    rw [hid]
  rw [ofDocuments, hentries, KeyMap.ofList_toList]

theorem ofDistinct_toList :
    ofDistinct c.toList =
      if c.toList.any fun d => Text.isBlank d.id then .error .blankId else .ok c := by
  have hnodup : (([] : List String) ++ c.toList.map (·.id)).Nodup := by
    rw [List.nil_append, map_id_toList hc]
    exact c.documents.keys_nodup
  rw [ofDistinct, idFault?_of_nodup hnodup, ofDocuments_toList hc]
  cases c.toList.any fun d => Text.isBlank d.id <;> rfl

/-- The manifest of a corpus is read as the corpus, or refused for a blank identifier. -/
theorem parse_render : ∃ text, c.render = .ok text ∧ parse text =
    if c.toList.any fun d => Text.isBlank d.id then .error .blankId else .ok c := by
  have hparse := Toml.parse_renderText (c.nested_toToml.mono (by decide))
  refine ⟨Toml.renderText c.toToml, ?_, ?_⟩
  · rw [render, Toml.render_of_nested c.nested_toToml]
    rfl
  · rw [parse, hparse]
    show ((documentsOfToml c.toToml).mapError ManifestFault.misshapen).bind ofDistinct = _
    rw [documentsOfToml_toToml]
    exact ofDistinct_toList hc

end

/-- The corpora that can be built: of documents, from the text of a manifest, and by adding
documents to such corpora. -/
inductive Built : MemoryCorpus → Prop
  | ofDocuments (documents : List Document) : Built (ofDocuments documents)
  | parse {text : String} {c : MemoryCorpus} (h : parse text = .ok c) : Built c
  | insert {c : MemoryCorpus} (h : Built c) (d : Document) : Built (c.insert d)

theorem filed_insert {c : MemoryCorpus} (hc : c.Filed) (d : Document) : (c.insert d).Filed := by
  intro id d' h
  change (c.documents.insert d.id d).find? id = some d' at h
  rw [KeyMap.find?_insert] at h
  split at h
  · rename_i hid
    rw [← Option.some.inj h, hid]
  · exact hc id d' h

/-- Documents with identifiers of their own, which are not among those in `seen`, and none blank. -/
structure IdsFit (seen : List String) (documents : List Document) : Prop where
  notBlank : ∀ d ∈ documents, Text.isBlank d.id = false
  distinct : (documents.map (·.id)).Nodup
  free : ∀ d ∈ documents, d.id ∉ seen

theorem idsFit_nil (seen : List String) : IdsFit seen [] := ⟨nofun, .nil, nofun⟩

theorem idsFit_cons_iff (seen : List String) (d : Document) (rest : List Document) :
    IdsFit seen (d :: rest) ↔
      (Text.isBlank d.id = false ∧ d.id ∉ seen) ∧ IdsFit (d.id :: seen) rest := by
  constructor
  · rintro ⟨hblank, hdistinct, hfree⟩
    obtain ⟨hd, hrest⟩ := List.forall_mem_cons.1 hblank
    obtain ⟨hdFree, hrestFree⟩ := List.forall_mem_cons.1 hfree
    obtain ⟨hnew, hrestDistinct⟩ := List.nodup_cons.1 hdistinct
    refine ⟨⟨hd, hdFree⟩, hrest, hrestDistinct, fun d' hd' hmem => ?_⟩
    rcases List.mem_cons.1 hmem with heq | hmem
    · exact hnew (List.mem_map.2 ⟨d', hd', heq⟩)
    · exact hrestFree d' hd' hmem
  · rintro ⟨⟨hd, hdFree⟩, hrest, hrestDistinct, hrestFree⟩
    constructor
    case notBlank => exact List.forall_mem_cons.2 ⟨hd, hrest⟩
    case distinct =>
      refine List.nodup_cons.2 ⟨fun hmem => ?_, hrestDistinct⟩
      obtain ⟨d', hd', heq⟩ := List.mem_map.1 hmem
      exact hrestFree d' hd' (heq ▸ List.mem_cons_self)
    case free =>
      refine List.forall_mem_cons.2 ⟨hdFree, fun d' hd' hmem => ?_⟩
      exact hrestFree d' hd' (List.mem_cons_of_mem _ hmem)

theorem idFault?_eq_none_iff (seen : List String) (documents : List Document) :
    idFault? seen documents = none ↔ IdsFit seen documents := by
  induction documents generalizing seen with
  | nil => exact iff_of_true rfl (idsFit_nil seen)
  | cons d rest ih =>
    rw [idsFit_cons_iff, idFault?, ← ih]
    cases Text.isBlank d.id with
    | true => simp
    | false => by_cases hseen : d.id ∈ seen <;> simp [hseen]

/-- An accepted manifest gives the corpus of some documents, none with a blank identifier. -/
theorem eq_ofDocuments_of_parse {text : String} {c : MemoryCorpus} (h : parse text = .ok c) :
    ∃ documents, c = MemoryCorpus.ofDocuments documents ∧
      ∀ d ∈ documents, Text.isBlank d.id = false := by
  unfold parse at h
  cases htable : (Toml.parse text).mapError ManifestFault.malformed with
  | error fault =>
    rw [htable] at h
    cases h
  | ok t =>
    rw [htable] at h
    change ((documentsOfToml t).mapError ManifestFault.misshapen).bind ofDistinct = .ok c at h
    cases hdocuments : (documentsOfToml t).mapError ManifestFault.misshapen with
    | error fault =>
      rw [hdocuments] at h
      cases h
    | ok documents =>
      rw [hdocuments] at h
      change ofDistinct documents = .ok c at h
      unfold ofDistinct at h
      split at h
      · cases h
      · rename_i hnone
        exact ⟨documents, (Except.ok.inj h).symm, ((idFault?_eq_none_iff ..).1 hnone).notBlank⟩

theorem not_blank_of_parse {text : String} {c : MemoryCorpus} (h : parse text = .ok c) :
    ∀ d ∈ c.toList, Text.isBlank d.id = false := by
  obtain ⟨documents, rfl, hblank⟩ := eq_ofDocuments_of_parse h
  intro d hd
  obtain ⟨before, after, rfl, -⟩ := (mem_toList_ofDocuments_iff documents d).1 hd
  exact hblank d (by simp)

theorem Built.filed {c : MemoryCorpus} (h : c.Built) : c.Filed := by
  induction h with
  | ofDocuments documents => exact filed_ofDocuments documents
  | parse h =>
    obtain ⟨documents, rfl, -⟩ := eq_ofDocuments_of_parse h
    exact filed_ofDocuments documents
  | insert _ d ih => exact filed_insert ih d

/-- The manifest of a corpus is read back as the same documents, whatever characters they hold,
unless an identifier is blank, which is refused with its message. A corpus that a manifest gives has
no such identifier: written and read again it is the same. -/
theorem manifest_reads_back {c : MemoryCorpus} (h : c.Built) :
    (∃ text, c.render = .ok text ∧
      ((∀ d ∈ c.toList, Text.isBlank d.id = false) → parse text = .ok c) ∧
      ((∃ d ∈ c.toList, Text.isBlank d.id = true) →
        ∃ fault, parse text = .error fault ∧ fault.message = "Document id must not be empty")) ∧
    ∀ manifest, parse manifest = .ok c → ∃ text, c.render = .ok text ∧ parse text = .ok c := by
  obtain ⟨text, hrender, hparse⟩ := parse_render h.filed
  have hkept : (∀ d ∈ c.toList, Text.isBlank d.id = false) → parse text = .ok c := by
    intro hblank
    rw [hparse, if_neg]
    simpa using hblank
  refine ⟨⟨text, hrender, hkept, ?_⟩, ?_⟩
  · intro hblank
    refine ⟨.blankId, ?_, rfl⟩
    rw [hparse, if_pos (List.any_eq_true.2 hblank)]
  · intro manifest hmanifest
    exact ⟨text, hrender, hkept (not_blank_of_parse hmanifest)⟩

/-- Quotes of both kinds, a backslash, control characters and empty names come back; with a document
whose identifier is an ideographic space the manifest is refused. -/
theorem manifest_reads_back_quotes_and_blank :
    let quotes : Document :=
      ⟨"a.b\n\"\"\"'\\", "\r\x00\x7F''", .ofList [("", ""), ("k=\"#", "[[v]]")]⟩
    let c := MemoryCorpus.ofDocuments [quotes]
    let c' := c.insert ⟨"\u3000", "blank", .empty⟩
    (c.Built ∧ ∃ text, c.render = .ok text ∧ parse text = .ok c) ∧
      c'.Built ∧ ∃ text, c'.render = .ok text ∧
        ∃ fault, parse text = .error fault ∧ fault.message = "Document id must not be empty" := by
  intro quotes c c'
  have hc : c.Built := .ofDocuments _
  have hc' : c'.Built := hc.insert _
  obtain ⟨⟨text, hrender, hkept, -⟩, -⟩ := manifest_reads_back hc
  obtain ⟨⟨text', hrender', -, hrefused⟩, -⟩ := manifest_reads_back hc'
  exact ⟨⟨hc, text, hrender, hkept (by decide +kernel)⟩, hc', text', hrender',
    hrefused (by decide +kernel)⟩

end MemoryCorpus

end ScopedRetrieval
