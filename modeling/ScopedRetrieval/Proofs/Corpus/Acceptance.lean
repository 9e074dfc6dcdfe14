/-
Which manifests are accepted. Documents make a corpus exactly when their identifiers fit
(`ofDistinct_eq_ok_iff`), and otherwise the first one that is blank or given before is the fault
(`ofDistinct_eq_error_iff`). An accepted manifest loses nothing: every document it lists is in the
corpus, under its identifier and as it is.
-/
import ScopedRetrieval.Proofs.Corpus.Manifest
import ScopedRetrieval.Proofs.Text.ByteOrder

namespace ScopedRetrieval.MemoryCorpus

/-! ## The first fault -/

/-- The first document with an identifier that is blank, or else among those in `seen` or given
before, and what is wrong with it. -/
def FirstFault (seen : List String) (documents : List Document) (fault : ManifestFault) : Prop :=
  ∃ before d after, documents = before ++ d :: after ∧ IdsFit seen before ∧
    (Text.isBlank d.id = true ∧ fault = .blankId ∨
      Text.isBlank d.id = false ∧ d.id ∈ seen ++ before.map (·.id) ∧ fault = .duplicateId d.id)

theorem idFault?_eq_some_iff (seen : List String) (documents : List Document)
    (fault : ManifestFault) :
    idFault? seen documents = some fault ↔ FirstFault seen documents fault := by
  induction documents generalizing seen with
  | nil => simp [idFault?, FirstFault]
  | cons d rest ih =>
    have hstep : idFault? seen (d :: rest) = some fault ↔
        (Text.isBlank d.id = true ∧ fault = .blankId ∨
          Text.isBlank d.id = false ∧ d.id ∈ seen ∧ fault = .duplicateId d.id) ∨
        (Text.isBlank d.id = false ∧ d.id ∉ seen) ∧ idFault? (d.id :: seen) rest = some fault := by
      rw [idFault?]
      cases Text.isBlank d.id with
      | true => simp [eq_comm]
      | false => by_cases hseen : d.id ∈ seen <;> simp [hseen, eq_comm]
    rw [hstep, ih]
    constructor
    · rintro (hd | ⟨hd, before, d', after, rfl, hbefore, hd'⟩)
      · exact ⟨[], d, rest, rfl, idsFit_nil seen, by simpa using hd⟩
      · refine ⟨d :: before, d', after, rfl, (idsFit_cons_iff ..).2 ⟨hd, hbefore⟩, ?_⟩
        simpa [or_left_comm] using hd'
    · rintro ⟨before, d', after, hdocuments, hbefore, hd'⟩
      cases before with
      | nil =>
        cases hdocuments
        exact .inl (by simpa using hd')
      | cons d'' before =>
        cases hdocuments
        obtain ⟨hd, hbefore⟩ := (idsFit_cons_iff ..).1 hbefore
        refine .inr ⟨hd, before, d', after, rfl, hbefore, ?_⟩
        simpa [or_left_comm] using hd'

theorem ofDistinct_eq_ok_iff (documents : List Document) (c : MemoryCorpus) :
    ofDistinct documents = .ok c ↔ IdsFit [] documents ∧ ofDocuments documents = c := by
  rw [← idFault?_eq_none_iff, ofDistinct]
  cases idFault? [] documents <;> simp

theorem ofDistinct_eq_error_iff (documents : List Document) (fault : ManifestFault) :
    ofDistinct documents = .error fault ↔ FirstFault [] documents fault := by
  rw [← idFault?_eq_some_iff, ofDistinct]
  cases idFault? [] documents <;> simp

/-! ## What a manifest lists -/

/-- The text is a manifest that lists the documents. -/
def Lists (text : String) (documents : List Document) : Prop :=
  ∃ t, Toml.parse text = .ok t ∧ documentsOfToml t = .ok documents

theorem lists_iff (text : String) (documents : List Document) : Lists text documents ↔
    ((Toml.parse text).toOption.bind fun t => (documentsOfToml t).toOption) = some documents := by
  unfold Lists
  cases Toml.parse text with
  | error fault => simp [Except.toOption]
  | ok t =>
    simp only [Except.ok.injEq, exists_eq_left', Except.toOption, Option.bind_some]
    cases documentsOfToml t <;> simp

instance (text : String) (documents : List Document) : Decidable (Lists text documents) :=
  decidable_of_iff' _ (lists_iff text documents)

theorem parse_of_lists {text : String} {documents : List Document} (h : Lists text documents) :
    parse text = ofDistinct documents := by
  obtain ⟨t, htext, hdocuments⟩ := h
  rw [parse, htext]
  show ((documentsOfToml t).mapError ManifestFault.misshapen).bind ofDistinct = _
  rw [hdocuments]
  rfl

/-! ## Nothing is lost -/

section

variable {documents : List Document} (hids : (documents.map (·.id)).Nodup)

include hids

theorem ids_perm_of_nodup : (ofDocuments documents).ids.Perm (documents.map (·.id)) := by
  rw [ids_of_nodup hids]
  exact List.mergeSort_perm _ _

theorem size_of_nodup : (ofDocuments documents).size = documents.length := by
  have hlength := (ids_perm_of_nodup hids).length_eq
  rw [List.length_map] at hlength
  rw [← hlength]
  exact (List.length_map _).symm

end

theorem lookup_of_notMem {documents : List Document} {id : String}
    (h : id ∉ documents.map (·.id)) :
    (ofDocuments documents).lookup id = .error (.notFound id) := by
  have hnone : (ofDocuments documents).documents.find? id = none := by
    rw [Option.eq_none_iff_forall_ne_some]
    intro d hd
    obtain ⟨hid, before, after, rfl, -⟩ := (find?_ofDocuments_eq_some_iff documents id d).1 hd
    exact h (List.mem_map.2 ⟨d, by simp, hid⟩)
  unfold lookup
  rw [hnone]
  rfl

theorem ids_ascending (c : MemoryCorpus) :
    c.ids.Pairwise fun a b => Text.utf8 a < Text.utf8 b :=
  c.documents.keys_ascending.imp fun h => (Text.utf8_lt_utf8_iff _ _).2 h

/-- A manifest is accepted exactly when no identifier in it is blank and all differ. The corpus then
has as many documents as the manifest lists, gives their identifiers in ascending order of their
bytes and each document as it is listed, and knows no other one. A manifest is refused for the first
document with a fault, and for a blank identifier before one that was given. -/
theorem manifest_accepted_iff_ids_fit {text : String} {documents : List Document}
    (h : Lists text documents) :
    ((∃ c, parse text = .ok c) ↔
      (∀ d ∈ documents, Text.isBlank d.id = false) ∧ (documents.map (·.id)).Nodup) ∧
    (∀ c, parse text = .ok c →
      c.size = documents.length ∧
      (∃ ids, c.toProvider.list.outcome = .ok ids ∧ ids.Perm (documents.map (·.id)) ∧
        ids.Pairwise fun a b => Text.utf8 a < Text.utf8 b) ∧
      (∀ d ∈ documents, (c.toProvider.content d.id).outcome = .ok d.content ∧
        (c.toProvider.attributes d.id).outcome = .ok d.attributes) ∧
      ∀ id, id ∉ documents.map (·.id) →
        (c.toProvider.content id).outcome = .error (.notFound id) ∧
        (c.toProvider.attributes id).outcome = .error (.notFound id)) ∧
    ∀ fault, parse text = .error fault ↔ FirstFault [] documents fault := by
  rw [parse_of_lists h]
  refine ⟨?_, fun c hc => ?_, ofDistinct_eq_error_iff documents⟩
  · constructor
    · rintro ⟨c, hc⟩
      obtain ⟨hfit, -⟩ := (ofDistinct_eq_ok_iff documents c).1 hc
      exact ⟨hfit.notBlank, hfit.distinct⟩
    · rintro ⟨hblank, hdistinct⟩
      exact ⟨_, (ofDistinct_eq_ok_iff documents _).2 ⟨⟨hblank, hdistinct, by simp⟩, rfl⟩⟩
  · obtain ⟨hfit, rfl⟩ := (ofDistinct_eq_ok_iff documents c).1 hc
    have hlookup : ∀ id, ((ofDocuments documents).toProvider.content id).outcome =
          ((ofDocuments documents).lookup id).map (·.content) ∧
        ((ofDocuments documents).toProvider.attributes id).outcome =
          ((ofDocuments documents).lookup id).map (·.attributes) := fun _ => ⟨rfl, rfl⟩
    refine ⟨size_of_nodup hfit.distinct,
      ⟨_, rfl, ids_perm_of_nodup hfit.distinct, ids_ascending _⟩, fun d hd => ?_, fun id hid => ?_⟩
    · rw [(hlookup d.id).1, (hlookup d.id).2, lookup_of_nodup hfit.distinct hd]
      exact ⟨rfl, rfl⟩
    · rw [(hlookup id).1, (hlookup id).2, lookup_of_notMem hid]
      exact ⟨rfl, rfl⟩

/-- Identifiers that differ in white space or case are different; one that is given again is the
fault, and not the blank one behind it. -/
theorem manifest_accepted_iff_ids_fit_spaces_and_case :
    let text := "[[documents]]\nid='b '\ncontent='1'\n[[documents]]\nid='b'\ncontent='2'\n" ++
      "[[documents]]\nid='B'\ncontent='3'\n"
    let text' := "[[documents]]\nid='a'\ncontent=''\n[[documents]]\nid='a'\ncontent=''\n" ++
      "[[documents]]\nid='\t'\ncontent=''\n"
    let documents : List Document := [⟨"b ", "1", .empty⟩, ⟨"b", "2", .empty⟩, ⟨"B", "3", .empty⟩]
    let documents' : List Document := [⟨"a", "", .empty⟩, ⟨"a", "", .empty⟩, ⟨"\t", "", .empty⟩]
    Lists text documents ∧ Lists text' documents' ∧
      (∃ c, parse text = .ok c ∧ c.size = 3 ∧
        (c.toProvider.content "b ").outcome = .ok "1" ∧
        (c.toProvider.content "b").outcome = .ok "2" ∧
        (c.toProvider.content "a").outcome = .error (.notFound "a")) ∧
      parse text' = .error (.duplicateId "a") := by
  intro text text' documents documents'
  have h : Lists text documents := by decide +kernel
  have h' : Lists text' documents' := by decide +kernel
  obtain ⟨haccepted, hkept, -⟩ := manifest_accepted_iff_ids_fit h
  obtain ⟨-, -, hfault⟩ := manifest_accepted_iff_ids_fit h'
  obtain ⟨c, hc⟩ := haccepted.2 (by decide)
  obtain ⟨hsize, -, hmem, hother⟩ := hkept c hc
  exact ⟨h, h', ⟨c, hc, hsize, (hmem ⟨"b ", "1", .empty⟩ (by decide)).1,
    (hmem ⟨"b", "2", .empty⟩ (by decide)).1, (hother "a" (by decide)).1⟩,
    (hfault _).2 ⟨[⟨"a", "", .empty⟩], ⟨"a", "", .empty⟩, [⟨"\t", "", .empty⟩], rfl,
      ⟨by decide, by decide, by decide⟩, .inr ⟨by decide, by decide, rfl⟩⟩⟩

end ScopedRetrieval.MemoryCorpus
