/-
Where the entries of an index come from. Nothing is found in an index that no event of its log has
stored there, so an entry that a load has stored is one that the answers of a turn made. Where all
loads have the same embedder, every entry therefore bears the embedding of its own content and its
own attributes (`embeddings_belong_to_documents`).
-/
import ScopedRetrieval.Proofs.Index.LastStored
import ScopedRetrieval.Proofs.Index.Log
import ScopedRetrieval.Proofs.Loader.Account

namespace ScopedRetrieval

/-! ## Entries and embedders -/

namespace EmbeddingProvider

/-- The embedder gives the answers of the other and promises vectors of the same length; it may
take another time to answer. -/
structure AnswersAs (p q : EmbeddingProvider) : Prop where
  dimension : p.dimension = q.dimension
  outcome : ∀ content attributes,
    (p.embed content attributes).outcome = (q.embed content attributes).outcome

theorem AnswersAs.refl (p : EmbeddingProvider) : p.AnswersAs p := ⟨rfl, fun _ _ => rfl⟩

/-- The embedding of an entry is the one of its content and its attributes. -/
structure Embeds (p : EmbeddingProvider) (e : Entry) : Prop where
  outcome : (p.embed e.document.content e.document.attributes).outcome = .ok e.embedding
  dimension : e.embedding.dimension = p.dimension

end EmbeddingProvider

theorem Turn.Builds.embeds {s : LoaderSettings} {t : Turn} {e : Entry} (h : t.Builds s e)
    {p : EmbeddingProvider} (hp : t.embedder.AnswersAs p) : p.Embeds e where
  outcome := by
    rw [← hp.outcome]
    exact h.embedding.2
  dimension := by
    rw [← hp.dimension]
    exact h.dimension

theorem HashEmbedder.eq_embedText_of_embeds {q : HashEmbedder} {e : Entry}
    (h : q.toProvider.Embeds e) : e.embedding = q.embedText e.document.embeddingText :=
  (Except.ok.inj h.outcome).symm

namespace Index

/-! ## What an event stores -/

/-- The event may store the entry under the identifier. -/
def Event.Stores : Event → String → Entry → Prop
  | .change c, id, e => c.Stores id e
  | .load s _ turns, id, e | .loadAll s _ _ turns, id, e =>
    ∃ t ∈ turns, t.id = id ∧ t.Builds s e
  | .get _, _, _ | .enumerate, _, _ => False
  | .retrieve .., _, _ | .retrieveDocuments .., _, _ | .execute .., _, _ => False

theorem get?_store {m : Manner} {i : Index} {entries : List Entry} {id : String} {e : Entry}
    (h : (m.store i entries).get? id = some e) :
    i.get? id = some e ∨ e ∈ entries ∧ e.document.id = id := by
  cases m with
  | oneByOne =>
    have h : (entries.foldl put i).get? id = some e := h
    rw [get?_foldl_put, Option.or_eq_some_iff] at h
    rcases h with h | ⟨-, h⟩
    · exact .inr (mem_of_lookup h)
    · exact .inl h
  | atOnce =>
    have h : (i.replaceAll entries).get? id = some e := h
    rw [get?_replaceAll] at h
    exact .inr (mem_of_lookup h)

theorem get?_of_mayEnd {s : LoaderSettings} {m : Manner} {i : Index} {turns : List Turn}
    {out : Index × LoadReport} (hend : s.MayEnd m i turns out) {id : String} {e : Entry}
    (h : out.1.get? id = some e) : i.get? id = some e ∨ ∃ t ∈ turns, t.id = id ∧ t.Builds s e := by
  obtain ⟨results, hmay, rfl⟩ := hend
  refine (get?_store h).imp_right ?_
  rintro ⟨hmem, rfl⟩
  obtain ⟨t, ht, hbuilds⟩ := (LoadReport.mem_entriesOf_iff_exists_turn hmay e).1 hmem
  exact ⟨t, ht, hbuilds.id_eq.symm, hbuilds⟩

theorem Happens.get? {i j : Index} {x : Event} {response : Response} (hx : Happens i x j response)
    {id : String} {e : Entry} (h : j.get? id = some e) :
    i.get? id = some e ∨ x.Stores id e := by
  cases hx with
  | change c =>
    -- a change that does not decide on the identifier leaves what is found under it
    by_cases hc : c.Decides id
    · exact .inr ((get?_apply_of_decides hc i e).1 h)
    · rw [get?_apply_of_not_decides hc] at h
      exact .inl h
  | load hend => exact get?_of_mayEnd hend h
  | loadAll hend =>
    cases hend with
    | failed => exact .inl h
    | listed _ hend => exact get?_of_mayEnd hend h
  | get | enumerate | retrieve | retrieveDocuments | execute => exact .inl h

/-- Nothing is found at the end of a log that was not there before it and that no event has
stored. -/
theorem Log.get? {i j : Index} {log : List (Event × Response)} (hlog : Log i log j) {id : String}
    {e : Entry} (h : j.get? id = some e) :
    i.get? id = some e ∨ ∃ x ∈ log, x.1.Stores id e := by
  induction hlog with
  | nil => exact .inl h
  | cons hx _ ih =>
    rcases ih h with h | ⟨x, hmem, hstores⟩
    · exact (hx.get? h).imp_right fun hstores => ⟨_, List.mem_cons_self, hstores⟩
    · exact .inr ⟨x, List.mem_cons_of_mem _ hmem, hstores⟩

/-! ## Logs with one embedder -/

/-- Nothing is stored but by loads, and the embedder of these gives the answers of the given one.
Of the source of documents nothing is said. -/
def Event.EmbedsBy (p : EmbeddingProvider) : Event → Prop
  | .change (.put _) | .change (.replaceAll _) => False
  | .load _ _ turns | .loadAll _ _ _ turns => ∀ t ∈ turns, t.embedder.AnswersAs p
  | .change (.remove _) | .change .clear | .change .markLoaded => True
  | .get _ | .enumerate | .retrieve .. | .retrieveDocuments .. | .execute .. => True

theorem Event.Stores.embeds {p : EmbeddingProvider} {x : Event} (hx : x.EmbedsBy p) {id : String}
    {e : Entry} (h : x.Stores id e) : p.Embeds e := by
  cases x with
  | change c =>
    cases c with
    | put | replaceAll => exact hx.elim
    | remove | clear | markLoaded => exact h.elim
  | load | loadAll =>
    obtain ⟨t, ht, -, hbuilds⟩ := h
    exact hbuilds.embeds (hx t ht)
  | get | enumerate | retrieve | retrieveDocuments | execute => exact h.elim

/-- What is found in an index with this log whose loads all have this embedder. -/
structure EmbeddingsBelong (p : EmbeddingProvider) (log : List (Event × Response)) (i : Index) :
    Prop where
  embeds : ∀ id e, i.get? id = some e → p.Embeds e
  /-- The entry was made in a turn of a load, with the attributes given then or without any. -/
  stored : ∀ id e, i.get? id = some e → ∃ x ∈ log, x.1.Stores id e
  embedText : ∀ q : HashEmbedder, p = q.toProvider → ∀ id e, i.get? id = some e →
    e.embedding = q.embedText e.document.embeddingText
  /-- It is so in the middle of a further load as well, when only some documents are done. -/
  during : ∀ (s : LoaderSettings) turns results done, (∀ t ∈ turns, t.embedder.AnswersAs p) →
    s.MayComplete turns results → done <+: results →
    ∀ id e, ((Loader.entriesOf done).foldl put i).get? id = some e → p.Embeds e

/-- In an index that only loads, removals and clearings have ever changed, each load with sources
of its own that may answer otherwise at every turn, but all with embedders that give the answers of
one, every entry bears the embedding of its own content and attributes. -/
theorem embeddings_belong_to_documents {p : EmbeddingProvider} {log : List (Event × Response)}
    {i : Index} (h : Log .empty log i) (hp : ∀ x ∈ log, x.1.EmbedsBy p) :
    EmbeddingsBelong p log i := by
  have hstored : ∀ id e, i.get? id = some e → ∃ x ∈ log, x.1.Stores id e := fun id e he =>
    (h.get? he).resolve_left nofun
  have hembeds : ∀ id e, i.get? id = some e → p.Embeds e := by
    intro id e he
    obtain ⟨x, hx, hstores⟩ := hstored id e he
    exact hstores.embeds (hp x hx)
  constructor
  case embeds => exact hembeds
  case stored => exact hstored
  case embedText =>
    rintro q rfl id e he
    exact HashEmbedder.eq_embedText_of_embeds (hembeds id e he)
  case during =>
    intro s turns results done hturns hmay hdone id e he
    rcases get?_store (m := .oneByOne) he with he | ⟨hmem, -⟩
    · exact hembeds id e he
    · have hsub : Loader.entriesOf done ⊆ Loader.entriesOf results :=
        List.map_subset _ (List.filterMap_subset _ hdone.subset)
      obtain ⟨t, ht, hbuilds⟩ := (LoadReport.mem_entriesOf_iff_exists_turn hmay e).1 (hsub hmem)
      exact hbuilds.embeds (hturns t ht)

/-- A source that changes from load to load and within one: a document that loses its attributes
and is then loaded anew with them, and another that is taken away and comes back without them. -/
theorem embeddings_belong_to_documents_changing_source :
    let p := HashEmbedder.toProvider {}
    let s : LoaderSettings := { concurrency := 1 }
    let source (content : String) (attributes : Except ProviderError Attributes) :
        MetadataProvider :=
      ⟨.now (.ok ["a", "b"]), fun _ => .now (.ok content), fun _ => .now attributes⟩
    let tagged := source "news" (.ok (.ofList [("sensitivity", "internal")]))
    let bare := source "plan" (.error (.unsupported "no attributes"))
    let turns : List Turn := [⟨"a", bare, p⟩, ⟨"b", bare, p⟩, ⟨"a", tagged, p⟩]
    let first := Manner.oneByOne.apply .empty (s.results turns)
    let requests : List Request :=
      [.rebuildAll ⟨tagged, p, s⟩, .remove "b", .load ⟨bare, p, s⟩ ["b"]]
    let log := (.load s .oneByOne turns, .reported first.2) :: first.1.transcript requests
    let i := first.1.run requests
    Log .empty log i ∧ (∀ x ∈ log, x.1.EmbedsBy p) ∧ EmbeddingsBelong p log i := by
  intro p s source tagged bare turns first requests log i
  have h : Log .empty log i :=
    .cons (.load (s.mayEnd_results .oneByOne .empty turns)) (first.1.log_transcript requests)
  have hturns : ∀ {t : Turn}, t.embedder = p → t.embedder.AnswersAs p :=
    fun h => h ▸ EmbeddingProvider.AnswersAs.refl _
  have hp : ∀ x ∈ log, x.1.EmbedsBy p := by
    simp only [log, requests, transcript, List.forall_mem_cons]
    refine ⟨?_, ?_, trivial, ?_, by simp⟩
    · simp [Event.EmbedsBy, turns, EmbeddingProvider.AnswersAs.refl]
    · exact fun t ht => hturns (Loader.embedder_of_mem_turnsAll ht)
    · exact fun t ht => hturns (Loader.embedder_of_mem_turns ht)
  exact ⟨h, hp, embeddings_belong_to_documents h hp⟩

end Index

end ScopedRetrieval
