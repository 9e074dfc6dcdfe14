/-
When a document loads and what it is loaded as, told by the answers of the providers alone: which
come in time, and with what. The steps of the loader come to exactly that (`entry?_eq_some_iff`).
-/
import ScopedRetrieval.Loader.Document
import Mathlib.Tactic.Common

namespace ScopedRetrieval

/-! ## Answers in time -/

/-- The answer comes within the given time and is a value. -/
def Reply.Gives {α : Type} (r : Reply α) (timeoutMs : UInt64) (a : α) : Prop :=
  r.delayMs ≤ timeoutMs.toNat ∧ r.outcome = .ok a

/-- Whoever waits no longer than a given time sees a value exactly when it comes in that time. -/
theorem Reply.bounded_outcome_eq_ok_iff {α : Type} (r : Reply α) (timeoutMs : UInt64) (a : α) :
    (r.bounded timeoutMs).outcome = .ok a ↔ r.Gives timeoutMs a := by
  unfold bounded Gives
  split
  · rename_i h
    simp [Nat.not_le_of_lt h]
  · rename_i h
    simp [Nat.le_of_not_lt h]

theorem EmbeddingProvider.checkDimension_eq_ok_iff (p : EmbeddingProvider) (e e' : Embedding) :
    p.checkDimension e = .ok e' ↔ e = e' ∧ e'.dimension = p.dimension := by
  unfold checkDimension
  split
  · rename_i h
    constructor
    · intro he
      cases he
      exact ⟨rfl, h⟩
    · rintro ⟨rfl, -⟩
      rfl
  · rename_i h
    constructor
    · intro he
      cases he
    · rintro ⟨rfl, hd⟩
      exact absurd hd h

namespace Loader

/-! ## The entry of a document -/

/-- The entry that is made of a document: its content, its attributes or none where these are not
to be had in time, and the embedding of just those, with the length that the embedder declares. -/
structure Builds (l : Loader) (id : String) (e : Entry) : Prop where
  id_eq : e.document.id = id
  content : (l.metadata.content id).Gives l.settings.providerTimeoutMs e.document.content
  attributes :
    (l.metadata.attributes id).Gives l.settings.providerTimeoutMs e.document.attributes ∨
      e.document.attributes = .empty ∧
        ¬∃ a, (l.metadata.attributes id).Gives l.settings.providerTimeoutMs a
  embedding : (l.embedder.embed e.document.content e.document.attributes).Gives
    l.settings.providerTimeoutMs e.embedding
  dimension : e.embedding.dimension = l.embedder.dimension

/-- The document can be loaded. -/
def Loads (l : Loader) (id : String) : Prop := ∃ e, l.Builds id e

/-- The entry that the loader comes to, if the document does not fail. -/
def entry? (l : Loader) (id : String) : Option Entry := (l.loadDocument id).toOption.map (·.entry)

/-- The attributes that the loader goes on with. -/
theorem readAttributes_eq_iff (l : Loader) (id : String) (a : Attributes) :
    (l.readAttributes id).1 = a ↔
      (l.metadata.attributes id).Gives l.settings.providerTimeoutMs a ∨
        a = .empty ∧ ¬∃ a, (l.metadata.attributes id).Gives l.settings.providerTimeoutMs a := by
  simp only [← Reply.bounded_outcome_eq_ok_iff]
  show (l.readAttributes id).1 = a ↔ (l.attributesReply id).outcome = .ok a ∨
    a = .empty ∧ ¬∃ a, (l.attributesReply id).outcome = .ok a
  unfold readAttributes
  cases (l.attributesReply id).outcome with
  | ok a' => simp
  | error e => simp [eq_comm]

/-- A document loads exactly when its content and an embedding of the right length are there. -/
theorem loadDocument_eq_ok_iff (l : Loader) (id : String) (d : LoadedDocument) :
    l.loadDocument id = .ok d ↔ ∃ content embedding,
      (l.contentReply id).outcome = .ok content ∧
      (l.embeddingReply content (l.readAttributes id).1).outcome = .ok embedding ∧
      embedding.dimension = l.embedder.dimension ∧
      d = ⟨⟨⟨id, content, (l.readAttributes id).1⟩, embedding⟩, (l.readAttributes id).2⟩ := by
  unfold loadDocument
  cases hc : (l.contentReply id).outcome with
  | error e => simp [Except.mapError, bind, Except.bind]
  | ok content =>
    simp only [Except.mapError, bind, Except.bind, pure, Except.pure, Except.ok.injEq]
    cases he : (l.embeddingReply content (l.readAttributes id).1).outcome with
    | error e => simp [he]
    | ok embedding =>
      cases hd : l.embedder.checkDimension embedding with
      | error e =>
        have : ¬embedding.dimension = l.embedder.dimension := fun h => by
          rw [(l.embedder.checkDimension_eq_ok_iff embedding embedding).2 ⟨rfl, h⟩] at hd
          cases hd
        simp [he, hd, this]
      | ok embedding' =>
        obtain ⟨rfl, hdim⟩ := (l.embedder.checkDimension_eq_ok_iff _ _).1 hd
        simp [he, hd, hdim, eq_comm]

/-- A document fails exactly when its content is not there, or its content is and an embedding of
the right length is not. -/
theorem loadDocument_eq_error_iff (l : Loader) (id : String) (f : LoadFailure) :
    l.loadDocument id = .error f ↔
      (∃ error, (l.contentReply id).outcome = .error error ∧ f = ⟨id, .content, error⟩) ∨
      ∃ content error, (l.contentReply id).outcome = .ok content ∧
        (l.embeddingReply content (l.readAttributes id).1).outcome.bind
          l.embedder.checkDimension = .error error ∧ f = ⟨id, .embedding, error⟩ := by
  cases hc : (l.contentReply id).outcome with
  | error error =>
    have hload : l.loadDocument id = .error ⟨id, .content, error⟩ := by
      unfold loadDocument
      rw [hc]
      rfl
    simp [hload, eq_comm]
  | ok content =>
    have hload : l.loadDocument id =
        (((l.embeddingReply content (l.readAttributes id).1).outcome.bind
          l.embedder.checkDimension).mapError (⟨id, .embedding, ·⟩)).map fun embedding =>
            ⟨⟨⟨id, content, (l.readAttributes id).1⟩, embedding⟩, (l.readAttributes id).2⟩ := by
      unfold loadDocument
      rw [hc]
      rfl
    rw [hload]
    cases hchecked : (l.embeddingReply content (l.readAttributes id).1).outcome.bind
        l.embedder.checkDimension with
    | error error => simp [Except.mapError, Except.map, hchecked, eq_comm]
    | ok embedding => simp [Except.mapError, Except.map, hchecked]

/-- The loader comes to an entry exactly when the answers of the providers build it. -/
theorem entry?_eq_some_iff (l : Loader) (id : String) (e : Entry) :
    l.entry? id = some e ↔ l.Builds id e := by
  have hok : ∀ d, (l.loadDocument id).toOption = some d ↔ l.loadDocument id = .ok d := fun d => by
    cases l.loadDocument id <;> simp [Except.toOption]
  unfold entry?
  rw [Option.map_eq_some_iff]
  simp only [hok, loadDocument_eq_ok_iff]
  constructor
  · rintro ⟨_, ⟨content, embedding, hc, he, hdim, rfl⟩, rfl⟩
    exact ⟨rfl, (Reply.bounded_outcome_eq_ok_iff ..).1 hc, (l.readAttributes_eq_iff id _).1 rfl,
      (Reply.bounded_outcome_eq_ok_iff ..).1 he, hdim⟩
  · rintro ⟨rfl, hc, ha, he, hdim⟩
    have ha := (l.readAttributes_eq_iff _ _).2 ha
    refine ⟨_, ⟨e.document.content, e.embedding, (Reply.bounded_outcome_eq_ok_iff ..).2 hc,
      ?_, hdim, rfl⟩, ?_⟩
    · rw [ha]
      exact (Reply.bounded_outcome_eq_ok_iff ..).2 he
    · rw [ha]

theorem Builds.unique {l : Loader} {id : String} {e e' : Entry} (h : l.Builds id e)
    (h' : l.Builds id e') : e = e' := by
  rw [← entry?_eq_some_iff] at h h'
  exact Option.some.inj (h.symm.trans h')

theorem loads_iff (l : Loader) (id : String) : l.Loads id ↔ (l.entry? id).isSome = true := by
  unfold Loads
  rw [Option.isSome_iff_exists]
  exact exists_congr fun e => (l.entry?_eq_some_iff id e).symm

instance (l : Loader) (id : String) : Decidable (l.Loads id) :=
  decidable_of_iff _ (l.loads_iff id).symm

end Loader

end ScopedRetrieval
