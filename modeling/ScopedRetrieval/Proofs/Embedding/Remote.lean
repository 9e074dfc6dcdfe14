/-
What a service must answer for a text to be embedded. An embedding is exactly the vector of an
answer that tells of success, if it has the promised length (`outcome_embed_eq_ok_iff`). So the
check of the length that a load makes behind the embedder refuses nothing: a document fails by its
embedding exactly if the time of the call runs out, or for what the embedder reads from the response
(`embeddingFails_iff`).
-/
import ScopedRetrieval.Proofs.Loader.Classification

namespace ScopedRetrieval.RemoteEmbedder

variable (e : RemoteEmbedder)

/-! ## Responses -/

theorem checkLength_eq_ok_iff (values : List Binary64) (v : Embedding) :
    e.checkLength values = .ok v ↔ v.values = values ∧ v.dimension = e.dimension := by
  unfold checkLength
  split
  case isTrue h =>
    constructor
    · rintro ⟨⟩
      exact ⟨rfl, h⟩
    · rintro ⟨rfl, -⟩
      rfl
  case isFalse h =>
    refine iff_of_false nofun ?_
    rintro ⟨rfl, hv⟩
    exact h hv

theorem read_eq_ok_iff (response : ServiceResponse) (v : Embedding) :
    e.read response = .ok v ↔ ∃ status, response = .answered status (.ok v.values) ∧
      status.isSuccess = true ∧ v.dimension = e.dimension := by
  rcases response with reason | reason | ⟨status, body⟩
  · exact iff_of_false nofun nofun
  · exact iff_of_false nofun nofun
  show (if status.isSuccess then (body.mapError _).bind e.checkLength else _) = _ ↔ _
  split
  case isFalse h =>
    refine iff_of_false nofun ?_
    rintro ⟨_, ⟨⟩, hsuccess, -⟩
    exact h hsuccess
  case isTrue h =>
    cases body with
    | error reason =>
      refine iff_of_false nofun ?_
      rintro ⟨_, ⟨⟩, -⟩
    | ok values =>
      refine (e.checkLength_eq_ok_iff values v).trans ⟨?_, ?_⟩
      · rintro ⟨rfl, hv⟩
        exact ⟨status, rfl, h, hv⟩
      · rintro ⟨_, ⟨⟩, -, hv⟩
        exact ⟨rfl, hv⟩

variable (content : String) (attributes : Attributes)

theorem outcome_embed : (e.embed content attributes).outcome =
    (e.read (e.client.send (e.request content attributes))).mapError .embedding :=
  rfl

/-- A text is embedded exactly if the service answers with success and a vector of the promised
length, and then as that vector. -/
theorem outcome_embed_eq_ok_iff (v : Embedding) :
    (e.embed content attributes).outcome = .ok v ↔
      ∃ status, e.client.send (e.request content attributes) = .answered status (.ok v.values) ∧
        status.isSuccess = true ∧ v.dimension = e.dimension := by
  rw [outcome_embed, ← read_eq_ok_iff]
  cases e.read (e.client.send (e.request content attributes)) with
  | error reason => exact iff_of_false nofun nofun
  | ok w =>
    constructor
    · rintro ⟨⟩
      rfl
    · rintro ⟨⟩
      rfl

theorem outcome_embed_eq_error_iff (error : ProviderError) :
    (e.embed content attributes).outcome = .error error ↔
      ∃ reason, e.read (e.client.send (e.request content attributes)) = .error reason ∧
        error = .embedding reason := by
  rw [outcome_embed]
  cases e.read (e.client.send (e.request content attributes)) with
  | error reason =>
    constructor
    · rintro ⟨⟩
      exact ⟨reason, rfl, rfl⟩
    · rintro ⟨_, ⟨⟩, rfl⟩
      rfl
  | ok v => exact iff_of_false nofun nofun

/-! ## Loads -/

theorem not_mismatch_embed {v : Embedding} (h : (e.embed content attributes).outcome = .ok v)
    (error : ProviderError) : ¬e.toProvider.Mismatch v error := by
  obtain ⟨_, -, -, hv⟩ := (e.outcome_embed_eq_ok_iff content attributes v).1 h
  exact fun hmismatch => hmismatch.differs hv

/-- What can go wrong with an embedding in a load: the response comes too late for the load, or it
comes in time and is no embedding. -/
theorem embeddingFails_iff {l : Loader} (hl : l.embedder = e.toProvider) (error : ProviderError) :
    l.EmbeddingFails content attributes error ↔
      let request := e.request content attributes
      let timeoutMs := l.settings.providerTimeoutMs
      timeoutMs.toNat < e.client.delayMs request ∧ error = .timeout timeoutMs ∨
        e.client.delayMs request ≤ timeoutMs.toNat ∧ ∃ reason,
          e.read (e.client.send request) = .error reason ∧ error = .embedding reason := by
  have hmatch : ¬∃ v, (e.embed content attributes).Gives l.settings.providerTimeoutMs v ∧
      e.toProvider.Mismatch v error := by
    rintro ⟨v, hgives, hmismatch⟩
    exact e.not_mismatch_embed content attributes hgives.2 error hmismatch
  unfold Loader.EmbeddingFails
  rw [hl]
  refine (or_iff_left hmatch).trans ?_
  show (e.embed content attributes).Fails _ error ↔ _
  rw [Reply.Fails, outcome_embed_eq_error_iff]
  rfl

end ScopedRetrieval.RemoteEmbedder
