/-
What is withheld from a requester leaves no trace in the prompt. Two loaded indexes that hold the
same documents of those which the filter admits, whatever else each of them holds and however each
came about, give the same admitted documents and the same prompt.
-/
import ScopedRetrieval.Proofs.Retrieval.Partition

namespace ScopedRetrieval

/-- The indexes hold the same documents of those that the filter admits for the requester. -/
def Index.SameAdmitted (i j : Index) (f : Filter) (requester : Requester) : Prop :=
  ∀ d : Document, f.admits d.attributes requester = true → (i.Holds d ↔ j.Holds d)

/-- The list of the admitted documents is determined by which of these an index holds: such lists
are strictly ascending, so what is withheld does not decide their order either. -/
theorem Filter.admitted_eq_iff_sameAdmitted {f : Filter} {requester : Requester} {i j : Index}
    (hi : i.Filed) (hj : j.Filed) :
    f.admitted requester i.documents = f.admitted requester j.documents ↔
      i.SameAdmitted j f requester := by
  have hmem : (∀ d, d ∈ f.admitted requester i.documents ↔
      d ∈ f.admitted requester j.documents) ↔ i.SameAdmitted j f requester := by
    refine forall_congr' fun d => ?_
    rw [f.mem_admitted_iff, f.mem_admitted_iff, Index.mem_documents_iff hi,
      Index.mem_documents_iff hj]
    exact and_congr_left_iff
  rw [← hmem]
  constructor
  · intro h d
    rw [h]
  · exact eq_of_ascending_of_mem_iff ((Index.documents_ascending hi).filter _)
      ((Index.documents_ascending hj).filter _)

namespace Pipeline

/-- A pipeline over a loaded index answers, with the admitted documents and the prompt made of
them. -/
theorem execute_of_loaded {p : Pipeline} (hl : p.index.loaded = true) (query : String)
    (requester : Requester) :
    ∃ a, p.execute query requester = .ok a ∧
      a.outcome.admitted = p.filter.admitted requester p.index.documents ∧
      a.prompt = .build p.prompt query (p.filter.admitted requester p.index.documents) := by
  unfold execute
  rw [Index.retrieve_of_loaded hl]
  exact ⟨_, rfl, rfl, rfl⟩

/-- Pipelines with the same filter and the same prompt settings, over loaded indexes that were each
reached by some history and hold the same documents of those that the filter admits, answer with the
same admitted documents and the same prompt. -/
theorem execute_eq_of_sameAdmitted {i j : Index} (hi : i.Reachable) (hj : j.Reachable)
    (hil : i.loaded = true) (hjl : j.loaded = true) {f : Filter} {requester : Requester}
    (h : i.SameAdmitted j f requester) (l l' : Loader) (s : PromptSettings) (query : String) :
    ∃ a b, Pipeline.execute ⟨l, f, s, i⟩ query requester = .ok a ∧
      Pipeline.execute ⟨l', f, s, j⟩ query requester = .ok b ∧
      a.outcome.admitted = b.outcome.admitted ∧ a.prompt = b.prompt := by
  obtain ⟨a, ha, hadmitted, hprompt⟩ :=
    execute_of_loaded (p := ⟨l, f, s, i⟩) hil query requester
  obtain ⟨b, hb, hadmitted', hprompt'⟩ :=
    execute_of_loaded (p := ⟨l', f, s, j⟩) hjl query requester
  have heq := (Filter.admitted_eq_iff_sameAdmitted hi.filed hj.filed).2 h
  refine ⟨a, b, ha, hb, ?_, ?_⟩
  · rw [hadmitted, hadmitted', heq]
  · rw [hprompt, hprompt', heq]

/-- Another secret, another embedding and another history: nothing of it shows in the answer. -/
theorem execute_eq_of_sameAdmitted_other_secret :
    let news : Document := { id := "b", content := "news" }
    let secret (id content : String) : Document :=
      { id, content, attributes := .ofList [("sensitivity", "confidential")] }
    let i := Index.run .empty [.put ⟨news, ⟨[]⟩⟩, .put ⟨secret "a" "plan", ⟨[]⟩⟩, .markLoaded]
    let j := Index.run .empty
      [.replaceAll [⟨secret "c" "offer", ⟨[]⟩⟩, ⟨{ id := "d", content := "" }, ⟨[]⟩⟩], .remove "d",
        .put ⟨news, ⟨[.ofNat 1]⟩⟩]
    let l : Loader := ⟨MemoryCorpus.toProvider {}, HashEmbedder.toProvider {}, { concurrency := 1 }⟩
    i.Reachable ∧ j.Reachable ∧ i.loaded = true ∧ j.loaded = true ∧
      i.SameAdmitted j .standard .anonymous ∧
      ∃ a b, Pipeline.execute ⟨l, .standard, {}, i⟩ "q" .anonymous = .ok a ∧
        Pipeline.execute ⟨l, .standard, {}, j⟩ "q" .anonymous = .ok b ∧
        a.outcome.admitted = b.outcome.admitted ∧ a.prompt = b.prompt := by
  intro news secret i j l
  have hi : i.Reachable := ⟨_, rfl⟩
  have hj : j.Reachable := ⟨_, rfl⟩
  have hil : i.loaded = true := by decide
  have hjl : j.loaded = true := by decide
  have h : i.SameAdmitted j .standard .anonymous :=
    (Filter.admitted_eq_iff_sameAdmitted hi.filed hj.filed).1 (by decide)
  exact ⟨hi, hj, hil, hjl, h, execute_eq_of_sameAdmitted hi hj hil hjl h l l {} "q"⟩

end Pipeline

end ScopedRetrieval
