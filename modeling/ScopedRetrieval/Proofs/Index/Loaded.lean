/-
When an index can be searched. Whether it is empty does not matter: a retrieval fails exactly as
long as no load has completed, and nothing else makes it fail. A completed load shows in the log,
and its effect lasts for ever (`retrieval_fails_iff_no_load_completed`).
-/
import ScopedRetrieval.Proofs.Index.Log

namespace ScopedRetrieval.Index

/-! ## What the log shows -/

/-- Whether a load has completed with the event: a load always does, whatever becomes of its
documents, and a load of all documents unless their listing fails. -/
def Event.completesLoad : Event → Response → Bool
  | .change (.replaceAll _), _ | .change .markLoaded, _ | .load .., _ => true
  | .loadAll .., .listed report => report.isOk
  | _, _ => false

def Event.isRetrieval : Event → Bool
  | .retrieve .. | .retrieveDocuments .. | .execute .. => true
  | _ => false

/-- How a retrieval went, where the response is one to a retrieval. -/
def Response.retrieved? : Response → Option (Except RetrievalFault Unit)
  | .outcome r => some (r.map fun _ => ())
  | .documents r => some (r.map fun _ => ())
  | .answer r => some (r.map fun _ => ())
  | .done | .removed _ | .reported _ | .listed _ | .entry _ | .snapshot _ => none

/-! ## One event -/

theorem loaded_remove (i : Index) (id : String) : (i.remove id).2.loaded = i.loaded := by
  unfold remove
  split <;> rfl

theorem Happens.loaded {i j : Index} {e : Event} {response : Response}
    (h : Happens i e j response) : j.loaded = (i.loaded || e.completesLoad response) := by
  cases h with
  | change c =>
    cases c with
    | put | clear => exact (Bool.or_false _).symm
    | remove id => exact (i.loaded_remove id).trans (Bool.or_false _).symm
    | replaceAll | markLoaded => exact (Bool.or_true _).symm
  | load hend =>
    obtain ⟨results, -, rfl⟩ := hend
    rename_i m _
    cases m <;> exact (Bool.or_true _).symm
  | loadAll hend =>
    cases hend with
    -- without a listing the index stays as it was
    | failed => exact (Bool.or_false _).symm
    | listed _ hend =>
      obtain ⟨results, -, rfl⟩ := hend
      rename_i m _ _ _
      cases m <;> exact (Bool.or_true _).symm
  | get | enumerate | retrieve | retrieveDocuments | execute => exact (Bool.or_false _).symm

theorem Happens.retrieved? {i j : Index} {e : Event} {response : Response}
    (h : Happens i e j response) (he : e.isRetrieval = true) :
    response.retrieved? = some (if i.loaded then .ok () else .error .indexNotLoaded) := by
  cases h with
  | change | load | loadAll | get | enumerate => cases he
  | retrieve f query requester =>
    show some ((i.retrieve f query requester).map _) = _
    unfold Index.retrieve
    split <;> rfl
  | retrieveDocuments f query requester =>
    show some ((i.retrieveDocuments f query requester).map _) = _
    unfold Index.retrieveDocuments Index.retrieve
    split <;> rfl
  | execute p query requester =>
    show some (({ p with index := i }.execute query requester).map _) = _
    unfold Pipeline.execute Index.retrieve
    split <;> rfl

/-! ## The whole log -/

theorem Log.loaded {i j : Index} {log : List (Event × Response)} (h : Log i log j) :
    j.loaded = (i.loaded || log.any fun x => x.1.completesLoad x.2) := by
  induction h with
  | nil => exact (Bool.or_false _).symm
  | cons hx _ ih => rw [ih, hx.loaded, List.any_cons, Bool.or_assoc]

theorem Log.loaded_iff {i : Index} {log : List (Event × Response)} (h : Log .empty log i) :
    i.loaded = true ↔ ∃ x ∈ log, x.1.completesLoad x.2 = true := by
  rw [h.loaded]
  show (false || _) = true ↔ _
  rw [Bool.false_or, List.any_eq_true]

/-- What a log tells of the retrievals in it, and of the index that it leaves. -/
structure RetrievesOnceLoaded (log : List (Event × Response)) (i : Index) : Prop where
  fails_iff : ∀ before e response after, log = before ++ (e, response) :: after →
    e.isRetrieval = true → (response.retrieved? = some (.error .indexNotLoaded) ↔
      ¬∃ x ∈ before, x.1.completesLoad x.2 = true)
  succeeds_iff : ∀ before e response after, log = before ++ (e, response) :: after →
    e.isRetrieval = true → (response.retrieved? = some (.ok ()) ↔
      ∃ x ∈ before, x.1.completesLoad x.2 = true)
  loaded_iff : i.loaded = true ↔ ∃ x ∈ log, x.1.completesLoad x.2 = true
  lasts : i.loaded = true → ∀ later j, Log i later j → j.loaded = true

/-- In every log of a new index a retrieval fails if and only if no load has completed before it,
and it fails with no other error; and from a completed load on the index is loaded, whatever happens
to it later. -/
theorem retrieval_fails_iff_no_load_completed {log : List (Event × Response)} {i : Index}
    (h : Log .empty log i) : RetrievesOnceLoaded log i := by
  have hretrieved : ∀ before e response after, log = before ++ (e, response) :: after →
      e.isRetrieval = true → ∃ j : Index,
        (j.loaded = true ↔ ∃ x ∈ before, x.1.completesLoad x.2 = true) ∧
        response.retrieved? = some (if j.loaded then .ok () else .error .indexNotLoaded) := by
    rintro before e response after rfl he
    obtain ⟨j, hbefore, hafter⟩ := h.split
    cases hafter with
    | cons hx _ => exact ⟨j, hbefore.loaded_iff, hx.retrieved? he⟩
  constructor
  case fails_iff =>
    intro before e response after hlog he
    obtain ⟨j, hj, hresponse⟩ := hretrieved before e response after hlog he
    rw [hresponse, ← hj]
    cases j.loaded <;> simp
  case succeeds_iff =>
    intro before e response after hlog he
    obtain ⟨j, hj, hresponse⟩ := hretrieved before e response after hlog he
    rw [hresponse, ← hj]
    cases j.loaded <;> simp
  case loaded_iff => exact h.loaded_iff
  case lasts =>
    intro hi later j hlater
    rw [hlater.loaded, hi]
    rfl

/-- An index that is searched while it only has a document that was put there, again when a listing
has failed, and once more when a load has found none of its documents and all is cleared. -/
theorem retrieval_fails_iff_no_load_completed_empty_corpus :
    let source : MetadataProvider :=
      { list := .now (.error (.unsupported "no listing"))
        content := fun id => .now (.error (.notFound id))
        attributes := fun id => .now (.error (.notFound id)) }
    let l : Loader := ⟨source, HashEmbedder.toProvider {}, { concurrency := 1 }⟩
    let search : Request := .retrieve .standard "q" .anonymous
    let requests : List Request := [.put ⟨{ id := "a", content := "news" }, ⟨[]⟩⟩, search,
      .rebuildAll l, search, .load l ["a", "a"], .clear, search]
    let log := transcript .empty requests
    let i := run .empty requests
    Log .empty log i ∧ i.isEmpty = true ∧ log.map (·.2.retrieved?) =
        [none, some (.error .indexNotLoaded), none, some (.error .indexNotLoaded), none, none,
          some (.ok ())] ∧
      RetrievesOnceLoaded log i := by
  intro source l search requests log i
  have h : Log .empty log i := log_transcript .empty requests
  have hempty : i.isEmpty = true := by decide +kernel
  have hretrieved : log.map (·.2.retrieved?) = [none, some (.error .indexNotLoaded), none,
      some (.error .indexNotLoaded), none, none, some (.ok ())] := by decide +kernel
  exact ⟨h, hempty, hretrieved, retrieval_fails_iff_no_load_completed h⟩

end ScopedRetrieval.Index
