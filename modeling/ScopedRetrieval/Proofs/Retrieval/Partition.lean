/-
Retrieval splits the index: of every index that was ever reached and is loaded each document is
either admitted or withheld, once, with the decision that the filter takes on it, and nothing of
the index changes.
-/
import ScopedRetrieval.Proofs.Index.Documents
import ScopedRetrieval.Proofs.Policy.Evaluation
import ScopedRetrieval.Proofs.Text.ByteOrder

namespace ScopedRetrieval

/-- The record of a retrieval accounts for every document of the index. -/
structure Outcome.Partitions (o : Outcome) (i : Index) (f : Filter) (requester : Requester) :
    Prop where
  /-- Admitted or withheld, nothing is lost. -/
  complete : (o.admittedIds ++ o.denied.map (·.id)).Perm i.snapshot.ids
  /-- No identifier stands twice in a list or in both. -/
  disjoint : (o.admittedIds ++ o.denied.map (·.id)).Nodup
  evaluated_eq_size : o.evaluated = i.size
  evaluated_eq_add : o.evaluated = o.admitted.length + o.denied.length
  admitted_ascending : o.admittedIds.Pairwise (fun a b => Text.utf8 a < Text.utf8 b)
  denied_ascending : (o.denied.map (·.id)).Pairwise (fun a b => Text.utf8 a < Text.utf8 b)
  mem_admitted : ∀ d, d ∈ o.admitted ↔ i.Holds d ∧ f.admits d.attributes requester = true
  /-- What is on record is the denial of the stored document. -/
  mem_denied : ∀ r, r ∈ o.denied ↔ ∃ d, i.Holds d ∧ d.id = r.id ∧
    (f.evaluate d.attributes requester).deniedBy = some r.denial
  generation : o.generation = i.generation

namespace Filter

variable (f : Filter) (requester : Requester)

theorem isNone_denial? (d : Document) :
    (f.denial? requester d).isNone = f.admits d.attributes requester :=
  f.isAdmitted_evaluate d.attributes requester

theorem mem_admitted_iff (ds : List Document) (d : Document) :
    d ∈ f.admitted requester ds ↔ d ∈ ds ∧ f.admits d.attributes requester = true := by
  unfold admitted
  rw [List.mem_filter, isNone_denial?]

theorem mem_denied_iff (ds : List Document) (r : DeniedDocument) :
    r ∈ f.denied requester ds ↔ ∃ d ∈ ds, d.id = r.id ∧
      (f.evaluate d.attributes requester).deniedBy = some r.denial := by
  unfold denied
  rw [List.mem_filterMap]
  refine exists_congr fun d => and_congr_right fun _ => ?_
  rw [Option.map_eq_some_iff]
  constructor
  · rintro ⟨denial, h, rfl⟩
    exact ⟨rfl, h⟩
  · rintro ⟨hid, h⟩
    exact ⟨r.denial, h, by rw [hid]⟩

/-- The withheld documents are those that are not admitted, in their order. -/
theorem map_id_denied (ds : List Document) :
    (f.denied requester ds).map (·.id) =
      (ds.filter fun d => !(f.denial? requester d).isNone).map (·.id) := by
  unfold denied
  induction ds with
  | nil => rfl
  | cons d rest ih =>
    rw [List.filterMap_cons, List.filter_cons]
    cases h : f.denial? requester d with
    | none => simpa [h] using ih
    | some denial => simpa [h] using ih

theorem admitted_append_denied_perm (ds : List Document) :
    ((f.admitted requester ds).map (·.id) ++ (f.denied requester ds).map (·.id)).Perm
      (ds.map (·.id)) := by
  rw [map_id_denied, ← List.map_append]
  exact (List.filter_append_perm _ ds).map _

end Filter

/-! ## The record of a retrieval -/

namespace Index

/-- The record of a retrieval from a loaded index. -/
def record (i : Index) (f : Filter) (query : String) (requester : Requester) : Outcome :=
  { query, generation := i.generation, evaluated := i.size
    admitted := f.admitted requester i.documents
    denied := f.denied requester i.documents }

theorem retrieve_of_loaded {i : Index} (hl : i.loaded = true) (f : Filter) (query : String)
    (requester : Requester) :
    i.retrieve f query requester = .ok (i.record f query requester) := by
  unfold retrieve
  rw [if_pos hl]
  rfl

/-- A retrieval that succeeds has the record of its index. -/
theorem eq_record_of_retrieve {i : Index} {f : Filter} {query : String} {requester : Requester}
    {o : Outcome} (h : i.retrieve f query requester = .ok o) : o = i.record f query requester := by
  cases hl : i.loaded with
  | false => simp [retrieve, hl] at h
  | true =>
    rw [retrieve_of_loaded hl] at h
    exact (Except.ok.inj h).symm

theorem record_partitions {i : Index} (hi : i.Filed) (f : Filter) (query : String)
    (requester : Requester) : (i.record f query requester).Partitions i f requester := by
  have hperm : ((f.admitted requester i.documents).map (·.id) ++
      (f.denied requester i.documents).map (·.id)).Perm i.snapshot.ids := by
    rw [← map_id_documents hi]
    exact f.admitted_append_denied_perm requester i.documents
  have hbytes : ∀ {ds : List Document}, ds.Pairwise (fun a b => a.id < b.id) →
      (ds.map (·.id)).Pairwise (fun a b => Text.utf8 a < Text.utf8 b) := fun h =>
    List.pairwise_map.2 (h.imp fun hlt => (Text.utf8_lt_utf8_iff _ _).2 hlt)
  have hasc := documents_ascending hi
  constructor
  case complete => exact hperm
  case disjoint => exact hperm.nodup_iff.2 i.entries.keys_nodup
  case evaluated_eq_size => rfl
  case evaluated_eq_add =>
    have := hperm.length_eq
    rw [← map_id_documents hi] at this
    simpa [record, length_documents] using this.symm
  case admitted_ascending => exact hbytes (hasc.filter _)
  case denied_ascending =>
    show ((f.denied requester i.documents).map (·.id)).Pairwise _
    rw [f.map_id_denied]
    exact hbytes (hasc.filter _)
  case mem_admitted =>
    intro d
    exact (f.mem_admitted_iff requester _ d).trans (and_congr_left' (mem_documents_iff hi d))
  case mem_denied =>
    intro r
    refine (f.mem_denied_iff requester _ r).trans (exists_congr fun d => ?_)
    rw [mem_documents_iff hi]
  case generation => rfl

/-- From every loaded index that was ever reached a retrieval succeeds and splits its documents into
those that the filter admits and those that it withholds. The list of documents alone is the same as
the one on record, the query decides nothing, and the index is left as it was. -/
theorem retrieve_partitions {i : Index} (hi : i.Reachable) (hl : i.loaded = true) (f : Filter)
    (query : String) (requester : Requester) :
    ∃ o, i.retrieve f query requester = .ok o ∧ o.Partitions i f requester ∧
      i.retrieveDocuments f query requester = .ok o.admitted ∧
      (∀ query', ∃ o', i.retrieve f query' requester = .ok o' ∧
        o'.admitted = o.admitted ∧ o'.denied = o.denied) ∧
      (i.perform (.retrieve f query requester)).1 = i ∧
      (i.perform (.retrieveDocuments f query requester)).1 = i := by
  have hok := retrieve_of_loaded hl f query requester
  refine ⟨_, hok, record_partitions hi.filed f query requester, ?_, fun query' => ?_, rfl, rfl⟩
  · unfold retrieveDocuments
    rw [hok]
    rfl
  · exact ⟨_, retrieve_of_loaded hl f query' requester, rfl, rfl⟩

/-- An index that was loaded, changed by hand and searched without any claims. -/
theorem retrieve_partitions_after_changes :
    let i := run .empty
      [.put ⟨{ id := "b", content := "plan",
               attributes := .ofList [("sensitivity", "confidential")] }, ⟨[]⟩⟩,
        .put ⟨{ id := "c", content := "draft" }, ⟨[]⟩⟩, .markLoaded, .remove "c",
        .put ⟨{ id := "a", content := "news" }, ⟨[]⟩⟩]
    i.Reachable ∧ i.loaded = true ∧
      ∃ o, i.retrieve .standard "q" .anonymous = .ok o ∧ o.Partitions i .standard .anonymous ∧
        i.retrieveDocuments .standard "q" .anonymous = .ok o.admitted ∧
        (∀ query', ∃ o', i.retrieve .standard query' .anonymous = .ok o' ∧
          o'.admitted = o.admitted ∧ o'.denied = o.denied) ∧
        (i.perform (.retrieve .standard "q" .anonymous)).1 = i ∧
        (i.perform (.retrieveDocuments .standard "q" .anonymous)).1 = i :=
  ⟨⟨_, rfl⟩, rfl, retrieve_partitions ⟨_, rfl⟩ rfl .standard "q" .anonymous⟩

end Index

end ScopedRetrieval
