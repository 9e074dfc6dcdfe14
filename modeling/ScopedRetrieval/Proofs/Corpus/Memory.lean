/-
Corpora in memory: which documents they hold and what they answer. Of the documents that a corpus is
made of the last one given for each identifier is in it (`mem_toList_ofDocuments_iff`); they are
listed in ascending order of their identifiers, each once.
-/
import ScopedRetrieval.Corpus.Manifest
import ScopedRetrieval.Proofs.Loader.Rebuild

namespace ScopedRetrieval.MemoryCorpus

/-- The document is the last of the given ones with its identifier. -/
def LastGiven (documents : List Document) (d : Document) : Prop :=
  ∃ before after, documents = before ++ d :: after ∧ ∀ d' ∈ after, d'.id ≠ d.id

/-- Every document stands under its own identifier. -/
def Filed (c : MemoryCorpus) : Prop := ∀ id d, c.documents.find? id = some d → d.id = id

theorem find?_ofDocuments_eq_some_iff (documents : List Document) (id : String) (d : Document) :
    (ofDocuments documents).documents.find? id = some d ↔ d.id = id ∧ LastGiven documents d := by
  unfold ofDocuments LastGiven
  rw [KeyMap.find?_ofList, KeyMap.lookup_reverse_map_eq_some_iff]
  constructor
  · rintro ⟨before, after, h, rfl, hne⟩
    exact ⟨rfl, before, after, h, hne⟩
  · rintro ⟨rfl, before, after, h, hne⟩
    exact ⟨before, after, h, rfl, hne⟩

theorem filed_ofDocuments (documents : List Document) : (ofDocuments documents).Filed :=
  fun id d h => ((find?_ofDocuments_eq_some_iff documents id d).1 h).1

/-- A corpus of documents lists the identifiers among them, sorted and each of them once. -/
theorem ids_ofDocuments (documents : List Document) :
    (ofDocuments documents).ids = ((documents.map (·.id)).mergeSort (· ≤ ·)).dedup := by
  have h := KeyMap.keys_ofList (documents.map fun d => (d.id, d))
  rw [List.map_map] at h
  exact h

section

variable {c : MemoryCorpus} (hc : c.Filed)

include hc

theorem map_id_toList : c.toList.map (·.id) = c.ids := KeyMap.map_values_eq_keys hc

theorem toList_ascending : c.toList.Pairwise (fun a b => a.id < b.id) := by
  have h : c.ids.Pairwise (· < ·) := c.documents.keys_ascending
  rw [← map_id_toList hc] at h
  exact List.pairwise_map.1 h

theorem mem_toList_iff (d : Document) : d ∈ c.toList ↔ c.documents.find? d.id = some d := by
  unfold toList
  rw [KeyMap.mem_values_iff]
  constructor
  · rintro ⟨id, h⟩
    rwa [hc id d h]
  · exact fun h => ⟨d.id, h⟩

theorem lookup_of_mem_toList {d : Document} (hd : d ∈ c.toList) : c.lookup d.id = .ok d := by
  unfold lookup
  rw [(mem_toList_iff hc d).1 hd]
  rfl

end

/-- The documents of a corpus are those that were given last for their identifiers. -/
theorem mem_toList_ofDocuments_iff (documents : List Document) (d : Document) :
    d ∈ (ofDocuments documents).toList ↔ LastGiven documents d := by
  rw [mem_toList_iff (filed_ofDocuments documents), find?_ofDocuments_eq_some_iff]
  exact and_iff_right rfl

/-! ## Documents with identifiers of their own -/

section

variable {documents : List Document} (hids : (documents.map (·.id)).Nodup)

include hids

theorem ids_of_nodup :
    (ofDocuments documents).ids = (documents.map (·.id)).mergeSort (· ≤ ·) := by
  rw [ids_ofDocuments, List.Nodup.dedup]
  exact (List.mergeSort_perm _ _).nodup_iff.2 hids

theorem lookup_of_nodup {d : Document} (hd : d ∈ documents) :
    (ofDocuments documents).lookup d.id = .ok d := by
  obtain ⟨before, after, hsplit, hlast⟩ := KeyMap.exists_last_of_nodup hids hd
  exact lookup_of_mem_toList (filed_ofDocuments _)
    ((mem_toList_ofDocuments_iff _ d).2 ⟨before, after, hsplit, hlast⟩)

end

end ScopedRetrieval.MemoryCorpus
