/-
The documents of an index as a list and as a set. In an index whose entries are filed under their
own identifiers the list is strictly ascending by identifier and has exactly the documents that are
looked up, so it is determined by them.
-/
import ScopedRetrieval.Proofs.Index.History

namespace ScopedRetrieval

namespace Index

/-- The indexed documents in the order of enumeration. -/
def documents (i : Index) : List Document := i.snapshot.toList.map (·.document)

/-- The entry of the identifier of a document is for that document. -/
def Holds (i : Index) (d : Document) : Prop := ∃ e, i.get? d.id = some e ∧ e.document = d

theorem length_documents (i : Index) : i.documents.length = i.size := by
  unfold documents Snapshot.toList
  rw [List.length_map]
  exact i.entries.length_values

theorem documents_congr {i j : Index} (h : i.entries = j.entries) : i.documents = j.documents :=
  congrArg (·.values.map (·.document)) h

variable {i : Index}

theorem mem_documents_iff (hi : i.Filed) (d : Document) : d ∈ i.documents ↔ i.Holds d := by
  unfold documents Snapshot.toList
  rw [List.mem_map]
  constructor
  · rintro ⟨e, he, rfl⟩
    obtain ⟨id, hid⟩ := (i.entries.mem_values_iff e).1 he
    have hkey : e.document.id = id := hi id e hid
    exact ⟨e, by rw [hkey]; exact hid, rfl⟩
  · rintro ⟨e, he, rfl⟩
    exact ⟨e, (i.entries.mem_values_iff e).2 ⟨_, he⟩, rfl⟩

/-- The identifiers of the documents are those that the index lists. -/
theorem map_id_documents (hi : i.Filed) : i.documents.map (·.id) = i.snapshot.ids := by
  unfold documents Snapshot.toList
  rw [List.map_map]
  exact KeyMap.map_values_eq_keys hi

theorem documents_ascending (hi : i.Filed) :
    i.documents.Pairwise (fun a b => a.id < b.id) := by
  have := i.entries.keys_ascending
  rw [show i.entries.keys = i.snapshot.ids from rfl, ← map_id_documents hi] at this
  exact List.pairwise_map.1 this

end Index

/-- Strictly ascending lists of the same documents are equal. -/
theorem eq_of_ascending_of_mem_iff {ds ds' : List Document}
    (h : ds.Pairwise (fun a b => a.id < b.id)) (h' : ds'.Pairwise (fun a b => a.id < b.id))
    (hmem : ∀ d, d ∈ ds ↔ d ∈ ds') : ds = ds' := by
  have hne : ∀ {a b : Document}, a.id < b.id → a ≠ b := by
    rintro a _ hlt rfl
    exact String.lt_irrefl _ hlt
  have hperm : ds.Perm ds' := (List.perm_ext_iff_of_nodup (h.imp hne) (h'.imp hne)).2 hmem
  refine hperm.eq_of_pairwise (fun a b _ _ hab hba => ?_) h h'
  exact absurd hba (String.lt_asymm hab)

end ScopedRetrieval
