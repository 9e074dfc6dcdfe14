/-
A load in place of all others. It ends with the entries that a load into a new index ends with, so
nothing of the index before survives; it has the same report, and it counts as one change however
many documents there are (`rebuild_agrees_with_load`).
-/
import ScopedRetrieval.Proofs.Loader.Confluence
import Mathlib.Data.List.Dedup

namespace ScopedRetrieval

theorem mergeSort_dedup_ascending (ks : List String) :
    (ks.mergeSort (· ≤ ·)).dedup.Pairwise (· < ·) := by
  have hle : (ks.mergeSort (· ≤ ·)).dedup.Pairwise (· ≤ ·) :=
    (mergeSort_pairwise_key id ks).sublist (List.dedup_sublist _)
  have hne : (ks.mergeSort (· ≤ ·)).dedup.Pairwise (· ≠ ·) := List.nodup_dedup _
  refine (hle.and hne).imp fun ⟨hab, hnab⟩ => ?_
  exact String.not_le.1 fun hba => hnab (String.le_antisymm hab hba)

/-- A map lists the keys it was filled with, sorted and each of them once. -/
theorem KeyMap.keys_ofList {β : Type} (l : List (String × β)) :
    (ofList l).keys = ((l.map (·.1)).mergeSort (· ≤ ·)).dedup := by
  have hperm : (ofList l).keys.Perm ((l.map (·.1)).mergeSort (· ≤ ·)).dedup := by
    rw [List.perm_ext_iff_of_nodup (ofList l).keys_nodup (List.nodup_dedup _)]
    intro k
    rw [mem_keys_ofList_iff, List.mem_dedup, List.mem_mergeSort]
  refine hperm.eq_of_pairwise (fun a b _ _ hab hba => ?_) (ofList l).keys_ascending
    (mergeSort_dedup_ascending _)
  exact absurd hba (String.lt_asymm hab)

namespace Loader

/-- What a load in place of all others has in common with a load into a new index. -/
structure Agrees (s : Index) (built loaded : Index × LoadReport) : Prop where
  -- nothing survives of the index before
  entries : built.1.entries = loaded.1.entries
  indexed : built.2.indexed = loaded.2.indexed
  degraded : built.2.degraded = loaded.2.degraded
  failures : built.2.failures = loaded.2.failures
  built_loaded : built.1.loaded = true
  loaded_loaded : loaded.1.loaded = true
  -- all documents together are one change
  generation : built.1.generation = s.generation + 1
  built_report : built.2.generation = built.1.generation
  loaded_report : loaded.2.generation = loaded.1.generation
  ids : built.1.snapshot.ids = built.2.indexed.dedup

variable (l : Loader) (s : Index) (ids : List String)

theorem agrees_rebuild_load : Agrees s (l.rebuild s ids) (l.load .empty ids) := by
  constructor
  case entries => exact Index.entryMap_eq_foldl_put _
  case ids =>
    have hids : ((entriesOf (l.results ids)).map fun e => (e.document.id, e)).map (·.1) =
        (LoadReport.loadedOf (l.results ids)).map (·.entry.document.id) := by
      unfold entriesOf
      rw [List.map_map, List.map_map]
      rfl
    refine (KeyMap.keys_ofList _).trans ?_
    rw [hids]
    rfl
  case indexed | degraded | failures | built_loaded | loaded_loaded => rfl
  case generation | built_report | loaded_report => rfl

/-- A load in place of all others agrees with a load of the same documents into a new index, also
where the documents complete in another order in the one than in the other. -/
theorem rebuild_agrees_with_load :
    Agrees s (l.rebuild s ids) (l.load .empty ids) ∧
      ∀ built loaded, l.MayRebuild s ids built → l.MayLoad .empty ids loaded →
        Agrees s built loaded := by
  refine ⟨l.agrees_rebuild_load s ids, fun built loaded hbuilt hloaded => ?_⟩
  obtain rfl := (l.mayRebuild_iff s ids built).1 hbuilt
  obtain rfl := (l.mayLoad_iff .empty ids loaded).1 hloaded
  exact l.agrees_rebuild_load s ids

end Loader

end ScopedRetrieval
