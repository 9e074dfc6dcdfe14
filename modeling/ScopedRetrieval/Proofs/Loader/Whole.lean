/-
Loads that lose nothing. Where the listing comes and every listed document loads with its own
attributes, a load into a new index ends with exactly these documents and with a clean report
(`loadAll_of_supplies`), and a load in place of all others that follows it changes nothing but the
generation (`rebuildAll_of_supplies`).
-/
import ScopedRetrieval.Proofs.Index.Documents
import ScopedRetrieval.Proofs.Loader.Account
import ScopedRetrieval.Proofs.Loader.Rebuild

namespace ScopedRetrieval.Loader

/-- The loader gets these documents, each as it is, and lists them in ascending order. -/
structure Supplies (l : Loader) (ds : List Document) : Prop where
  listing : l.listing = .ok (ds.map (·.id))
  whole : ∀ d ∈ ds, ∃ embedding, l.loadDocument d.id = .ok ⟨⟨d, embedding⟩, none⟩
  ascending : ds.Pairwise (fun a b => a.id < b.id)

theorem id_loadDocument (l : Loader) (id : String) : LoadResult.id (l.loadDocument id) = id :=
  Turn.id_result l.settings ⟨id, l.metadata, l.embedder⟩

section

variable {l : Loader} {ds : List Document} (h : l.Supplies ds)

include h

theorem Supplies.loads {id : String} (hid : id ∈ ds.map (·.id)) : l.Loads id := by
  obtain ⟨d, hd, rfl⟩ := List.mem_map.1 hid
  obtain ⟨embedding, hload⟩ := h.whole d hd
  exact ⟨_, (l.builds_iff d.id _).2 ⟨_, hload, rfl⟩⟩

/-- Every listed document is on record as indexed, in ascending order, and nothing else is. -/
theorem Supplies.report_eq {results : List LoadResult}
    (hperm : results.Perm ((ds.map (·.id)).map l.loadDocument)) (generation : UInt64) :
    LoadReport.ofResults results generation = ⟨ds.map (·.id), [], [], generation⟩ := by
  have hclean : (LoadReport.ofResults results generation).isClean = true := by
    rw [LoadReport.isClean_ofResults_iff]
    intro r hr
    obtain ⟨id, hid, rfl⟩ := List.mem_map.1 (hperm.mem_iff.1 hr)
    obtain ⟨d, hd, rfl⟩ := List.mem_map.1 hid
    obtain ⟨embedding, hload⟩ := h.whole d hd
    exact ⟨_, hload⟩
  unfold LoadReport.isClean at hclean
  rw [Bool.and_eq_true, List.isEmpty_iff, List.isEmpty_iff] at hclean
  obtain ⟨hfailures, hdegraded⟩ := hclean
  have hindexed : (LoadReport.ofResults results generation).indexed = ds.map (·.id) := by
    have hids : (results.map LoadResult.id).Perm (ds.map (·.id)) := by
      refine (hperm.map _).trans (.of_eq ?_)
      rw [List.map_map]
      exact (List.map_congr_left fun id _ => l.id_loadDocument id).trans (List.map_id _)
    have hall := (LoadReport.indexed_append_failedIds_perm results generation).trans hids
    unfold LoadReport.failedIds at hall
    rw [hfailures, List.map_nil, List.append_nil] at hall
    -- both lists are sorted, so they are the same
    refine hall.eq_of_pairwise (fun a b _ _ hab hba => String.le_antisymm hab hba)
      (mergeSort_pairwise_key id _) ?_
    exact List.pairwise_map.2 (h.ascending.imp fun hlt => String.not_lt.1 (String.lt_asymm hlt))
  calc LoadReport.ofResults results generation
      = ⟨(LoadReport.ofResults results generation).indexed,
          (LoadReport.ofResults results generation).degraded,
          (LoadReport.ofResults results generation).failures, generation⟩ := rfl
    _ = ⟨ds.map (·.id), [], [], generation⟩ := by rw [hindexed, hdegraded, hfailures]

/-- A load of these documents into a new index leaves exactly these in it. -/
theorem Supplies.documents_load : (l.load .empty (ds.map (·.id))).1.documents = ds := by
  have hperm := l.results_perm (ds.map (·.id))
  have hfiled : (l.load .empty (ds.map (·.id))).1.Filed :=
    Index.Reachable.filed ⟨[.load l (ds.map (·.id))], rfl⟩
  refine eq_of_ascending_of_mem_iff (Index.documents_ascending hfiled) h.ascending fun d => ?_
  rw [Index.mem_documents_iff hfiled]
  constructor
  · rintro ⟨e, he, rfl⟩
    by_cases hid : e.document.id ∈ ds.map (·.id)
    · obtain ⟨d, hd, hdid⟩ := List.mem_map.1 hid
      obtain ⟨embedding, hload⟩ := h.whole d hd
      have hbuilds := (l.builds_iff d.id ⟨d, embedding⟩).2 ⟨_, hload, rfl⟩
      have hget : (l.load .empty (ds.map (·.id))).1.get? d.id = some ⟨d, embedding⟩ :=
        get?_applyOneByOne_of_builds hperm (List.mem_map_of_mem hd) hbuilds .empty
      rw [hdid, he] at hget
      rw [Option.some.inj hget]
      exact hd
    · have hget : (l.load .empty (ds.map (·.id))).1.get? e.document.id = none :=
        get?_applyOneByOne_of_not_loads hperm (fun hmem => absurd hmem hid) .empty
      rw [he] at hget
      cases hget
  · intro hd
    obtain ⟨embedding, hload⟩ := h.whole d hd
    have hbuilds := (l.builds_iff d.id ⟨d, embedding⟩).2 ⟨_, hload, rfl⟩
    exact ⟨_, get?_applyOneByOne_of_builds hperm (List.mem_map_of_mem hd) hbuilds .empty, rfl⟩

theorem Supplies.generation_load :
    (l.load .empty (ds.map (·.id))).1.generation = .ofNat ds.length := by
  have hgen : (l.load .empty (ds.map (·.id))).1.generation = _ :=
    generation_applyOneByOne (l.results_perm _) .empty
  have hcount : (ds.map (·.id)).countP (fun id => l.Loads id) = ds.length := by
    rw [List.countP_eq_length.2 fun id hid => decide_eq_true (h.loads hid), List.length_map]
  rw [hgen, hcount]
  exact UInt64.zero_add _

/-! ## Loads of all documents -/

/-- A load of all documents into a new index indexes exactly these, each as one change, and its
report is clean. -/
theorem loadAll_of_supplies :
    ∃ i, l.loadAll .empty = (i, .ok ⟨ds.map (·.id), [], [], .ofNat ds.length⟩) ∧
      i.documents = ds ∧ i.loaded = true ∧ i.generation = .ofNat ds.length := by
  have hreport : (l.load .empty (ds.map (·.id))).2 =
      ⟨ds.map (·.id), [], [], (l.load .empty (ds.map (·.id))).1.generation⟩ :=
    h.report_eq (l.results_perm _) _
  have hall := l.loadAllIn_of_listing_ok .oneByOne .empty h.listing
  refine ⟨(l.load .empty (ds.map (·.id))).1, ?_, ?_, ?_, ?_⟩
  · rw [← h.generation_load, ← hreport]
    exact hall
  · exact h.documents_load
  · rfl
  · exact h.generation_load

/-- After such a load another one, in place of all documents, is one change that changes none. -/
theorem rebuildAll_of_supplies {i : Index} {report : LoadReport}
    (hload : l.loadAll .empty = (i, .ok report)) :
    l.rebuildAll i = ({ i with generation := i.generation + 1 },
      .ok { report with generation := report.generation + 1 }) := by
  have hall := l.loadAllIn_of_listing_ok .oneByOne .empty h.listing
  change l.loadAll .empty = ((l.load .empty (ds.map (·.id))).1, .ok _) at hall
  rw [hload, Prod.mk.injEq, Except.ok.injEq] at hall
  obtain ⟨rfl, rfl⟩ := hall
  have hagrees := l.agrees_rebuild_load (l.load .empty (ds.map (·.id))).1 (ds.map (·.id))
  have hbuilt : ∀ {j j' : Index}, j.entries = j'.entries → j.generation = j'.generation →
      j.loaded = j'.loaded → j = j' := by
    rintro ⟨_, _, _⟩ ⟨_, _, _⟩ rfl rfl rfl
    rfl
  have hreport : ∀ {r r' : LoadReport}, r.indexed = r'.indexed → r.degraded = r'.degraded →
      r.failures = r'.failures → r.generation = r'.generation → r = r' := by
    rintro ⟨_, _, _, _⟩ ⟨_, _, _, _⟩ rfl rfl rfl rfl
    rfl
  refine (l.loadAllIn_of_listing_ok .atOnce _ h.listing).trans ?_
  rw [Prod.mk.injEq, Except.ok.injEq]
  constructor
  · exact hbuilt hagrees.entries hagrees.generation
      (hagrees.built_loaded.trans hagrees.loaded_loaded.symm)
  · refine hreport hagrees.indexed hagrees.degraded hagrees.failures ?_
    exact hagrees.built_report.trans hagrees.generation

end

end ScopedRetrieval.Loader
