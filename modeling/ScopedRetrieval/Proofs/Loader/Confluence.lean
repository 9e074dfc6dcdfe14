/-
The order in which documents complete does not show. What is stored under an identifier is the same
whenever its document completes, so entries that change places come to the same index, and the
report is sorted. However the identifiers are listed, however many documents are loaded side by side
and in whatever order they complete, a load ends with the same index and the same report
(`confluent_of_perm`).
-/
import ScopedRetrieval.Proofs.Loader.Effect
import ScopedRetrieval.Proofs.Loader.Interleaving
import ScopedRetrieval.Proofs.Loader.Report

namespace ScopedRetrieval

/-! ## Entries that change places -/

namespace Index

/-- Two entries may change places unless they differ and are for the same document. -/
theorem put_comm (i : Index) {e e' : Entry} (h : e.document.id = e'.document.id → e = e') :
    (i.put e).put e' = (i.put e').put e := by
  by_cases hid : e.document.id = e'.document.id
  · rw [h hid]
  · have hentries := i.entries.insert_comm hid e e'
    show Index.mk _ _ _ = Index.mk _ _ _
    congr 1

theorem foldl_put_eq_of_perm {entries entries' : List Entry} (h : entries.Perm entries')
    (huniq : ∀ e ∈ entries, ∀ e' ∈ entries, e.document.id = e'.document.id → e = e') (i : Index) :
    entries.foldl put i = entries'.foldl put i :=
  h.foldl_eq' (fun e he e' he' i => i.put_comm (huniq e he e' he')) i

/-- Entries that take the place of all others are filed as if they were stored one by one. -/
theorem entryMap_eq_foldl_put (entries : List Entry) :
    entryMap entries = (entries.foldl put .empty).entries :=
  (entries_foldl_put entries .empty).symm

end Index

namespace Loader

/-! ## Ways in which a load may end -/

/-- The loader with another number of documents that are loaded side by side. -/
def withConcurrency (l : Loader) (c : UInt64) : Loader :=
  { l with settings := { l.settings with concurrency := c } }

/-- The results of a load may come in this order. -/
def MayComplete (l : Loader) (ids : List String) (results : List LoadResult) : Prop :=
  Schedule.Interleaves (max l.settings.concurrency.toNat 1) [] (ids.map l.loadDocument) results

/-- A load may end with this index and this report. -/
def MayLoad (l : Loader) (i : Index) (ids : List String) (out : Index × LoadReport) : Prop :=
  ∃ results, l.MayComplete ids results ∧ out = applyOneByOne i results

/-- A load in place of all others may end with this index and this report. -/
def MayRebuild (l : Loader) (i : Index) (ids : List String) (out : Index × LoadReport) : Prop :=
  ∃ results, l.MayComplete ids results ∧ out = applyAtOnce i results

variable (l : Loader)

theorem mayComplete_results (ids : List String) : l.MayComplete ids (l.results ids) := by
  have h := Schedule.completions_interleaves l.settings.concurrency.toNat
    (ids.map fun id => ⟨l.loadDocument id, l.loadTime id⟩)
  rw [List.map_map] at h
  exact h

theorem MayComplete.perm {l : Loader} {ids : List String} {results : List LoadResult}
    (h : l.MayComplete ids results) : results.Perm (ids.map l.loadDocument) :=
  Schedule.Interleaves.perm h

/-! ## All of them are one -/

section

variable {l} {results results' : List LoadResult} {ids : List String}
  (h : results.Perm (ids.map l.loadDocument)) (hperm : results.Perm results')

include h hperm

theorem foldl_put_entriesOf_eq_of_perm (i : Index) :
    (entriesOf results).foldl Index.put i = (entriesOf results').foldl Index.put i := by
  have hentries : (entriesOf results).Perm (entriesOf results') := (hperm.filterMap _).map _
  exact Index.foldl_put_eq_of_perm hentries
    (fun _ he _ he' => eq_of_mem_entriesOf h he he') i

theorem applyOneByOne_eq_of_perm (i : Index) :
    applyOneByOne i results = applyOneByOne i results' := by
  unfold applyOneByOne
  rw [foldl_put_entriesOf_eq_of_perm h hperm i]
  exact congrArg (Prod.mk _) (LoadReport.ofResults_eq_of_perm h hperm _)

theorem applyAtOnce_eq_of_perm (i : Index) : applyAtOnce i results = applyAtOnce i results' := by
  have hmap : Index.entryMap (entriesOf results) = Index.entryMap (entriesOf results') := by
    rw [Index.entryMap_eq_foldl_put, Index.entryMap_eq_foldl_put,
      foldl_put_entriesOf_eq_of_perm h hperm]
  unfold applyAtOnce Index.replaceAll
  rw [hmap]
  exact congrArg (Prod.mk _) (LoadReport.ofResults_eq_of_perm h hperm _)

end

theorem mayLoad_iff (i : Index) (ids : List String) (out : Index × LoadReport) :
    l.MayLoad i ids out ↔ out = l.load i ids := by
  constructor
  · rintro ⟨results, hmay, rfl⟩
    -- the order that comes about by the clock is another order of the same results
    exact applyOneByOne_eq_of_perm hmay.perm (hmay.perm.trans (l.results_perm ids).symm) i
  · rintro rfl
    exact ⟨_, l.mayComplete_results ids, rfl⟩

theorem mayRebuild_iff (i : Index) (ids : List String) (out : Index × LoadReport) :
    l.MayRebuild i ids out ↔ out = l.rebuild i ids := by
  constructor
  · rintro ⟨results, hmay, rfl⟩
    exact applyAtOnce_eq_of_perm hmay.perm (hmay.perm.trans (l.results_perm ids).symm) i
  · rintro rfl
    exact ⟨_, l.mayComplete_results ids, rfl⟩

theorem results_perm_of_perm {ids ids' : List String} (h : ids.Perm ids') (c c' : UInt64) :
    ((l.withConcurrency c).results ids).Perm ((l.withConcurrency c').results ids') :=
  ((l.withConcurrency c).results_perm ids).trans
    ((h.map l.loadDocument).trans ((l.withConcurrency c').results_perm ids').symm)

/-- Scheduling does not show. In whatever order the documents of a load may complete, it ends with
the index and the report that the load of the same identifiers in any other order, with any other
number of documents side by side, ends with; and so does a load in place of all others. -/
theorem confluent_of_perm {ids ids' : List String} (h : ids.Perm ids') (c c' : UInt64) (i : Index) :
    (∀ out, (l.withConcurrency c).MayLoad i ids out ↔ out = (l.withConcurrency c').load i ids') ∧
      ∀ out, (l.withConcurrency c).MayRebuild i ids out ↔
        out = (l.withConcurrency c').rebuild i ids' := by
  have hresults := (l.withConcurrency c).results_perm ids
  have hperm := l.results_perm_of_perm h c c'
  have hload : (l.withConcurrency c).load i ids = (l.withConcurrency c').load i ids' :=
    applyOneByOne_eq_of_perm hresults hperm i
  have hrebuild : (l.withConcurrency c).rebuild i ids = (l.withConcurrency c').rebuild i ids' :=
    applyAtOnce_eq_of_perm hresults hperm i
  constructor
  · intro out
    rw [mayLoad_iff, hload]
  · intro out
    rw [mayRebuild_iff, hrebuild]

/-- A document that is asked for twice and takes its time, one that is missing and one that loses
its attributes, loaded one at a time and three at a time over an index that has one of them. -/
theorem confluent_of_perm_with_repetition :
    let metadata : MetadataProvider :=
      { list := .now (.ok [])
        content := fun id =>
          if id = "z" then .now (.error (.notFound id)) else ⟨if id = "b" then 90 else 5, .ok id⟩
        attributes := fun id =>
          if id = "a" then ⟨200, .ok .empty⟩ else .now (.ok (.ofList [("owner", "123")])) }
    let l : Loader := ⟨metadata, HashEmbedder.toProvider {}, ⟨2, 100⟩⟩
    let i := Index.empty.put ⟨{ id := "b", content := "old" }, ⟨[]⟩⟩
    ["b", "a", "b", "z"].Perm ["z", "b", "b", "a"] ∧
      (∀ out, (l.withConcurrency 0).MayLoad i ["b", "a", "b", "z"] out ↔
        out = (l.withConcurrency 3).load i ["z", "b", "b", "a"]) ∧
      ∀ out, (l.withConcurrency 0).MayRebuild i ["b", "a", "b", "z"] out ↔
        out = (l.withConcurrency 3).rebuild i ["z", "b", "b", "a"] := by
  intro metadata l i
  have h : ["b", "a", "b", "z"].Perm ["z", "b", "b", "a"] := by decide
  exact ⟨h, l.confluent_of_perm h 0 3 i⟩

end Loader

end ScopedRetrieval
