/-
Reports of a load and the order of its results. Each list of a report is sorted by identifiers, and
what is on record for an identifier is determined by it; so two loads whose results are the same but
for their order have the same report (`ofResults_eq_of_perm`).
-/
import ScopedRetrieval.Loader.Report
import ScopedRetrieval.Proofs.Loader.Document
import Mathlib.Data.List.Perm.Basic
import Mathlib.Data.String.Basic

namespace ScopedRetrieval

/-! ## Sorting by keys -/

theorem mergeSort_pairwise_key {α : Type} (key : α → String) (l : List α) :
    (l.mergeSort fun a b => key a ≤ key b).Pairwise (fun a b => key a ≤ key b) := by
  have h : (l.mergeSort fun a b => key a ≤ key b).Pairwise
      (fun a b => decide (key a ≤ key b) = true) := by
    refine List.pairwise_mergeSort (fun a b c hab hbc => ?_) (fun a b => ?_) l
    · exact decide_eq_true (String.le_trans (of_decide_eq_true hab) (of_decide_eq_true hbc))
    · simpa using String.le_total (key a) (key b)
  exact h.imp of_decide_eq_true

/-- Lists of the same elements are sorted to the same list if no two elements share a key. -/
theorem mergeSort_eq_of_perm {α : Type} (key : α → String) {l l' : List α} (h : l.Perm l')
    (hkey : ∀ a ∈ l, ∀ b ∈ l, key a = key b → a = b) :
    (l.mergeSort fun a b => key a ≤ key b) = l'.mergeSort fun a b => key a ≤ key b := by
  have hperm : (l.mergeSort fun a b => key a ≤ key b).Perm
      (l'.mergeSort fun a b => key a ≤ key b) :=
    (List.mergeSort_perm ..).trans (h.trans (List.mergeSort_perm ..).symm)
  refine hperm.eq_of_pairwise (fun a b ha hb hab hba => ?_) (mergeSort_pairwise_key key l)
    (mergeSort_pairwise_key key l')
  have ha : a ∈ l := List.mem_mergeSort.1 ha
  have hb : b ∈ l := h.mem_iff.2 (List.mem_mergeSort.1 hb)
  exact hkey a ha b hb (String.le_antisymm hab hba)

/-! ## What is on record for an identifier -/

namespace Loader

variable {l : Loader} {id : String}

theorem id_of_loadDocument_error {f : LoadFailure} (h : l.loadDocument id = .error f) :
    f.id = id := by
  rcases (l.loadDocument_eq_error_iff id f).1 h with ⟨_, -, rfl⟩ | ⟨_, _, -, -, rfl⟩ <;> rfl

theorem id_of_degraded {d : LoadedDocument} {f : LoadFailure} (h : l.loadDocument id = .ok d)
    (hf : d.degraded = some f) : f.id = id := by
  obtain ⟨_, _, -, -, -, rfl⟩ := (l.loadDocument_eq_ok_iff id d).1 h
  unfold readAttributes at hf
  split at hf
  · cases hf
  · cases hf
    rfl

end Loader

namespace LoadReport

theorem mem_loadedOf_iff (results : List LoadResult) (d : LoadedDocument) :
    d ∈ loadedOf results ↔ .ok d ∈ results := by
  unfold loadedOf
  rw [List.mem_filterMap]
  constructor
  · rintro ⟨r, hr, hd⟩
    cases r with
    | error f => cases hd
    | ok d' =>
      cases hd
      exact hr
  · exact fun h => ⟨.ok d, h, rfl⟩

theorem mem_failuresOf_iff (results : List LoadResult) (f : LoadFailure) :
    f ∈ failuresOf results ↔ .error f ∈ results := by
  unfold failuresOf
  rw [List.mem_filterMap]
  constructor
  · rintro ⟨r, hr, hf⟩
    cases r with
    | error f' =>
      cases hf
      exact hr
    | ok d => cases hf
  · exact fun h => ⟨.error f, h, rfl⟩

variable {l : Loader} {results : List LoadResult} {ids : List String}
  (h : results.Perm (ids.map l.loadDocument))

include h

/-- The failure on record is the one that the document fails with. -/
theorem loadDocument_of_mem_failuresOf {f : LoadFailure} (hf : f ∈ failuresOf results) :
    l.loadDocument f.id = .error f := by
  have hmem := h.mem_iff.1 ((mem_failuresOf_iff results f).1 hf)
  obtain ⟨id, -, hid⟩ := List.mem_map.1 hmem
  rwa [Loader.id_of_loadDocument_error hid]

/-- The document on record as degraded is the one that was loaded. -/
theorem loadDocument_of_mem_degraded {f : LoadFailure}
    (hf : f ∈ (loadedOf results).filterMap (·.degraded)) :
    ∃ d, l.loadDocument f.id = .ok d ∧ d.degraded = some f := by
  obtain ⟨d, hd, hdegraded⟩ := List.mem_filterMap.1 hf
  have hmem := h.mem_iff.1 ((mem_loadedOf_iff results d).1 hd)
  obtain ⟨id, -, hid⟩ := List.mem_map.1 hmem
  refine ⟨d, ?_, hdegraded⟩
  rwa [Loader.id_of_degraded hid hdegraded]

/-- In whatever order the results come, the report is the same. -/
theorem ofResults_eq_of_perm {results' : List LoadResult} (hperm : results.Perm results')
    (generation : UInt64) : ofResults results generation = ofResults results' generation := by
  have hloaded : (loadedOf results).Perm (loadedOf results') := hperm.filterMap _
  have hindexed : ((loadedOf results).map (·.entry.document.id)).mergeSort (· ≤ ·) =
      ((loadedOf results').map (·.entry.document.id)).mergeSort (· ≤ ·) :=
    mergeSort_eq_of_perm id (hloaded.map _) fun _ _ _ _ => id
  have hdegraded : sortFailures ((loadedOf results).filterMap (·.degraded)) =
      sortFailures ((loadedOf results').filterMap (·.degraded)) := by
    refine mergeSort_eq_of_perm LoadFailure.id (hloaded.filterMap _) fun f hf g hg heq => ?_
    obtain ⟨d, hd, hfd⟩ := loadDocument_of_mem_degraded h hf
    obtain ⟨d', hd', hgd⟩ := loadDocument_of_mem_degraded h hg
    rw [heq, hd'] at hd
    cases hd
    exact Option.some.inj (hfd.symm.trans hgd)
  have hfailures : sortFailures (failuresOf results) = sortFailures (failuresOf results') := by
    refine mergeSort_eq_of_perm LoadFailure.id (hperm.filterMap _) fun f hf g hg heq => ?_
    have hf := loadDocument_of_mem_failuresOf h hf
    rw [heq, loadDocument_of_mem_failuresOf h hg] at hf
    cases hf
    rfl
  unfold ofResults
  dsimp only
  rw [hindexed, hdegraded, hfailures]

end LoadReport

end ScopedRetrieval
