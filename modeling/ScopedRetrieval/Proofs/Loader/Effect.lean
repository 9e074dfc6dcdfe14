/-
What a load does to an index, and what it leaves alone. Whatever the order in which the documents
complete, the results are those of the identifiers, one each; a document has one entry wherever its
identifier stands in the list, so it does not matter which of several equal ones is stored last.
After the load each document that can be loaded has its entry and all else is as before.
-/
import ScopedRetrieval.Proofs.Index.History
import ScopedRetrieval.Proofs.Loader.Document
import ScopedRetrieval.Proofs.Loader.Schedule

namespace ScopedRetrieval

/-! ## Storing entries one by one -/

namespace Index

theorem entries_foldl_put (entries : List Entry) (i : Index) :
    (entries.foldl put i).entries =
      (entries.map fun e => (e.document.id, e)).foldl (fun m e => m.insert e.1 e.2) i.entries := by
  induction entries generalizing i with
  | nil => rfl
  | cons e rest ih =>
    rw [List.foldl_cons, ih]
    rfl

/-- After some entries were stored one by one, the last one of a document is found; a document
without one keeps its entry. -/
theorem get?_foldl_put (entries : List Entry) (i : Index) (id : String) :
    (entries.foldl put i).get? id =
      ((entries.map fun e => (e.document.id, e)).reverse.lookup id).or (i.get? id) := by
  unfold get?
  rw [entries_foldl_put, KeyMap.find?_foldl_insert]

/-- Where all entries of a document are the same, that one is found. -/
theorem get?_foldl_put_of_mem {entries : List Entry} {e : Entry} (he : e ∈ entries)
    (huniq : ∀ e' ∈ entries, e'.document.id = e.document.id → e' = e) (i : Index) :
    (entries.foldl put i).get? e.document.id = some e := by
  rw [get?_foldl_put]
  cases h : (entries.map fun e => (e.document.id, e)).reverse.lookup e.document.id with
  | none =>
    rw [List.lookup_eq_none_iff] at h
    have := h (e.document.id, e) (List.mem_reverse.2 (List.mem_map_of_mem he))
    simp at this
  | some e' =>
    obtain ⟨hmem, hid⟩ := mem_of_lookup h
    rw [huniq e' hmem hid]
    rfl

theorem get?_foldl_put_of_forall_ne {entries : List Entry} {id : String}
    (h : ∀ e ∈ entries, e.document.id ≠ id) (i : Index) :
    (entries.foldl put i).get? id = i.get? id := by
  rw [get?_foldl_put, List.lookup_eq_none_iff.2, Option.none_or]
  intro p hp
  obtain ⟨e, he, rfl⟩ := List.mem_map.1 (List.mem_reverse.1 hp)
  simpa using (h e he).symm

/-- Each entry that is stored counts one generation. -/
theorem generation_foldl_put (entries : List Entry) (i : Index) :
    (entries.foldl put i).generation = i.generation + .ofNat entries.length := by
  induction entries generalizing i with
  | nil => simp
  | cons e rest ih =>
    rw [List.foldl_cons, ih, List.length_cons, UInt64.ofNat_add]
    show i.generation + 1 + _ = i.generation + (_ + 1)
    ac_rfl

end Index

/-! ## The results of a load -/

namespace Loader

variable (l : Loader)

/-- In whatever order the documents complete, each position of the list has its result. -/
theorem results_perm (ids : List String) : (l.results ids).Perm (ids.map l.loadDocument) := by
  refine (Schedule.completions_perm _ _).trans (.of_eq ?_)
  rw [List.map_map]
  rfl

/-- The entries among the results are those of the documents that load. -/
theorem entriesOf_perm {results : List LoadResult} {ids : List String}
    (h : results.Perm (ids.map l.loadDocument)) :
    (entriesOf results).Perm (ids.filterMap l.entry?) := by
  unfold entriesOf LoadReport.loadedOf
  refine ((h.filterMap _).map _).trans (.of_eq ?_)
  rw [List.filterMap_map, List.map_filterMap]
  rfl

theorem length_filterMap_entry? (ids : List String) :
    (ids.filterMap l.entry?).length = ids.countP fun id => l.Loads id := by
  rw [List.length_filterMap_eq_countP]
  refine List.countP_congr fun id _ => ?_
  rw [decide_eq_true_iff, l.loads_iff]

section

variable {l} {results : List LoadResult} {ids : List String}
  (h : results.Perm (ids.map l.loadDocument))

include h

theorem mem_entriesOf_iff (e : Entry) :
    e ∈ entriesOf results ↔ ∃ id ∈ ids, l.Builds id e := by
  rw [(l.entriesOf_perm h).mem_iff, List.mem_filterMap]
  exact exists_congr fun id => and_congr_right fun _ => l.entry?_eq_some_iff id e

/-- Of one identifier there is only one entry among the results. -/
theorem eq_of_mem_entriesOf {e e' : Entry} (he : e ∈ entriesOf results)
    (he' : e' ∈ entriesOf results) (hid : e.document.id = e'.document.id) : e = e' := by
  obtain ⟨id, -, hbuilds⟩ := (mem_entriesOf_iff h e).1 he
  obtain ⟨id', -, hbuilds'⟩ := (mem_entriesOf_iff h e').1 he'
  obtain rfl : id = id' := by rw [← hbuilds.id_eq, ← hbuilds'.id_eq, hid]
  exact hbuilds.unique hbuilds'

/-- A document that can be loaded has its own entry afterwards. -/
theorem get?_applyOneByOne_of_builds {id : String} {e : Entry} (hid : id ∈ ids)
    (he : l.Builds id e) (i : Index) : (applyOneByOne i results).1.get? id = some e := by
  have hmem : e ∈ entriesOf results := (mem_entriesOf_iff h e).2 ⟨id, hid, he⟩
  obtain rfl := he.id_eq
  -- all entries of the document are the same, so it does not matter which is stored last
  exact Index.get?_foldl_put_of_mem hmem
    (fun e' he' heq => eq_of_mem_entriesOf h he' hmem heq) i

/-- An identifier that is not in the list, or whose document cannot be loaded, keeps what it had. -/
theorem get?_applyOneByOne_of_not_loads {id : String} (hid : id ∈ ids → ¬l.Loads id) (i : Index) :
    (applyOneByOne i results).1.get? id = i.get? id := by
  refine Index.get?_foldl_put_of_forall_ne (fun e he heq => ?_) i
  obtain ⟨id', hmem, hbuilds⟩ := (mem_entriesOf_iff h e).1 he
  obtain rfl : id' = id := hbuilds.id_eq.symm.trans heq
  exact hid hmem ⟨e, hbuilds⟩

theorem generation_applyOneByOne (i : Index) :
    (applyOneByOne i results).1.generation =
      i.generation + .ofNat (ids.countP fun id => l.Loads id) := by
  rw [← l.length_filterMap_entry?, ← (l.entriesOf_perm h).length_eq]
  exact Index.generation_foldl_put (entriesOf results) i

end

/-! ## A load -/

/-- After a load every document of the list that can be loaded has the entry that the answers of
the providers build, and every other identifier has what it had, also where its document failed.
The load is noted whatever became of the documents, and the generation, a number of 64 bits, has
grown by one for each position of the list whose document loaded. -/
theorem load_effect (i : Index) (ids : List String) :
    (∀ id ∈ ids, ∀ e, l.Builds id e → (l.load i ids).1.get? id = some e) ∧
      (∀ id, (id ∈ ids → ¬l.Loads id) → (l.load i ids).1.get? id = i.get? id) ∧
      (l.load i ids).1.loaded = true ∧
      (l.load i ids).1.generation.toNat =
        (i.generation.toNat + ids.countP fun id => l.Loads id) % UInt64.size := by
  have hperm := l.results_perm ids
  refine ⟨fun id hid e he => ?_, fun id hid => ?_, rfl, ?_⟩
  · exact get?_applyOneByOne_of_builds hperm hid he i
  · exact get?_applyOneByOne_of_not_loads hperm hid i
  · have hgen : (l.load i ids).1.generation = _ := generation_applyOneByOne hperm i
    rw [hgen, UInt64.toNat_add, UInt64.toNat_ofNat']
    exact Nat.add_mod_mod ..

end Loader

end ScopedRetrieval
