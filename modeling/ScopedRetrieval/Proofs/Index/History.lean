/-
Histories of one index: what can be asked of it, one request after the other, and what then holds of
every index that was ever reached. Loads come down to the five changes of the index itself, so a
property that those keep is kept by every request (`Kept.perform`) and holds after every history
(`Reachable.of_kept`). The first such property is that every entry stands under the identifier of
its own document (`Reachable.filed`).
-/
import ScopedRetrieval.Pipeline
import ScopedRetrieval.Proofs.KeyMap.Enumeration

namespace ScopedRetrieval.Index

/-! ## Requests -/

/-- What can be asked of one index: changes, loads, reads and retrievals. -/
inductive Request where
  | put (entry : Entry)
  | remove (id : String)
  | replaceAll (entries : List Entry)
  | clear
  | markLoaded
  | load (loader : Loader) (ids : List String)
  | rebuild (loader : Loader) (ids : List String)
  | loadAll (loader : Loader)
  | rebuildAll (loader : Loader)
  | get (id : String)
  | enumerate
  | retrieve (filter : Filter) (query : String) (requester : Requester)
  | retrieveDocuments (filter : Filter) (query : String) (requester : Requester)
  /-- The pipeline works on this index in place of the one it brings. -/
  | execute (pipeline : Pipeline) (query : String) (requester : Requester)

/-- What a request is answered with. -/
inductive Response where
  | done
  | removed (found : Bool)
  | reported (report : LoadReport)
  | listed (report : Except ProviderError LoadReport)
  | entry (found : Option Entry)
  | snapshot (snapshot : Snapshot)
  | outcome (outcome : Except RetrievalFault Outcome)
  | documents (documents : Except RetrievalFault (List Document))
  | answer (answer : Except RetrievalFault Answer)

/-- Carries out a request: the index behind it, and the answer. -/
def perform (i : Index) : Request → Index × Response
  | .put entry => (i.put entry, .done)
  | .remove id => ((i.remove id).2, .removed (i.remove id).1)
  | .replaceAll entries => (i.replaceAll entries, .done)
  | .clear => (i.clear, .done)
  | .markLoaded => (i.markLoaded, .done)
  | .load l ids => (l.load i ids).map id .reported
  | .rebuild l ids => (l.rebuild i ids).map id .reported
  | .loadAll l => (l.loadAll i).map id .listed
  | .rebuildAll l => (l.rebuildAll i).map id .listed
  | .get id => (i, .entry (i.get? id))
  | .enumerate => (i, .snapshot i.snapshot)
  | .retrieve f query requester => (i, .outcome (i.retrieve f query requester))
  | .retrieveDocuments f query requester => (i, .documents (i.retrieveDocuments f query requester))
  | .execute p query requester => (i, .answer ({ p with index := i }.execute query requester))

/-- The index behind a sequence of requests. -/
def run (i : Index) (requests : List Request) : Index :=
  requests.foldl (fun i r => (i.perform r).1) i

/-- An index that some requests lead to, one after the other, from the new one. -/
def Reachable (i : Index) : Prop := ∃ requests, run .empty requests = i

/-! ## What every history keeps -/

/-- A property that the changes of an index keep. -/
structure Kept (P : Index → Prop) : Prop where
  put : ∀ {i : Index} (entry : Entry), P i → P (i.put entry)
  remove : ∀ {i : Index} (id : String), P i → P (i.remove id).2
  replaceAll : ∀ {i : Index} (entries : List Entry), P i → P (i.replaceAll entries)
  clear : ∀ {i : Index}, P i → P i.clear
  markLoaded : ∀ {i : Index}, P i → P i.markLoaded

namespace Kept

variable {P : Index → Prop}

theorem foldl_put (h : Kept P) :
    ∀ (entries : List Entry) {i : Index}, P i → P (entries.foldl Index.put i)
  | [], _, hi => hi
  | e :: rest, _, hi => foldl_put h rest (h.put e hi)

theorem load (h : Kept P) (l : Loader) (ids : List String) {i : Index} (hi : P i) :
    P (l.load i ids).1 :=
  h.markLoaded (h.foldl_put _ hi)

theorem rebuild (h : Kept P) (l : Loader) (ids : List String) {i : Index} (hi : P i) :
    P (l.rebuild i ids).1 :=
  h.replaceAll _ hi

/-- What the changes keep, every request keeps. -/
theorem perform (h : Kept P) (r : Request) {i : Index} (hi : P i) : P (i.perform r).1 := by
  cases r with
  | put entry => exact h.put entry hi
  | remove id => exact h.remove id hi
  | replaceAll entries => exact h.replaceAll entries hi
  | clear => exact h.clear hi
  | markLoaded => exact h.markLoaded hi
  | load l ids => exact h.load l ids hi
  | rebuild l ids => exact h.rebuild l ids hi
  -- where the listing fails the index stays as it was
  | loadAll l =>
    show P (l.loadAll i).1
    unfold Loader.loadAll
    split
    · exact hi
    · exact h.load l _ hi
  | rebuildAll l =>
    show P (l.rebuildAll i).1
    unfold Loader.rebuildAll
    split
    · exact hi
    · exact h.rebuild l _ hi
  | get | enumerate | retrieve | retrieveDocuments | execute => exact hi

theorem run (h : Kept P) : ∀ (requests : List Request) {i : Index}, P i → P (i.run requests)
  | [], _, hi => hi
  | r :: rest, _, hi => run h rest (h.perform r hi)

end Kept

/-- What holds of the new index and is kept by the changes holds of every index ever reached. -/
theorem Reachable.of_kept {P : Index → Prop} (h : Kept P) (h₀ : P .empty) {i : Index}
    (hi : i.Reachable) : P i := by
  obtain ⟨requests, rfl⟩ := hi
  exact h.run requests h₀

/-! ## Entries under their own identifiers -/

/-- Every entry stands under the identifier of its document. -/
def Filed (i : Index) : Prop := ∀ id e, i.get? id = some e → e.document.id = id

theorem get?_put (i : Index) (e : Entry) (id : String) :
    (i.put e).get? id = if id = e.document.id then some e else i.get? id :=
  i.entries.find?_insert e.document.id id e

theorem get?_remove (i : Index) (id id' : String) :
    (i.remove id).2.get? id' = if id' = id then none else i.get? id' := by
  unfold remove
  split
  · exact i.entries.find?_erase id id'
  · rename_i h
    split
    · rename_i he
      subst he
      simpa [get?, KeyMap.contains] using h
    · rfl

/-- Of the entries that are put in place of all, the last one of a document counts. -/
theorem get?_replaceAll (i : Index) (entries : List Entry) (id : String) :
    (i.replaceAll entries).get? id =
      (entries.map fun e => (e.document.id, e)).reverse.lookup id :=
  KeyMap.find?_ofList _ id

/-- An entry that is found among others by its identifier is one of them and bears it. -/
theorem mem_of_lookup {entries : List Entry} {id : String} {e : Entry}
    (h : (entries.map fun e => (e.document.id, e)).reverse.lookup id = some e) :
    e ∈ entries ∧ e.document.id = id := by
  obtain ⟨l₁, l₂, hl, -⟩ := List.lookup_eq_some_iff.1 h
  have hmem : (id, e) ∈ (entries.map fun e => (e.document.id, e)).reverse := by
    rw [hl]
    exact List.mem_append_right _ List.mem_cons_self
  rw [List.mem_reverse, List.mem_map] at hmem
  obtain ⟨e', he', heq⟩ := hmem
  cases heq
  exact ⟨he', rfl⟩

theorem filed_kept : Kept Filed where
  put e hi id e' h := by
    rw [get?_put] at h
    split at h
    · rename_i hid
      cases h
      exact hid.symm
    · exact hi id e' h
  remove id' hi id e h := by
    rw [get?_remove] at h
    split at h
    · cases h
    · exact hi id e h
  replaceAll entries hi id e h := by
    rw [get?_replaceAll] at h
    exact (mem_of_lookup h).2
  clear hi id e h := by cases h
  markLoaded hi := hi

/-- In every index that was ever reached each entry stands under its own identifier. -/
theorem Reachable.filed {i : Index} (h : i.Reachable) : i.Filed :=
  h.of_kept filed_kept fun _ _ he => by cases he

end ScopedRetrieval.Index
