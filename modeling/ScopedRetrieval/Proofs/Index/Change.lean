/-
The changes of an index, one by one. A request is nothing but the changes it makes: a load stores
its documents one after the other and then notes that it is done, a rebuild makes one change, and a
read makes none (`run_eq_replay`). What is seen of an index at any moment, also in the middle of a
load, is therefore what some first changes of its history leave.
-/
import ScopedRetrieval.Proofs.Index.History

namespace ScopedRetrieval.Index

/-- What changes an index in one step: others see the index before it or after it. -/
inductive Change where
  | put (entry : Entry)
  | remove (id : String)
  | replaceAll (entries : List Entry)
  | clear
  | markLoaded

def Change.apply (i : Index) : Change → Index
  | .put entry => i.put entry
  | .remove id => (i.remove id).2
  | .replaceAll entries => i.replaceAll entries
  | .clear => i.clear
  | .markLoaded => i.markLoaded

/-- The index after some changes, one after the other. -/
def replay (i : Index) (changes : List Change) : Index := changes.foldl Change.apply i

theorem replay_append (i : Index) (changes changes' : List Change) :
    i.replay (changes ++ changes') = (i.replay changes).replay changes' :=
  List.foldl_append

/-- A removal finds its entry exactly where there is one. -/
theorem remove_found_iff (i : Index) (id : String) :
    (i.remove id).1 = true ↔ ∃ e, i.get? id = some e := by
  rw [← Option.isSome_iff_exists]
  unfold remove get? KeyMap.contains
  split <;> simp_all

theorem remove_of_not_found {i : Index} {id : String} (h : (i.remove id).1 = false) :
    (i.remove id).2 = i := by
  unfold remove at h ⊢
  split at h
  · cases h
  · rename_i hno
    rw [if_neg hno]

/-! ## Requests as changes -/

/-- The changes of a load whose results come in the given order. -/
def loadChanges (results : List LoadResult) : List Change :=
  (Loader.entriesOf results).map .put ++ [.markLoaded]

/-- The changes that a request makes, in their order. -/
def Request.changes : Request → List Change
  | .put entry => [.put entry]
  | .remove id => [.remove id]
  | .replaceAll entries => [.replaceAll entries]
  | .clear => [.clear]
  | .markLoaded => [.markLoaded]
  | .load l ids => loadChanges (l.results ids)
  | .rebuild l ids => [.replaceAll (Loader.entriesOf (l.results ids))]
  | .loadAll l =>
    match l.listing with
    | .error _ => []
    | .ok ids => loadChanges (l.results ids)
  | .rebuildAll l =>
    match l.listing with
    | .error _ => []
    | .ok ids => [.replaceAll (Loader.entriesOf (l.results ids))]
  | .get _ | .enumerate | .retrieve .. | .retrieveDocuments .. | .execute .. => []

/-- The changes of some requests, one after the other. -/
def history (requests : List Request) : List Change := requests.flatMap Request.changes

theorem replay_loadChanges (i : Index) (results : List LoadResult) :
    i.replay (loadChanges results) = (Loader.applyOneByOne i results).1 := by
  unfold loadChanges
  rw [replay_append]
  show ((Loader.entriesOf results).map Change.put |>.foldl Change.apply i).markLoaded = _
  rw [List.foldl_map]
  rfl

theorem perform_eq_replay (i : Index) (r : Request) : (i.perform r).1 = i.replay r.changes := by
  cases r with
  | load l ids => exact (replay_loadChanges i _).symm
  | loadAll l =>
    show (l.loadAll i).1 = _
    simp only [Loader.loadAll, Request.changes]
    cases l.listing with
    | error _ => rfl
    | ok ids => exact (replay_loadChanges i _).symm
  | rebuildAll l =>
    show (l.rebuildAll i).1 = _
    simp only [Loader.rebuildAll, Request.changes]
    cases l.listing with
    | error _ => rfl
    | ok ids => rfl
  | put | remove | replaceAll | clear | markLoaded | rebuild => rfl
  | get | enumerate | retrieve | retrieveDocuments | execute => rfl

/-- Requests do what the changes in their history do. -/
theorem run_eq_replay (i : Index) (requests : List Request) :
    i.run requests = i.replay (history requests) := by
  induction requests generalizing i with
  | nil => rfl
  | cons r rest ih =>
    show (i.perform r).1.run rest = i.replay (r.changes ++ history rest)
    rw [ih, perform_eq_replay, replay_append]

end ScopedRetrieval.Index
