/-
Loads from providers that need not answer the same each time they are asked. Such a load is told by
its turns: for each position of the list the document that is asked for, and the providers as they
answer for it. A load by a loader, whose providers answer by the arguments alone, is one in which
all turns have the same providers (`mayEnd_loadIn`, `mayEndAll_loadAllIn`).
-/
import ScopedRetrieval.Proofs.Loader.Confluence

namespace ScopedRetrieval

/-! ## Turns -/

/-- A document that is asked for, and the providers as they answer for it. Where it is asked for
again they may answer otherwise. -/
structure Turn where
  id : String
  metadata : MetadataProvider
  embedder : EmbeddingProvider

namespace Turn

variable (s : LoaderSettings) (t : Turn)

def loader : Loader := ⟨t.metadata, t.embedder, s⟩

def result : LoadResult := (t.loader s).loadDocument t.id

def Builds (e : Entry) : Prop := (t.loader s).Builds t.id e

/-- The answers of this turn make the entry, and its attributes are the ones the provider gave. -/
def BuildsWhole (e : Entry) : Prop :=
  t.Builds s e ∧ (t.metadata.attributes t.id).Gives s.providerTimeoutMs e.document.attributes

end Turn

/-! ## The two manners of a load -/

/-- How the documents of a load get into the index: one by one, beside those already there, or all
at once in their place. -/
inductive Manner where
  | oneByOne
  | atOnce
deriving DecidableEq

namespace Manner

/-- The index after a load that came to the given entries. -/
def store : Manner → Index → List Entry → Index
  | oneByOne, i, entries => (entries.foldl Index.put i).markLoaded
  | atOnce, i, entries => i.replaceAll entries

/-- The index and the report of a load whose results come in the given order. -/
def apply (m : Manner) (i : Index) (results : List LoadResult) : Index × LoadReport :=
  let j := m.store i (Loader.entriesOf results)
  (j, .ofResults results j.generation)

end Manner

namespace Loader

variable (l : Loader) (m : Manner) (i : Index)

def loadIn : Manner → Index → List String → Index × LoadReport
  | .oneByOne => l.load
  | .atOnce => l.rebuild

def loadAllIn : Manner → Index → Index × Except ProviderError LoadReport
  | .oneByOne => l.loadAll
  | .atOnce => l.rebuildAll

theorem loadIn_eq_apply (ids : List String) : l.loadIn m i ids = m.apply i (l.results ids) := by
  cases m <;> rfl

theorem loadAllIn_of_listing_error {error : ProviderError} (h : l.listing = .error error) :
    l.loadAllIn m i = (i, .error error) := by
  cases m with
  | oneByOne => simp only [loadAllIn, loadAll, h]
  | atOnce => simp only [loadAllIn, rebuildAll, h]

theorem loadAllIn_of_listing_ok {ids : List String} (h : l.listing = .ok ids) :
    l.loadAllIn m i = ((l.loadIn m i ids).1, .ok (l.loadIn m i ids).2) := by
  cases m with
  | oneByOne => simp only [loadAllIn, loadAll, h]; rfl
  | atOnce => simp only [loadAllIn, rebuildAll, h]; rfl

end Loader

/-! ## How a load may end -/

namespace LoaderSettings

variable (s : LoaderSettings)

/-- The results of some turns may come in this order. -/
def MayComplete (turns : List Turn) (results : List LoadResult) : Prop :=
  Schedule.Interleaves (max s.concurrency.toNat 1) [] (turns.map (·.result s)) results

/-- A load with these turns may end with this index and this report. -/
def MayEnd (m : Manner) (i : Index) (turns : List Turn) (out : Index × LoadReport) : Prop :=
  ∃ results, s.MayComplete turns results ∧ out = m.apply i results

/-- A load of all documents may end so when the listing is answered thus. Without a listing nothing
is loaded; with one the documents of the turns are those that it lists. -/
inductive MayEndAll (m : Manner) (i : Index) (listing : Reply (List String)) (turns : List Turn) :
    Index × Except ProviderError LoadReport → Prop where
  | failed {error : ProviderError} :
    (listing.bounded s.providerTimeoutMs).outcome = .error error →
    MayEndAll m i listing turns (i, .error error)
  | listed {out : Index × LoadReport} :
    (listing.bounded s.providerTimeoutMs).outcome = .ok (turns.map (·.id)) →
    s.MayEnd m i turns out → MayEndAll m i listing turns (out.1, .ok out.2)

/-- The results in the order that the delays of the providers bring about. -/
def results (turns : List Turn) : List LoadResult :=
  Schedule.completions s.concurrency.toNat
    (turns.map fun t => ⟨t.result s, (t.loader s).loadTime t.id⟩)

theorem mayComplete_results (turns : List Turn) : s.MayComplete turns (s.results turns) := by
  have h := Schedule.completions_interleaves s.concurrency.toNat
    (turns.map fun t => ⟨t.result s, (t.loader s).loadTime t.id⟩)
  rw [List.map_map] at h
  exact h

theorem mayEnd_results (m : Manner) (i : Index) (turns : List Turn) :
    s.MayEnd m i turns (m.apply i (s.results turns)) :=
  ⟨_, s.mayComplete_results turns, rfl⟩

variable {s}

theorem MayComplete.perm {turns : List Turn} {results : List LoadResult}
    (h : s.MayComplete turns results) : results.Perm (turns.map (·.result s)) :=
  Schedule.Interleaves.perm h

end LoaderSettings

/-! ## Providers that do not change -/

namespace Loader

variable (l : Loader) (m : Manner) (i : Index)

def turns (ids : List String) : List Turn := ids.map fun id => ⟨id, l.metadata, l.embedder⟩

theorem map_id_turns (ids : List String) : (l.turns ids).map (·.id) = ids := by
  unfold turns
  rw [List.map_map]
  exact List.map_id ids

theorem results_turns (ids : List String) : l.settings.results (l.turns ids) = l.results ids := by
  unfold LoaderSettings.results turns
  rw [List.map_map]
  rfl

theorem mayEnd_loadIn (ids : List String) :
    l.settings.MayEnd m i (l.turns ids) (l.loadIn m i ids) := by
  rw [l.loadIn_eq_apply, ← l.results_turns]
  exact l.settings.mayEnd_results m i (l.turns ids)

theorem embedder_of_mem_turns {l : Loader} {ids : List String} {t : Turn} (ht : t ∈ l.turns ids) :
    t.embedder = l.embedder := by
  obtain ⟨id, -, rfl⟩ := List.mem_map.1 ht
  rfl

/-- The turns of a load of all documents by this loader, none where the listing fails. -/
def turnsAll : List Turn :=
  match l.listing with
  | .error _ => []
  | .ok ids => l.turns ids

theorem turnsAll_of_listing_ok {ids : List String} (h : l.listing = .ok ids) :
    l.turnsAll = l.turns ids := by
  unfold turnsAll
  rw [h]

theorem mayEndAll_loadAllIn :
    l.settings.MayEndAll m i l.metadata.list l.turnsAll (l.loadAllIn m i) := by
  cases h : l.listing with
  | error error =>
    rw [l.loadAllIn_of_listing_error m i h]
    exact .failed h
  | ok ids =>
    rw [l.loadAllIn_of_listing_ok m i h, l.turnsAll_of_listing_ok h]
    refine .listed ?_ (l.mayEnd_loadIn m i ids)
    rw [l.map_id_turns]
    exact h

theorem embedder_of_mem_turnsAll {l : Loader} {t : Turn} (ht : t ∈ l.turnsAll) :
    t.embedder = l.embedder := by
  unfold turnsAll at ht
  split at ht
  · cases ht
  · exact embedder_of_mem_turns ht

end Loader

end ScopedRetrieval
