/-
Logs of one index: what happened to it, one event after the other, each with the response that was
given. Loads are logged with their turns, so their providers need not answer the same each time and
their documents may complete in any order; whatever a load may end with has a log. A run of requests
has one as well, its transcript (`log_transcript`), so what holds of every log holds of every run.
-/
import ScopedRetrieval.Proofs.Index.Change
import ScopedRetrieval.Proofs.Loader.Batch

namespace ScopedRetrieval.Index

/-! ## Events -/

/-- What may happen to an index: a change, a load of some turns, or a read. -/
inductive Event where
  | change (c : Change)
  | load (s : LoaderSettings) (m : Manner) (turns : List Turn)
  /-- A load of all documents, of which the listing is answered thus. -/
  | loadAll (s : LoaderSettings) (m : Manner) (listing : Reply (List String)) (turns : List Turn)
  | get (id : String)
  | enumerate
  | retrieve (filter : Filter) (query : String) (requester : Requester)
  | retrieveDocuments (filter : Filter) (query : String) (requester : Requester)
  /-- The pipeline works on this index in place of the one it brings. -/
  | execute (pipeline : Pipeline) (query : String) (requester : Requester)

/-- What a change is answered with. -/
def Change.response (i : Index) : Change → Response
  | .remove id => .removed (i.remove id).1
  | .put _ | .replaceAll _ | .clear | .markLoaded => .done

/-- With this index the event may happen, and leave that index and that response. -/
inductive Happens (i : Index) : Event → Index → Response → Prop where
  | change (c : Change) : Happens i (.change c) (c.apply i) (c.response i)
  | load {s : LoaderSettings} {m : Manner} {turns : List Turn} {out : Index × LoadReport} :
    s.MayEnd m i turns out → Happens i (.load s m turns) out.1 (.reported out.2)
  | loadAll {s : LoaderSettings} {m : Manner} {listing : Reply (List String)} {turns : List Turn}
    {out : Index × Except ProviderError LoadReport} :
    s.MayEndAll m i listing turns out → Happens i (.loadAll s m listing turns) out.1 (.listed out.2)
  | get (id : String) : Happens i (.get id) i (.entry (i.get? id))
  | enumerate : Happens i .enumerate i (.snapshot i.snapshot)
  | retrieve (f : Filter) (query : String) (requester : Requester) :
    Happens i (.retrieve f query requester) i (.outcome (i.retrieve f query requester))
  | retrieveDocuments (f : Filter) (query : String) (requester : Requester) :
    Happens i (.retrieveDocuments f query requester) i
      (.documents (i.retrieveDocuments f query requester))
  | execute (p : Pipeline) (query : String) (requester : Requester) :
    Happens i (.execute p query requester) i
      (.answer ({ p with index := i }.execute query requester))

/-! ## Logs -/

/-- From the first index to the last these events may happen with these responses. -/
inductive Log : Index → List (Event × Response) → Index → Prop where
  | nil {i : Index} : Log i [] i
  | cons {i j k : Index} {e : Event} {response : Response} {rest : List (Event × Response)} :
    Happens i e j response → Log j rest k → Log i ((e, response) :: rest) k

/-- Between two parts of a log there is an index at which the one ends and the other begins. -/
theorem Log.split {before after : List (Event × Response)} {i k : Index}
    (h : Log i (before ++ after) k) : ∃ j, Log i before j ∧ Log j after k := by
  induction before generalizing i with
  | nil => exact ⟨i, .nil, h⟩
  | cons x rest ih =>
    cases h with
    | cons hx hrest =>
      obtain ⟨j, hbefore, hafter⟩ := ih hrest
      exact ⟨j, .cons hx hbefore, hafter⟩

/-! ## Requests -/

def Request.event : Request → Event
  | .put entry => .change (.put entry)
  | .remove id => .change (.remove id)
  | .replaceAll entries => .change (.replaceAll entries)
  | .clear => .change .clear
  | .markLoaded => .change .markLoaded
  | .load l ids => .load l.settings .oneByOne (l.turns ids)
  | .rebuild l ids => .load l.settings .atOnce (l.turns ids)
  | .loadAll l => .loadAll l.settings .oneByOne l.metadata.list l.turnsAll
  | .rebuildAll l => .loadAll l.settings .atOnce l.metadata.list l.turnsAll
  | .get id => .get id
  | .enumerate => .enumerate
  | .retrieve f query requester => .retrieve f query requester
  | .retrieveDocuments f query requester => .retrieveDocuments f query requester
  | .execute p query requester => .execute p query requester

theorem happens_perform (i : Index) (r : Request) :
    Happens i r.event (i.perform r).1 (i.perform r).2 := by
  cases r with
  | put entry => exact .change (.put entry)
  | remove id => exact .change (.remove id)
  | replaceAll entries => exact .change (.replaceAll entries)
  | clear => exact .change .clear
  | markLoaded => exact .change .markLoaded
  | load l ids => exact .load (l.mayEnd_loadIn .oneByOne i ids)
  | rebuild l ids => exact .load (l.mayEnd_loadIn .atOnce i ids)
  | loadAll l => exact .loadAll (l.mayEndAll_loadAllIn .oneByOne i)
  | rebuildAll l => exact .loadAll (l.mayEndAll_loadAllIn .atOnce i)
  | get id => exact .get id
  | enumerate => exact .enumerate
  | retrieve f query requester => exact .retrieve f query requester
  | retrieveDocuments f query requester => exact .retrieveDocuments f query requester
  | execute p query requester => exact .execute p query requester

/-- The log of requests that are carried out one after the other. -/
def transcript (i : Index) : List Request → List (Event × Response)
  | [] => []
  | r :: rest => (r.event, (i.perform r).2) :: (i.perform r).1.transcript rest

theorem log_transcript (i : Index) (requests : List Request) :
    Log i (i.transcript requests) (i.run requests) := by
  induction requests generalizing i with
  | nil => exact .nil
  | cons r rest ih => exact .cons (i.happens_perform r) (ih _)

end ScopedRetrieval.Index
