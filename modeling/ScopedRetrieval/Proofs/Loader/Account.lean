/-
What the report of a load accounts for: every position of the list, once. A position is on record
as indexed or as failed, and as degraded only beside its being indexed; a document that loses its
attributes and then fails is a failure and nothing else. This holds with any providers, also where
a document that is asked for twice is answered for in two ways (`report_accounts_for_turns`).
-/
import ScopedRetrieval.Proofs.Loader.Batch
import ScopedRetrieval.Proofs.Text.ByteOrder

namespace ScopedRetrieval

/-! ## What a result has on record -/

namespace Loader

variable {l : Loader} {id : String}

theorem id_of_loadDocument_ok {d : LoadedDocument} (h : l.loadDocument id = .ok d) :
    d.entry.document.id = id := by
  obtain ⟨_, _, -, -, -, rfl⟩ := (l.loadDocument_eq_ok_iff id d).1 h
  rfl

theorem stage_of_degraded {d : LoadedDocument} {f : LoadFailure} (h : l.loadDocument id = .ok d)
    (hf : d.degraded = some f) : f.stage = .attributes := by
  obtain ⟨_, _, -, -, -, rfl⟩ := (l.loadDocument_eq_ok_iff id d).1 h
  unfold readAttributes at hf
  split at hf
  · cases hf
  · cases hf
    rfl

theorem stage_of_loadDocument_error {f : LoadFailure} (h : l.loadDocument id = .error f) :
    f.stage ≠ .attributes := by
  rcases (l.loadDocument_eq_error_iff id f).1 h with ⟨_, -, rfl⟩ | ⟨_, _, -, -, rfl⟩
  · exact LoadStage.noConfusion
  · exact LoadStage.noConfusion

theorem builds_iff (l : Loader) (id : String) (e : Entry) :
    l.Builds id e ↔ ∃ d, l.loadDocument id = .ok d ∧ d.entry = e := by
  rw [← entry?_eq_some_iff]
  unfold entry?
  cases l.loadDocument id <;> simp [Except.toOption]

theorem readAttributes_snd_eq_none_iff (l : Loader) (id : String) :
    (l.readAttributes id).2 = none ↔
      (l.metadata.attributes id).Gives l.settings.providerTimeoutMs (l.readAttributes id).1 := by
  rw [← Reply.bounded_outcome_eq_ok_iff]
  show _ ↔ (l.attributesReply id).outcome = .ok (l.readAttributes id).1
  unfold readAttributes
  split
  · rename_i h
    simp [h]
  · rename_i h
    simp [h]

/-- A document loads without being degraded exactly when its entry has the attributes that the
provider gave. -/
theorem loadDocument_eq_ok_none_iff (l : Loader) (id : String) (e : Entry) :
    l.loadDocument id = .ok ⟨e, none⟩ ↔ l.Builds id e ∧
      (l.metadata.attributes id).Gives l.settings.providerTimeoutMs e.document.attributes := by
  rw [builds_iff]
  constructor
  · intro h
    obtain ⟨_, _, -, -, -, heq⟩ := (l.loadDocument_eq_ok_iff id _).1 h
    obtain ⟨rfl, hnone⟩ := LoadedDocument.mk.inj heq
    exact ⟨⟨_, h, rfl⟩, (l.readAttributes_snd_eq_none_iff id).1 hnone.symm⟩
  · rintro ⟨⟨d, h, rfl⟩, hgives⟩
    obtain ⟨_, _, -, -, -, rfl⟩ := (l.loadDocument_eq_ok_iff id d).1 h
    rw [h, (l.readAttributes_snd_eq_none_iff id).2 hgives]

end Loader

/-- The identifier under which a result is on record. -/
def LoadResult.id : LoadResult → String
  | .ok d => d.entry.document.id
  | .error f => f.id

theorem Turn.id_result (s : LoaderSettings) (t : Turn) : LoadResult.id (t.result s) = t.id := by
  unfold LoadResult.id
  split
  · rename_i h
    exact Loader.id_of_loadDocument_ok h
  · rename_i h
    exact Loader.id_of_loadDocument_error h

theorem Turn.result_eq_ok_none_iff (s : LoaderSettings) (t : Turn) (e : Entry) :
    t.result s = .ok ⟨e, none⟩ ↔ t.BuildsWhole s e :=
  (t.loader s).loadDocument_eq_ok_none_iff t.id e

/-! ## The lists of a report -/

namespace LoadReport

theorem sortFailures_perm (failures : List LoadFailure) :
    (sortFailures failures).Perm failures :=
  List.mergeSort_perm ..

theorem sortFailures_ascending (failures : List LoadFailure) :
    ((sortFailures failures).map (·.id)).Pairwise (· ≤ ·) :=
  List.pairwise_map.2 (mergeSort_pairwise_key LoadFailure.id failures)

variable (results : List LoadResult) (generation : UInt64)

theorem indexed_perm : (ofResults results generation).indexed.Perm
    ((loadedOf results).map (·.entry.document.id)) :=
  List.mergeSort_perm ..

theorem indexed_append_failedIds_perm :
    ((ofResults results generation).indexed ++ (ofResults results generation).failedIds).Perm
      (results.map LoadResult.id) := by
  refine ((indexed_perm results generation).append ((sortFailures_perm _).map _)).trans ?_
  -- unsorted, the two lists are the results with the failures moved behind the documents
  induction results with
  | nil => exact .refl _
  | cons r rest ih =>
    cases r with
    | ok d => exact ih.cons _
    | error f => exact List.perm_middle.trans (ih.cons _)

theorem isClean_ofResults_iff : (ofResults results generation).isClean = true ↔
    ∀ r ∈ results, ∃ e, r = .ok ⟨e, none⟩ := by
  show ((sortFailures (failuresOf results)).isEmpty && (sortFailures _).isEmpty) = true ↔ _
  rw [(sortFailures_perm _).isEmpty_eq, (sortFailures_perm _).isEmpty_eq, Bool.and_eq_true,
    List.isEmpty_iff, List.isEmpty_iff, failuresOf, loadedOf, List.filterMap_filterMap,
    List.filterMap_eq_nil_iff, List.filterMap_eq_nil_iff, ← forall₂_and]
  refine forall₂_congr fun r _ => ?_
  cases r with
  | error f => simp
  | ok d =>
    obtain ⟨e, degraded⟩ := d
    simp [Except.toOption]

theorem map_id_degraded_sublist {loaded : List LoadedDocument}
    (h : ∀ d ∈ loaded, ∀ f, d.degraded = some f → f.id = d.entry.document.id) :
    ((loaded.filterMap (·.degraded)).map (·.id)).Sublist
      (loaded.map (·.entry.document.id)) := by
  induction loaded with
  | nil => exact .refl _
  | cons d rest ih =>
    rw [List.forall_mem_cons] at h
    have ih := ih h.2
    cases hd : d.degraded with
    | none =>
      rw [List.filterMap_cons_none hd]
      exact ih.cons _
    | some f =>
      rw [List.filterMap_cons_some hd, List.map_cons, List.map_cons, h.1 f hd]
      exact ih.cons_cons _

/-! ## The turns of a load -/

/-- What a report accounts for. The turns are those of its load, and `stored` are the entries that
went into the index. -/
structure Accounts (r : LoadReport) (s : LoaderSettings) (turns : List Turn)
    (stored : List Entry) : Prop where
  /-- Indexed or failed, every position is on record once. -/
  complete : (r.indexed ++ r.failedIds).Perm (turns.map (·.id))
  attempted : r.attempted = turns.length
  indexed : r.indexed.Perm (stored.map (·.document.id))
  stored_iff : ∀ e, e ∈ stored ↔ ∃ t ∈ turns, t.Builds s e
  degraded_indexed : ∀ id ∈ r.degradedIds, id ∈ r.indexed
  degraded_count : ∀ id, r.degradedIds.count id ≤ r.indexed.count id
  degraded_stage : ∀ f ∈ r.degraded, f.stage = .attributes
  failures_stage : ∀ f ∈ r.failures, f.stage ≠ .attributes
  indexed_ascending : r.indexed.Pairwise (fun a b => Text.utf8 a ≤ Text.utf8 b)
  degraded_ascending : r.degradedIds.Pairwise (fun a b => Text.utf8 a ≤ Text.utf8 b)
  failures_ascending : r.failedIds.Pairwise (fun a b => Text.utf8 a ≤ Text.utf8 b)
  /-- Every position was indexed with the attributes that the provider gave. -/
  isClean_iff : r.isClean = true ↔ ∀ t ∈ turns, ∃ e ∈ stored, t.BuildsWhole s e

section

variable {s : LoaderSettings} {turns : List Turn} {results : List LoadResult}
  (h : s.MayComplete turns results)

include h

theorem mem_results_iff (r : LoadResult) : r ∈ results ↔ ∃ t ∈ turns, t.result s = r := by
  rw [h.perm.mem_iff, List.mem_map]

theorem exists_turn_of_mem_loadedOf {d : LoadedDocument} (hd : d ∈ loadedOf results) :
    ∃ t ∈ turns, t.result s = .ok d :=
  (mem_results_iff h _).1 ((mem_loadedOf_iff results d).1 hd)

theorem mem_entriesOf_iff_exists_turn (e : Entry) :
    e ∈ Loader.entriesOf results ↔ ∃ t ∈ turns, t.Builds s e := by
  unfold Loader.entriesOf
  rw [List.mem_map]
  constructor
  · rintro ⟨d, hd, rfl⟩
    obtain ⟨t, ht, hresult⟩ := exists_turn_of_mem_loadedOf h hd
    exact ⟨t, ht, (Loader.builds_iff ..).2 ⟨d, hresult, rfl⟩⟩
  · rintro ⟨t, ht, hbuilds⟩
    obtain ⟨d, hd, rfl⟩ := (Loader.builds_iff ..).1 hbuilds
    exact ⟨d, (mem_loadedOf_iff results d).2 ((mem_results_iff h _).2 ⟨t, ht, hd⟩), rfl⟩

theorem map_id_results_perm : (results.map LoadResult.id).Perm (turns.map (·.id)) := by
  refine (h.perm.map _).trans (.of_eq ?_)
  rw [List.map_map]
  exact List.map_congr_left fun t _ => t.id_result s

theorem count_degradedIds_le (generation : UInt64) (id : String) :
    (ofResults results generation).degradedIds.count id ≤
      (ofResults results generation).indexed.count id := by
  have hdegraded : (ofResults results generation).degradedIds.Perm
      (((loadedOf results).filterMap (·.degraded)).map (·.id)) :=
    (sortFailures_perm _).map _
  rw [hdegraded.count_eq, (indexed_perm results generation).count_eq]
  -- a sublist, since a document that failed after it had lost its attributes is in neither list
  refine (map_id_degraded_sublist fun d hd f hf => ?_).count_le id
  obtain ⟨t, -, ht⟩ := exists_turn_of_mem_loadedOf h hd
  rw [Loader.id_of_degraded ht hf, Loader.id_of_loadDocument_ok ht]

theorem stage_of_mem_degraded {generation : UInt64} {f : LoadFailure}
    (hf : f ∈ (ofResults results generation).degraded) : f.stage = .attributes := by
  obtain ⟨d, hd, hf⟩ := List.mem_filterMap.1 ((sortFailures_perm _).mem_iff.1 hf)
  obtain ⟨t, -, ht⟩ := exists_turn_of_mem_loadedOf h hd
  exact Loader.stage_of_degraded ht hf

theorem stage_of_mem_failures {generation : UInt64} {f : LoadFailure}
    (hf : f ∈ (ofResults results generation).failures) : f.stage ≠ .attributes := by
  have hmem := (mem_failuresOf_iff results f).1 ((sortFailures_perm _).mem_iff.1 hf)
  obtain ⟨t, -, ht⟩ := (mem_results_iff h _).1 hmem
  exact Loader.stage_of_loadDocument_error ht

theorem isClean_iff_forall_turns (generation : UInt64) :
    (ofResults results generation).isClean = true ↔
      ∀ t ∈ turns, ∃ e ∈ Loader.entriesOf results, t.BuildsWhole s e := by
  rw [isClean_ofResults_iff]
  constructor
  · intro hall t ht
    obtain ⟨e, he⟩ := hall _ ((mem_results_iff h _).2 ⟨t, ht, rfl⟩)
    have he := (t.result_eq_ok_none_iff s e).1 he
    exact ⟨e, (mem_entriesOf_iff_exists_turn h e).2 ⟨t, ht, he.1⟩, he⟩
  · intro hall r hr
    obtain ⟨t, ht, rfl⟩ := (mem_results_iff h r).1 hr
    obtain ⟨e, -, he⟩ := hall t ht
    exact ⟨e, (t.result_eq_ok_none_iff s e).2 he⟩

theorem accounts_ofResults (generation : UInt64) :
    (ofResults results generation).Accounts s turns (Loader.entriesOf results) := by
  have hcomplete :=
    (indexed_append_failedIds_perm results generation).trans (map_id_results_perm h)
  have hcount := count_degradedIds_le h generation
  have hbytes : ∀ {ids : List String}, ids.Pairwise (· ≤ ·) →
      ids.Pairwise (fun a b => Text.utf8 a ≤ Text.utf8 b) := fun hle =>
    hle.imp fun hab => (Text.utf8_le_utf8_iff _ _).2 hab
  constructor
  case complete => exact hcomplete
  case attempted =>
    have := hcomplete.length_eq
    simpa [attempted, failedIds] using this
  case indexed =>
    refine (indexed_perm results generation).trans (.of_eq ?_)
    unfold Loader.entriesOf
    rw [List.map_map]
    rfl
  case stored_iff => exact mem_entriesOf_iff_exists_turn h
  case degraded_indexed =>
    intro id hid
    exact List.count_pos_iff.1 ((List.count_pos_iff.2 hid).trans_le (hcount id))
  case degraded_count => exact hcount
  case degraded_stage => exact fun f hf => stage_of_mem_degraded h hf
  case failures_stage => exact fun f hf => stage_of_mem_failures h hf
  case indexed_ascending => exact hbytes (mergeSort_pairwise_key id _)
  case degraded_ascending => exact hbytes (sortFailures_ascending _)
  case failures_ascending => exact hbytes (sortFailures_ascending _)
  case isClean_iff => exact isClean_iff_forall_turns h generation

end

end LoadReport

/-- A load with these turns and this end is accounted for by its report: some entries went into the
index, and the report, which bears the generation of the index after it, tells of just those. -/
def LoaderSettings.Accounted (s : LoaderSettings) (m : Manner) (i : Index) (turns : List Turn)
    (out : Index × LoadReport) : Prop :=
  ∃ stored, out.1 = m.store i stored ∧ out.2.generation = out.1.generation ∧
    out.2.Accounts s turns stored

theorem LoaderSettings.MayEnd.accounted {s : LoaderSettings} {m : Manner} {i : Index}
    {turns : List Turn} {out : Index × LoadReport} (h : s.MayEnd m i turns out) :
    s.Accounted m i turns out := by
  obtain ⟨results, hmay, rfl⟩ := h
  exact ⟨_, rfl, rfl, LoadReport.accounts_ofResults hmay _⟩

/-- The reports of `load` and `rebuild` account for every identifier of the list, once for each
position; and so does the report of every load of that list, in either manner and in whatever order
its documents complete, with providers that answer otherwise at every position. -/
theorem Loader.report_accounts_for_turns (l : Loader) (i : Index) (ids : List String) :
    l.settings.Accounted .oneByOne i (l.turns ids) (l.load i ids) ∧
      l.settings.Accounted .atOnce i (l.turns ids) (l.rebuild i ids) ∧
      (l.turns ids).map (·.id) = ids ∧
      ∀ m turns out, turns.map (·.id) = ids → l.settings.MayEnd m i turns out →
        l.settings.Accounted m i turns out :=
  ⟨(l.mayEnd_loadIn .oneByOne i ids).accounted, (l.mayEnd_loadIn .atOnce i ids).accounted,
    l.map_id_turns ids, fun _ _ _ _ h => h.accounted⟩

/-- A document that is asked for twice and loses its attributes both times, the second time with
its embedding. -/
theorem Loader.report_accounts_for_turns_answered_otherwise :
    let source : MetadataProvider :=
      { list := .now (.ok [])
        content := fun _ => .now (.ok "news")
        attributes := fun id => .now (.error (.attributes id "unreadable")) }
    let hash := HashEmbedder.toProvider {}
    let turns : List Turn := [⟨"a", source, hash⟩, ⟨"a", source, { hash with dimension := 3 }⟩]
    let l : Loader := ⟨source, hash, { concurrency := 1 }⟩
    let out := Manner.oneByOne.apply .empty (l.settings.results turns)
    turns.map (·.id) = ["a", "a"] ∧ l.settings.MayEnd .oneByOne .empty turns out ∧
      out.2.indexed = ["a"] ∧ out.2.degradedIds = ["a"] ∧ out.2.failedIds = ["a"] ∧
      l.settings.Accounted .oneByOne .empty turns out := by
  intro source hash turns l out
  have hids : turns.map (·.id) = ["a", "a"] := rfl
  have hend : l.settings.MayEnd .oneByOne .empty turns out :=
    l.settings.mayEnd_results .oneByOne .empty turns
  have hindexed : out.2.indexed = ["a"] := by decide +kernel
  have hdegraded : out.2.degradedIds = ["a"] := by decide +kernel
  have hfailed : out.2.failedIds = ["a"] := by decide +kernel
  exact ⟨hids, hend, hindexed, hdegraded, hfailed,
    (l.report_accounts_for_turns .empty _).2.2.2 .oneByOne turns out hids hend⟩

end ScopedRetrieval
