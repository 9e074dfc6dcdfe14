/-
Who may see a document whose attributes could not be read. It is indexed without any, so nothing is
left of what it was really about, and it is withheld by those matches alone that insist on an
attribute (`admits_empty_iff`). A load reports as degraded exactly the documents that it indexes so
(`mem_degradedIds_iff`).
-/
import ScopedRetrieval.Proofs.Loader.Account
import ScopedRetrieval.Proofs.Policy.Admission
import ScopedRetrieval.Proofs.Retrieval.Partition

namespace ScopedRetrieval

/-! ## Documents without attributes -/

theorem AttributeMatch.met_empty_iff (m : AttributeMatch) (requester : Requester) :
    m.Met .empty requester ↔ ¬(m.missing = .deny ∧ requester.presents m.contextKey = true) := by
  unfold Met ClaimMet
  rw [KeyMap.find?_empty, requester.presents_iff]
  cases requester.claim? m.contextKey <;> cases m.missing <;> simp

/-- Without attributes a document is of no tier. -/
theorem PolicySettings.cleared_empty (s : PolicySettings) (requester : Requester) :
    s.Cleared .empty requester :=
  ⟨nofun, nofun⟩

/-- A document without attributes is withheld from those who present a claim to a match that insists
on its attribute, and from nobody else. -/
theorem PolicySettings.admits_empty_iff (s : PolicySettings) (requester : Requester) :
    (Filter.ofSettingsUnchecked s).admits .empty requester = true ↔
      ¬∃ m ∈ s.attributeMatches, m.missing = .deny ∧ requester.presents m.contextKey = true := by
  rw [s.admits_iff, and_iff_left (s.cleared_empty requester)]
  simp only [AttributeMatch.met_empty_iff, not_exists, not_and]

/-! ## Retrieving one document -/

namespace Index

/-- What is found under an identifier is admitted when the filter admits its document. -/
theorem mem_admittedIds_record_iff {i : Index} (hi : i.Filed) {id : String} {e : Entry}
    (he : i.get? id = some e) (f : Filter) (query : String) (requester : Requester) :
    id ∈ (i.record f query requester).admittedIds ↔
      f.admits e.document.attributes requester = true := by
  obtain rfl : e.document.id = id := hi id e he
  have hmem := (record_partitions hi f query requester).mem_admitted
  unfold Outcome.admittedIds
  rw [List.mem_map]
  constructor
  · rintro ⟨d, hd, hid⟩
    obtain ⟨⟨e', he', rfl⟩, hadmits⟩ := (hmem d).1 hd
    rw [hid, he] at he'
    cases he'
    exact hadmits
  · intro hadmits
    exact ⟨e.document, (hmem _).2 ⟨⟨e, he, rfl⟩, hadmits⟩, rfl⟩

theorem Filed.store {i : Index} (hi : i.Filed) (m : Manner) (entries : List Entry) :
    (m.store i entries).Filed := by
  cases m with
  | oneByOne => exact filed_kept.markLoaded (filed_kept.foldl_put entries hi)
  | atOnce => exact filed_kept.replaceAll entries hi

end Index

/-! ## What a load reports as degraded -/

namespace Loader

/-- The attributes of the document do not come, or not in time. -/
def LacksAttributes (l : Loader) (id : String) : Prop :=
  ¬∃ a, (l.metadata.attributes id).Gives l.settings.providerTimeoutMs a

variable {l : Loader} {id : String}

theorem lacksAttributes_iff : l.LacksAttributes id ↔ ∃ f, (l.readAttributes id).2 = some f := by
  rw [← Option.ne_none_iff_exists', ne_eq, readAttributes_snd_eq_none_iff]
  refine not_congr ⟨?_, fun h => ⟨_, h⟩⟩
  rintro ⟨a, ha⟩
  have heq : (l.readAttributes id).1 = a := (l.readAttributes_eq_iff id a).2 (.inl ha)
  rwa [heq]

theorem degraded_of_loadDocument_ok {d : LoadedDocument} (h : l.loadDocument id = .ok d) :
    d.degraded = (l.readAttributes id).2 := by
  obtain ⟨_, _, -, -, -, rfl⟩ := (l.loadDocument_eq_ok_iff id d).1 h
  rfl

/-- A document that lacks its attributes is indexed without any. -/
theorem Builds.attributes_eq_empty {e : Entry} (h : l.Builds id e) (hlacks : l.LacksAttributes id) :
    e.document.attributes = .empty := by
  rcases h.attributes with hgives | ⟨hempty, -⟩
  · exact absurd ⟨_, hgives⟩ hlacks
  · exact hempty

theorem map_result_turns (ids : List String) :
    (l.turns ids).map (·.result l.settings) = ids.map l.loadDocument := by
  unfold turns
  rw [List.map_map]
  rfl

section

variable {results : List LoadResult} {ids : List String}
  (h : results.Perm (ids.map l.loadDocument))

include h

/-- Degraded are the documents of the list that load, but lack their attributes. -/
theorem mem_degradedIds_iff (generation : UInt64) (id : String) :
    id ∈ (LoadReport.ofResults results generation).degradedIds ↔
      id ∈ ids ∧ l.Loads id ∧ l.LacksAttributes id := by
  have hmem : ∀ d, d ∈ LoadReport.loadedOf results ↔ ∃ id ∈ ids, l.loadDocument id = .ok d :=
    fun d => by rw [LoadReport.mem_loadedOf_iff, h.mem_iff, List.mem_map]
  have hdegraded : (LoadReport.ofResults results generation).degradedIds.Perm
      (((LoadReport.loadedOf results).filterMap (·.degraded)).map (·.id)) :=
    (LoadReport.sortFailures_perm _).map _
  rw [hdegraded.mem_iff, List.mem_map]
  constructor
  · rintro ⟨f, hf, rfl⟩
    obtain ⟨d, hd, hdf⟩ := List.mem_filterMap.1 hf
    obtain ⟨id, hid, hload⟩ := (hmem d).1 hd
    rw [id_of_degraded hload hdf]
    refine ⟨hid, ⟨d.entry, (l.builds_iff id _).2 ⟨d, hload, rfl⟩⟩, lacksAttributes_iff.2 ⟨f, ?_⟩⟩
    rw [← degraded_of_loadDocument_ok hload, hdf]
  · rintro ⟨hid, ⟨e, hbuilds⟩, hlacks⟩
    obtain ⟨d, hload, -⟩ := (l.builds_iff id e).1 hbuilds
    obtain ⟨f, hf⟩ := lacksAttributes_iff.1 hlacks
    rw [← degraded_of_loadDocument_ok hload] at hf
    exact ⟨f, List.mem_filterMap.2 ⟨d, (hmem d).2 ⟨id, hid, hload⟩, hf⟩, id_of_degraded hload hf⟩

/-- After a load in either manner a document of the list that can be loaded has its own entry. -/
theorem get?_apply_of_builds (m : Manner) (i : Index) {e : Entry} (hid : id ∈ ids)
    (he : l.Builds id e) : (m.apply i results).1.get? id = some e := by
  cases m with
  | oneByOne => exact get?_applyOneByOne_of_builds h hid he i
  | atOnce =>
    show (Index.entryMap (entriesOf results)).find? id = some e
    rw [Index.entryMap_eq_foldl_put]
    exact get?_applyOneByOne_of_builds h hid he .empty

/-- A retrieval right after the load puts the document to the filter without attributes. -/
theorem retrieve_apply_of_lacksAttributes (m : Manner) {i : Index} (hi : i.Filed) (hid : id ∈ ids)
    (hloads : l.Loads id) (hlacks : l.LacksAttributes id) (f : Filter) (query : String)
    (requester : Requester) :
    ∃ o, (m.apply i results).1.retrieve f query requester = .ok o ∧
      (id ∈ o.admittedIds ↔ f.admits .empty requester = true) := by
  obtain ⟨e, hbuilds⟩ := hloads
  have hloaded : (m.apply i results).1.loaded = true := by cases m <;> rfl
  have hfiled : (m.apply i results).1.Filed := hi.store m _
  refine ⟨_, Index.retrieve_of_loaded hloaded f query requester, ?_⟩
  rw [Index.mem_admittedIds_record_iff hfiled (get?_apply_of_builds h m i hid hbuilds),
    hbuilds.attributes_eq_empty hlacks]

end

end Loader

/-! ## Their audience -/

/-- Who is admitted, after a load that ended so, to the documents that it reports as degraded. -/
structure DegradedAudience (s : PolicySettings) (f : Filter) (l : Loader) (ids : List String)
    (out : Index × LoadReport) : Prop where
  /-- They are the documents that load, but whose attributes do not come in time. -/
  degraded_iff : ∀ id, id ∈ out.2.degradedIds ↔ id ∈ ids ∧ l.Loads id ∧ l.LacksAttributes id
  admitted_iff : ∀ id ∈ out.2.degradedIds, ∀ query requester,
    ∃ o, out.1.retrieve f query requester = .ok o ∧
      (id ∈ o.admittedIds ↔
        ¬∃ m ∈ s.attributeMatches, m.missing = .deny ∧ requester.presents m.contextKey = true)
  /-- Where no attribute is insisted on, everyone is, also without a claim. -/
  admitted_of_lax : s.missing ≠ .deny → (∀ r ∈ s.rules, r.missing ≠ some .deny) →
    ∀ id ∈ out.2.degradedIds, ∀ query requester,
      ∃ o, out.1.retrieve f query requester = .ok o ∧ id ∈ o.admittedIds

theorem degradedAudience_of_mayEnd (s : PolicySettings) {l : Loader} {m : Manner} {i : Index}
    {ids : List String} {out : Index × LoadReport} (hi : i.Filed)
    (h : l.settings.MayEnd m i (l.turns ids) out) :
    DegradedAudience s (.ofSettingsUnchecked s) l ids out := by
  obtain ⟨results, hmay, rfl⟩ := h
  have hperm : results.Perm (ids.map l.loadDocument) := Loader.map_result_turns ids ▸ hmay.perm
  have hdegraded : ∀ id, id ∈ (m.apply i results).2.degradedIds ↔
      id ∈ ids ∧ l.Loads id ∧ l.LacksAttributes id := Loader.mem_degradedIds_iff hperm _
  have hadmitted : ∀ id ∈ (m.apply i results).2.degradedIds, ∀ query requester, ∃ o,
      (m.apply i results).1.retrieve (.ofSettingsUnchecked s) query requester = .ok o ∧
        (id ∈ o.admittedIds ↔
          ¬∃ m ∈ s.attributeMatches, m.missing = .deny ∧
            requester.presents m.contextKey = true) := by
    intro id hid query requester
    obtain ⟨hmem, hloads, hlacks⟩ := (hdegraded id).1 hid
    rw [← s.admits_empty_iff]
    exact Loader.retrieve_apply_of_lacksAttributes hperm m hi hmem hloads hlacks _ query requester
  constructor
  case degraded_iff => exact hdegraded
  case admitted_iff => exact hadmitted
  case admitted_of_lax =>
    intro hmissing hrules id hid query requester
    obtain ⟨o, ho, hiff⟩ := hadmitted id hid query requester
    refine ⟨o, ho, hiff.2 ?_⟩
    rintro ⟨m, hm, hdeny, -⟩
    exact s.forall_missing_ne_deny_iff.2 ⟨hmissing, hrules⟩ m hm hdeny

/-- Under valid settings a document that a load has degraded is admitted, in every retrieval right
after the load, to all but those who present a claim to a match that insists on its attribute; what
its attributes really are does not matter. This holds where a list of documents is loaded beside
those of an index or in their place, in whatever order they complete, and where the list is that of
all documents. -/
theorem degraded_audience_exact {s : PolicySettings} (h : s.validate = .ok ()) :
    ∃ f, Filter.ofSettings s = .ok f ∧ ∀ (l : Loader) (i : Index) (ids : List String),
      i.Reachable →
      DegradedAudience s f l ids (l.load i ids) ∧ DegradedAudience s f l ids (l.rebuild i ids) ∧
      (∀ m out, l.settings.MayEnd m i (l.turns ids) out → DegradedAudience s f l ids out) ∧
      (l.listing = .ok ids → ∀ m, ∃ out, l.loadAllIn m i = (out.1, .ok out.2) ∧
        DegradedAudience s f l ids out) := by
  refine ⟨_, Filter.ofSettings_of_validate h, fun l i ids hi => ?_⟩
  have hends : ∀ m out, l.settings.MayEnd m i (l.turns ids) out →
      DegradedAudience s (.ofSettingsUnchecked s) l ids out := fun _ _ hend =>
    degradedAudience_of_mayEnd s hi.filed hend
  refine ⟨hends _ _ (l.mayEnd_loadIn .oneByOne i ids), hends _ _ (l.mayEnd_loadIn .atOnce i ids),
    hends, fun hlisting m => ?_⟩
  exact ⟨_, l.loadAllIn_of_listing_ok m i hlisting, hends _ _ (l.mayEnd_loadIn m i ids)⟩

/-- A confidential document of which the attributes come too late, after it was indexed with them:
under the settings by default everyone sees it, and with a rule that insists on an owner everyone
who presents no team. -/
theorem degraded_audience_exact_late_attributes :
    let source : MetadataProvider :=
      { list := .now (.ok ["b", "a"])
        content := fun id => .now (.ok id)
        attributes := fun id =>
          if id = "a" then
            ⟨6000, .ok (.ofList [("sensitivity", "confidential"), ("owner", "infra")])⟩
          else .now (.error (.attributes id "unreadable")) }
    let l : Loader := ⟨source, HashEmbedder.toProvider {}, { concurrency := 1 }⟩
    let i := Index.empty.put
      ⟨⟨"a", "plan", .ofList [("sensitivity", "confidential"), ("owner", "infra")]⟩, ⟨[]⟩⟩
    let s : PolicySettings := { rules := [⟨"team", "owner", some "team", some .deny⟩] }
    let member : Requester := .ofList [("team", "infra")]
    let out := l.rebuild i ["b", "a"]
    s.validate = .ok () ∧ ({} : PolicySettings).validate = .ok () ∧ i.Reachable ∧
      l.listing = .ok ["b", "a"] ∧ "a" ∈ out.2.degradedIds ∧
      (∃ f, Filter.ofSettings s = .ok f ∧
        (∃ o, out.1.retrieve f "q" .anonymous = .ok o ∧ "a" ∈ o.admittedIds) ∧
        (∃ o, out.1.retrieve f "q" member = .ok o ∧ "a" ∉ o.admittedIds) ∧
        ∃ all, l.loadAllIn .oneByOne i = (all.1, .ok all.2) ∧
          DegradedAudience s f l ["b", "a"] all) ∧
      ∃ f, Filter.ofSettings {} = .ok f ∧
        ∃ o, out.1.retrieve f "q" member = .ok o ∧ "a" ∈ o.admittedIds := by
  intro source l i s member out
  have hs : s.validate = .ok () := by decide
  have hdefault : ({} : PolicySettings).validate = .ok () := by decide
  have hi : i.Reachable :=
    ⟨[.put ⟨⟨"a", "plan", .ofList [("sensitivity", "confidential"), ("owner", "infra")]⟩, ⟨[]⟩⟩],
      rfl⟩
  have hlisting : l.listing = .ok ["b", "a"] := rfl
  have hloads : l.Loads "a" := by decide +kernel
  have hlacks : l.LacksAttributes "a" := fun ⟨_, hle, _⟩ => absurd hle (by decide)
  obtain ⟨f, hf, hall⟩ := degraded_audience_exact hs
  obtain ⟨-, hrebuild, -, hlisted⟩ := hall l i ["b", "a"] hi
  have hdegraded : "a" ∈ out.2.degradedIds :=
    (hrebuild.degraded_iff "a").2 ⟨by decide, hloads, hlacks⟩
  refine ⟨hs, hdefault, hi, hlisting, hdegraded, ?_, ?_⟩
  · obtain ⟨o, ho, hiff⟩ := hrebuild.admitted_iff "a" hdegraded "q" .anonymous
    obtain ⟨o', ho', hiff'⟩ := hrebuild.admitted_iff "a" hdegraded "q" member
    exact ⟨f, hf, ⟨o, ho, hiff.2 (by decide)⟩, ⟨o', ho', fun hmem => hiff'.1 hmem (by decide)⟩,
      hlisted hlisting .oneByOne⟩
  · obtain ⟨f, hf, hall⟩ := degraded_audience_exact hdefault
    have hrebuild := (hall l i ["b", "a"] hi).2.1
    exact ⟨f, hf, hrebuild.admitted_of_lax (by decide) (by decide) "a" hdegraded "q" member⟩

end ScopedRetrieval
