/-
Where the documents of a pipeline come from does not show. Two sources that list the same
identifiers and give the same for each of them in time lead to the same index and the same report
(`Loader.loadAllIn_eq_of_agreeOn`), whoever embeds the documents: also a service that answers late,
with errors or not at all. A directory into which documents were written and a corpus of the same
documents in memory are such sources (`directory_agrees_with_memory`).
-/
import ScopedRetrieval.Proofs.Corpus.Directory
import ScopedRetrieval.Proofs.Corpus.Memory
import ScopedRetrieval.Proofs.Loader.Batch
import ScopedRetrieval.Proofs.Policy.Admission
import ScopedRetrieval.Proofs.Retrieval.Confinement

namespace ScopedRetrieval

/-! ## Sources that agree -/

namespace MetadataProvider

/-- Every answer comes within the given time. -/
structure AnswersWithin (p : MetadataProvider) (timeoutMs : UInt64) : Prop where
  list : p.list.delayMs ≤ timeoutMs.toNat
  content : ∀ id, (p.content id).delayMs ≤ timeoutMs.toNat
  attributes : ∀ id, (p.attributes id).delayMs ≤ timeoutMs.toNat

/-- Both sources list the same identifiers in the same order, and for each of them both give the
same content and the same attributes. -/
structure AgreeOn (p q : MetadataProvider) (ids : List String) : Prop where
  left_list : p.list.outcome = .ok ids
  right_list : q.list.outcome = .ok ids
  content : ∀ id ∈ ids, ∃ text, (p.content id).outcome = .ok text ∧
    (q.content id).outcome = .ok text
  attributes : ∀ id ∈ ids, ∃ attributes, (p.attributes id).outcome = .ok attributes ∧
    (q.attributes id).outcome = .ok attributes

end MetadataProvider

theorem MemoryCorpus.answersWithin (c : MemoryCorpus) (timeoutMs : UInt64) :
    c.toProvider.AnswersWithin timeoutMs :=
  ⟨Nat.zero_le _, fun _ => Nat.zero_le _, fun _ => Nat.zero_le _⟩

namespace Loader

/-- Whoever waits long enough sees the answer. -/
theorem outcome_bounded_of_le {α : Type} {l : Loader} {r : Reply α}
    (h : r.delayMs ≤ l.settings.providerTimeoutMs.toNat) : (l.bounded r).outcome = r.outcome := by
  unfold bounded Reply.bounded
  rw [if_neg (Nat.not_lt_of_le h)]

/-- Loads of documents that come to the same results end alike. -/
theorem loadIn_eq_of_loadDocument_eq {l l' : Loader} {ids : List String}
    (h : ∀ id ∈ ids, l.loadDocument id = l'.loadDocument id) (m : Manner) (i : Index) :
    l.loadIn m i ids = l'.loadIn m i ids := by
  -- the documents may complete in another order, which does not show either
  have hperm : (l.results ids).Perm (l'.results ids) :=
    (l.results_perm ids).trans
      ((List.Perm.of_eq (List.map_congr_left h)).trans (l'.results_perm ids).symm)
  cases m with
  | oneByOne => exact applyOneByOne_eq_of_perm (l.results_perm ids) hperm i
  | atOnce => exact applyAtOnce_eq_of_perm (l.results_perm ids) hperm i

section

variable {p q : MetadataProvider} {ids : List String} (h : p.AgreeOn q ids)
  {s : LoaderSettings} (hp : p.AnswersWithin s.providerTimeoutMs)
  (hq : q.AnswersWithin s.providerTimeoutMs) (e : EmbeddingProvider)

include h hp hq

theorem loadDocument_eq_of_agreeOn {id : String} (hid : id ∈ ids) :
    (Loader.mk p e s).loadDocument id = (Loader.mk q e s).loadDocument id := by
  obtain ⟨text, hpText, hqText⟩ := h.content id hid
  obtain ⟨attributes, hpAttributes, hqAttributes⟩ := h.attributes id hid
  have hcontent : ((Loader.mk p e s).contentReply id).outcome =
      ((Loader.mk q e s).contentReply id).outcome := by
    unfold contentReply
    rw [outcome_bounded_of_le (hp.content id), outcome_bounded_of_le (hq.content id)]
    exact hpText.trans hqText.symm
  have hattributes : (Loader.mk p e s).readAttributes id = (Loader.mk q e s).readAttributes id := by
    unfold readAttributes attributesReply
    rw [outcome_bounded_of_le (hp.attributes id), outcome_bounded_of_le (hq.attributes id)]
    dsimp only
    rw [hpAttributes, hqAttributes]
  unfold loadDocument
  rw [hcontent, hattributes]
  rfl

/-- A load of all documents from either source ends with the same index and the same report. -/
theorem loadAllIn_eq_of_agreeOn (m : Manner) (i : Index) :
    (Loader.mk p e s).loadAllIn m i = ((Loader.mk q e s).loadIn m i ids).map id .ok ∧
      (Loader.mk q e s).loadAllIn m i = ((Loader.mk q e s).loadIn m i ids).map id .ok := by
  have hpListing : (Loader.mk p e s).listing = .ok ids :=
    (outcome_bounded_of_le hp.list).trans h.left_list
  have hqListing : (Loader.mk q e s).listing = .ok ids :=
    (outcome_bounded_of_le hq.list).trans h.right_list
  have hload := loadIn_eq_of_loadDocument_eq
    (fun id hid => loadDocument_eq_of_agreeOn h hp hq e hid) m i
  rw [loadAllIn_of_listing_ok _ m i hpListing, loadAllIn_of_listing_ok _ m i hqListing, hload]
  exact ⟨rfl, rfl⟩

end

end Loader

/-! ## Pipelines over them -/

namespace Pipeline

/-- Two loads have succeeded with the same report, and what they leave answers every request
alike. -/
def LoadedAlike (a b : Pipeline × Except ProviderError LoadReport) : Prop :=
  ∃ report, a.2 = .ok report ∧ b.2 = .ok report ∧ ∀ query requester, ∃ answer,
    a.1.execute query requester = .ok answer ∧ b.1.execute query requester = .ok answer

/-- Pipelines over sources that agree are not told apart. -/
theorem loadedAlike_of_agreeOn {p q : MetadataProvider} {ids : List String} (h : p.AgreeOn q ids)
    {s : LoaderSettings} (hp : p.AnswersWithin s.providerTimeoutMs)
    (hq : q.AnswersWithin s.providerTimeoutMs) (e : EmbeddingProvider) (f : Filter)
    (prompt : PromptSettings) (i : Index) :
    LoadedAlike (Pipeline.mk ⟨p, e, s⟩ f prompt i).load (Pipeline.mk ⟨q, e, s⟩ f prompt i).load ∧
      LoadedAlike (Pipeline.mk ⟨p, e, s⟩ f prompt i).reload
        (Pipeline.mk ⟨q, e, s⟩ f prompt i).reload := by
  have halike : ∀ m, LoadedAlike
      (⟨⟨p, e, s⟩, f, prompt, ((Loader.mk p e s).loadAllIn m i).1⟩,
        ((Loader.mk p e s).loadAllIn m i).2)
      (⟨⟨q, e, s⟩, f, prompt, ((Loader.mk q e s).loadAllIn m i).1⟩,
        ((Loader.mk q e s).loadAllIn m i).2) := by
    intro m
    obtain ⟨hpLoad, hqLoad⟩ := Loader.loadAllIn_eq_of_agreeOn h hp hq e m i
    rw [hpLoad, hqLoad]
    refine ⟨_, rfl, rfl, fun query requester => ?_⟩
    have hloaded : ((Loader.mk q e s).loadIn m i ids).1.loaded = true := by cases m <;> rfl
    obtain ⟨answer, hanswer, -⟩ := execute_of_loaded
      (p := ⟨⟨q, e, s⟩, f, prompt, ((Loader.mk q e s).loadIn m i ids).1⟩) hloaded query requester
    exact ⟨answer, hanswer, hanswer⟩
  exact ⟨halike .oneByOne, halike .atOnce⟩

/-- On the given network, the configuration fails over either source alike, or it makes pipelines
that load alike, beside what was loaded before and in its place. -/
def MadeAlike (network : Network) (settings : Configuration) (p q : MetadataProvider) : Prop :=
  (∃ failure, ofConfiguration network settings p = .error failure ∧
    ofConfiguration network settings q = .error failure) ∨
  ∃ a b, ofConfiguration network settings p = .ok a ∧ ofConfiguration network settings q = .ok b ∧
    LoadedAlike a.load b.load ∧ LoadedAlike a.reload b.reload

theorem madeAlike_of_agreeOn {p q : MetadataProvider} {ids : List String} (h : p.AgreeOn q ids)
    (network : Network) {settings : Configuration}
    (hp : p.AnswersWithin settings.loader.providerTimeoutMs)
    (hq : q.AnswersWithin settings.loader.providerTimeoutMs) : MadeAlike network settings p q := by
  unfold MadeAlike ofConfiguration
  cases settings.filter with
  | error fault => exact .inl ⟨.configuration fault, rfl, rfl⟩
  | ok f =>
    cases settings.embedding.provider network with
    | error fault => exact .inl ⟨.http fault, rfl, rfl⟩
    | ok embedder => exact .inr ⟨_, _, rfl, rfl, loadedAlike_of_agreeOn h hp hq embedder f _ _⟩

end Pipeline

/-! ## Directories and memory -/

/-- A directory in which users see some documents agrees with a corpus of these in memory. -/
theorem DirectoryCorpus.Stores.agreeOn {c : DirectoryCorpus} {v : Volume} {directory : String}
    {documents : List Document} (h : c.Stores v directory documents)
    (hids : (documents.map (·.id)).Nodup) (hplain : ∀ d ∈ documents, Volume.PlainName d.id)
    {p : MetadataProvider} (hp : c.Serves v p) :
    p.AgreeOn (MemoryCorpus.ofDocuments documents).toProvider
      (MemoryCorpus.ofDocuments documents).ids := by
  have hmem : ∀ id ∈ (MemoryCorpus.ofDocuments documents).ids, ∃ d ∈ documents, d.id = id := by
    intro id hid
    rw [MemoryCorpus.ids_of_nodup hids, List.mem_mergeSort] at hid
    exact List.mem_map.1 hid
  constructor
  case left_list =>
    have hentries := (v.entries_eq_ok_iff c.root _).2 ⟨h.text, directory, h.leads, rfl⟩
    obtain ⟨listed, hperm, hlist⟩ := hp.list _ hentries
    rw [hlist, h.identifiers_eq hplain hids hperm, MemoryCorpus.ids_of_nodup hids]
  case right_list => rfl
  case content =>
    intro id hid
    obtain ⟨d, hd, rfl⟩ := hmem id hid
    refine ⟨d.content, (hp.content d.id).trans (h.content_eq hplain hd), ?_⟩
    show (MemoryCorpus.ofDocuments documents).content d.id = _
    unfold MemoryCorpus.content
    rw [MemoryCorpus.lookup_of_nodup hids hd]
    rfl
  case attributes =>
    intro id hid
    obtain ⟨d, hd, rfl⟩ := hmem id hid
    obtain ⟨node, hnode, -⟩ := h.exists_attributeNode hplain hd
    have hnames : v.attributeNames (Volume.Path.join c.root d.id) = .ok node.attributes.keys := by
      unfold Volume.attributeNames
      rw [hnode]
      rfl
    obtain ⟨listed, hperm, hattributes⟩ := hp.attributes d.id _ _
      (DirectoryCorpus.pathFor_plainName (hplain d hd)) hnames
    refine ⟨d.attributes, ?_, ?_⟩
    · rw [hattributes, h.userAttributes_eq hplain hd hnames hperm]
    · show (MemoryCorpus.ofDocuments documents).attributes d.id = _
      unfold MemoryCorpus.attributes
      rw [MemoryCorpus.lookup_of_nodup hids hd]
      rfl

/-- Documents with visible names of their own that were written into an empty directory are read
from it as from memory, whatever is added in other namespaces and in whatever order names are read:
the same identifiers in the same order, and for each the same content and the same attributes. So
no configuration, on whatever network, makes pipelines that tell the two sources apart, as long as
the directory is read in the time that the configuration gives. -/
theorem directory_agrees_with_memory {c : DirectoryCorpus} {v u w : Volume}
    {documents : List Document} (hempty : v.entries c.root = .ok [])
    (hkeeps : v.keepsAttributes = true) (hids : (documents.map (·.id)).Nodup)
    (hplain : ∀ d ∈ documents, Volume.PlainName d.id)
    (hkeys : ∀ d ∈ documents, ∀ key ∈ d.attributes.keys, Volume.userKey? key = none)
    (hwrite : c.writeAll v documents = (u, .ok ())) (hw : u.SameForUsers w) :
    c.Serves w (c.toProvider w) ∧ ∀ p, c.Serves w p →
      p.AgreeOn (MemoryCorpus.ofDocuments documents).toProvider
          (MemoryCorpus.ofDocuments documents).ids ∧
        ∀ (network : Network) (settings : Configuration),
          p.AnswersWithin settings.loader.providerTimeoutMs →
            Pipeline.MadeAlike network settings p
              (MemoryCorpus.ofDocuments documents).toProvider := by
  obtain ⟨directory, hstores⟩ :=
    DirectoryCorpus.stores_of_writeAll hempty hkeeps hids hplain hkeys hwrite hw
  refine ⟨c.serves_toProvider w, fun p hp => ?_⟩
  have hagree := hstores.agreeOn hids hplain hp
  exact ⟨hagree, fun network settings hwithin =>
    Pipeline.madeAlike_of_agreeOn hagree network hwithin (MemoryCorpus.answersWithin _ _)⟩

/-- A corpus behind a link, one file of which gets an attribute of the system, read slowly and with
all names in descending order. A service embeds the documents; it gives no components for an empty
text, so one of the two cannot be loaded from either source. -/
theorem directory_agrees_with_memory_behind_link :
    let v : Volume := { nodes := .ofList [("", ⟨.directory, .empty⟩),
      ("/srv", ⟨.directory, .empty⟩), ("/srv/docs", ⟨.directory, .empty⟩),
      ("/corpus", ⟨.link "./srv//docs/", .empty⟩)] }
    let c : DirectoryCorpus := ⟨"corpus/"⟩
    let plan : Document :=
      { id := "plan.txt", content := "Größe: 3\n", attributes := .ofList [("owner", "infra"),
        ("level", "")] }
    let documents : List Document := [plan, { id := "news", content := "" }]
    let u := (c.writeAll v documents).1
    let file := DirectoryCorpus.fileOf plan
    let w := u.put "/srv/docs/plan.txt"
      { file with attributes := file.attributes.insert "security.label" [0xFF] }
    let p : MetadataProvider :=
      { list := ⟨40, match w.entries c.root with
          | .ok entries => .ok (DirectoryCorpus.identifiers entries.reverse)
          | .error _ => c.list w⟩
        content := fun id => ⟨70, c.content w id⟩
        attributes := fun id => ⟨100, match c.pathFor id with
          | .ok path => match w.attributeNames path with
            | .ok names => .ok (DirectoryCorpus.userAttributes w path names.reverse)
            | .error _ => c.attributes w id
          | .error _ => c.attributes w id⟩ }
    let settings : Configuration :=
      { embedding := { backend := .remote, dimension := 3 }, loader := ⟨4, 100⟩ }
    let prompt := "Größe: 3\n\n\nExtended Attributes: level=, owner=infra"
    let vector : Embedding := ⟨[.ofNat 3, .ofNat 1, .ofNat 4]⟩
    let client : ServiceClient :=
      { delayMs := fun _ => 60
        send := fun request =>
          .answered ⟨200, "OK"⟩ (.ok (if request.prompt = prompt then vector.values else [])) }
    let network : Network := ⟨fun _ => .ok client⟩
    let embedder := RemoteEmbedder.ofUrl client "http://127.0.0.1:11434" "nomic-embed-text" 3
    let l : Loader := ⟨p, embedder.toProvider, settings.loader⟩
    let failure : LoadFailure :=
      ⟨"news", .embedding, .embedding "Expected 3 dimensions from nomic-embed-text, got 0"⟩
    v.entries c.root = .ok [] ∧ v.keepsAttributes = true ∧ (documents.map (·.id)).Nodup ∧
      (∀ d ∈ documents, Volume.PlainName d.id) ∧
      (∀ d ∈ documents, ∀ key ∈ d.attributes.keys, Volume.userKey? key = none) ∧
      c.writeAll v documents = (u, .ok ()) ∧ u.SameForUsers w ∧ c.Serves w p ∧
      p.AnswersWithin settings.loader.providerTimeoutMs ∧
      p.AgreeOn (MemoryCorpus.ofDocuments documents).toProvider ["news", "plan.txt"] ∧
      Pipeline.ofConfiguration network settings p =
        .ok { loader := l, filter := .ofSettingsUnchecked settings.policy } ∧
      l.loadDocument "plan.txt" = .ok ⟨⟨plan, vector⟩, none⟩ ∧
      l.loadDocument "news" = .error failure ∧
      Pipeline.MadeAlike network settings p (MemoryCorpus.ofDocuments documents).toProvider := by
  intro v c plan documents u file w p settings prompt vector client network embedder l failure
  have hempty : v.entries c.root = .ok [] := by decide +kernel
  have hids : (documents.map (·.id)).Nodup := by decide
  have hplain : ∀ d ∈ documents, Volume.PlainName d.id := by decide
  have hkeys : ∀ d ∈ documents, ∀ key ∈ d.attributes.keys, Volume.userKey? key = none := by
    decide +kernel
  have hwrite : c.writeAll v documents = (u, .ok ()) :=
    Prod.ext rfl (by decide +kernel)
  have hfile : u.nodes.find? "/srv/docs/plan.txt" = some file := by decide +kernel
  have hw : u.SameForUsers w := Volume.sameForUsers_put hfile (by decide +kernel) [0xFF]
  have hp : c.Serves w p := by
    constructor
    case list =>
      intro entries hentries
      refine ⟨entries.reverse, List.reverse_perm entries, ?_⟩
      show (match w.entries c.root with | .ok _ => _ | .error _ => _) = _
      rw [hentries]
    case content => exact fun _ => rfl
    case attributes =>
      intro id path names hpath hnames
      refine ⟨names.reverse, List.reverse_perm names, ?_⟩
      show (match c.pathFor id with | .ok _ => _ | .error _ => _) = _
      rw [hpath]
      dsimp only
      rw [hnames]
  have hwithin : p.AnswersWithin settings.loader.providerTimeoutMs :=
    ⟨by decide, fun _ => show 70 ≤ 100 by decide, fun _ => show 100 ≤ 100 by decide⟩
  have hlisted : (MemoryCorpus.ofDocuments documents).ids = ["news", "plan.txt"] := by
    decide +kernel
  obtain ⟨-, hall⟩ := directory_agrees_with_memory hempty rfl hids hplain hkeys hwrite hw
  obtain ⟨hagree, hmade⟩ := hall p hp
  have hpolicy : settings.policy.validate = .ok () := by decide
  have hembedder : settings.embedding.provider network = .ok embedder.toProvider := by
    have hurl : settings.embedding.url = "http://127.0.0.1:11434" := by decide +kernel
    unfold EmbeddingSettings.provider
    rw [hurl]
    rfl
  -- what is loaded from the directory is told by the corpus in memory
  have hload : ∀ id ∈ (MemoryCorpus.ofDocuments documents).ids, l.loadDocument id =
      (Loader.mk (MemoryCorpus.ofDocuments documents).toProvider embedder.toProvider
        settings.loader).loadDocument id := fun id hid =>
    Loader.loadDocument_eq_of_agreeOn hagree hwithin (MemoryCorpus.answersWithin _ _)
      embedder.toProvider hid
  rw [hlisted] at hload hagree
  have hplan : l.loadDocument "plan.txt" = .ok ⟨⟨plan, vector⟩, none⟩ :=
    (hload "plan.txt" (by decide)).trans (by decide +kernel)
  have hnews : l.loadDocument "news" = .error failure :=
    (hload "news" (by decide)).trans (by decide +kernel)
  exact ⟨hempty, rfl, hids, hplain, hkeys, hwrite, hw, hp, hwithin, hagree,
    Pipeline.ofConfiguration_of_ok (Filter.ofSettings_of_validate hpolicy) hembedder p, hplan,
    hnews, hmade network settings hwithin⟩

end ScopedRetrieval
