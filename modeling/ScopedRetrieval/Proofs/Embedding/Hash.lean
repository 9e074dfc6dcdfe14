/-
Vectors of hashes. However many components are asked for, a vector has as many as its embedder
declares, and those of a vector of fewer components come first in it, so that no load finds a vector
of the wrong length (`vectors_have_declared_length`). The salted components are hashes over `2^64`
and were meant to stay below one; they do except for the largest hashes, which round to `2^64`
(`salted_component_lt_one_iff`), and there are texts with such a hash.
-/
import ScopedRetrieval.Proofs.Loader.Classification
import ScopedRetrieval.Proofs.Number.Nearest

namespace ScopedRetrieval

namespace HashEmbedder

/-! ## Length -/

theorem length_values_embedText (e : HashEmbedder) (text : String) :
    (e.embedText text).values.length = e.dimension := by
  rw [embedText, List.length_map, List.length_range]

/-- A vector of hashes has the length that the embedder declares. -/
theorem dimension_embed (e : HashEmbedder) (content : String) (attributes : Attributes) :
    (e.embed content attributes).dimension = e.dimension :=
  e.length_values_embedText _

/-- The components in their three kinds: the hash, behind it the length where there is room for it,
and then a salted hash for each place that is left. -/
theorem values_embedText (e : HashEmbedder) (text : String) :
    let bytes := Text.utf8 text
    (e.embedText text).values =
      [.ofNat (Fnv.hash bytes).toNat] ++ (if 1 < e.dimension then [.ofNat bytes.length] else []) ++
        (List.range' 2 (e.dimension - 2)).map fun salt =>
          .nearest false (saltedHash bytes salt).toNat UInt64.size := by
  intro bytes
  have hsalted : ∀ n, (List.range' 2 n).map (component bytes) =
      (List.range' 2 n).map fun salt =>
        .nearest false (saltedHash bytes salt).toNat UInt64.size := fun n => by
    refine List.map_congr_left fun salt hsalt => ?_
    obtain ⟨k, rfl⟩ := Nat.exists_eq_add_of_le' (List.mem_range'_1.1 hsalt).1
    rfl
  obtain ⟨d, hd⟩ := e
  rw [embedText, ← hsalted]
  show (List.range d).map (component bytes) = _
  match d, hd with
  | 1, _ => rfl
  | d + 2, _ =>
    rw [List.range_eq_range', List.range'_succ, List.range'_succ, if_pos (Nat.one_lt_succ_succ d)]
    rfl

/-- With more components asked for, those of a vector stay and others come behind them. -/
theorem values_embedText_prefix {d d' : Nat} (h : d ≤ d') (text : String) :
    ((ofDimension d).embedText text).values <+: ((ofDimension d').embedText text).values := by
  have hle : (ofDimension d).dimension ≤ (ofDimension d').dimension := max_le_max_right 1 h
  have hrange : List.range (ofDimension d).dimension <+: List.range (ofDimension d').dimension := by
    rw [← Nat.add_sub_of_le hle, List.range_add]
    exact List.prefix_append _ _
  exact hrange.map _

/-! ## Loads -/

theorem not_mismatch_embed (e : HashEmbedder) (content : String) (attributes : Attributes)
    (error : ProviderError) : ¬e.toProvider.Mismatch (e.embed content attributes) error :=
  fun h => h.differs (e.dimension_embed content attributes)

/-- No document fails by its embedding. -/
theorem not_failsByEmbedding {l : Loader} {e : HashEmbedder} (hl : l.embedder = e.toProvider)
    (id : String) (error : ProviderError) : ¬l.FailsByEmbedding id error := by
  rintro ⟨content, attributes, -, -, hfails⟩
  unfold Loader.EmbeddingFails at hfails
  rw [hl] at hfails
  rcases hfails with (⟨hlate, -⟩ | ⟨-, herror⟩) | ⟨v, hgives, hmismatch⟩
  · exact absurd hlate (Nat.not_lt_zero _)
  · cases herror
  · cases hgives.2
    exact e.not_mismatch_embed content attributes error hmismatch

end HashEmbedder

namespace Loader

variable {l : Loader} {id : String} {f : LoadFailure}

/-- What fails a document is the call of its content. -/
theorem content_fails_of_loadDocument_error {e : HashEmbedder} (hl : l.embedder = e.toProvider)
    (h : l.loadDocument id = .error f) :
    f.id = id ∧ f.stage = .content ∧
      (l.metadata.content id).Fails l.settings.providerTimeoutMs f.error := by
  rcases (l.loadDocument_eq_error_iff id f).1 h with ⟨error, -, rfl⟩ | ⟨_, error, -, -, rfl⟩
  · exact ⟨rfl, rfl, (l.loadDocument_eq_content_error_iff id error).1 h⟩
  · have hfails := (l.loadDocument_eq_embedding_error_iff id error).1 h
    exact absurd hfails (HashEmbedder.not_failsByEmbedding hl id error)

/-- What degrades a document is the call of its attributes. -/
theorem attributes_fails_of_degraded {d : LoadedDocument} (h : l.loadDocument id = .ok d)
    (hf : d.degraded = some f) :
    f.id = id ∧ f.stage = .attributes ∧
      (l.metadata.attributes id).Fails l.settings.providerTimeoutMs f.error := by
  obtain ⟨error, hfails, rfl⟩ := (((l.loadDocument_eq_ok_iff_builds id d).1 h).2 f).1 hf
  exact ⟨rfl, rfl, hfails⟩

end Loader

/-- Every failure on record is one of the sources of documents, by its call for content or for
attributes; none is one of an embedder. -/
structure LoadReport.SparesEmbedders (r : LoadReport) (s : LoaderSettings) (turns : List Turn) :
    Prop where
  failures : ∀ f ∈ r.failures, ∃ t ∈ turns, f.id = t.id ∧ f.stage = .content ∧
    (t.metadata.content t.id).Fails s.providerTimeoutMs f.error
  degraded : ∀ f ∈ r.degraded, ∃ t ∈ turns, f.id = t.id ∧ f.stage = .attributes ∧
    (t.metadata.attributes t.id).Fails s.providerTimeoutMs f.error

theorem LoadReport.sparesEmbedders_ofResults {s : LoaderSettings} {turns : List Turn}
    {results : List LoadResult} (h : s.MayComplete turns results)
    (hash : ∀ t ∈ turns, ∃ e : HashEmbedder, t.embedder = e.toProvider) (generation : UInt64) :
    (ofResults results generation).SparesEmbedders s turns := by
  constructor
  case failures =>
    intro f hf
    have hmem := (mem_failuresOf_iff results f).1 ((sortFailures_perm _).mem_iff.1 hf)
    obtain ⟨t, ht, hresult⟩ := (mem_results_iff h _).1 hmem
    obtain ⟨e, he⟩ := hash t ht
    exact ⟨t, ht, Loader.content_fails_of_loadDocument_error he hresult⟩
  case degraded =>
    intro f hf
    obtain ⟨d, hd, hf⟩ := List.mem_filterMap.1 ((sortFailures_perm _).mem_iff.1 hf)
    obtain ⟨t, ht, hresult⟩ := exists_turn_of_mem_loadedOf h hd
    exact ⟨t, ht, Loader.attributes_fails_of_degraded hresult hf⟩

namespace HashEmbedder

/-- Vectors of hashes keep the shape that is declared for them. With `d` components asked for there
are `d` of them, or one for none, which is what the embedder declares; and they are the first ones
of those for any larger `d`. So no vector is of another length than its embedder declares, and the
report of a load with such embedders, whatever else they answer with and in whatever order its
documents complete, has no failure but those of the sources of documents. -/
theorem vectors_have_declared_length :
    (∀ (text : String) (d : Nat),
      ((ofDimension d).embedText text).dimension = max d 1 ∧
        (ofDimension d).toProvider.dimension = max d 1 ∧
        ∀ d', d ≤ d' →
          ((ofDimension d).embedText text).values <+: ((ofDimension d').embedText text).values) ∧
      (∀ (e : HashEmbedder) (content : String) (attributes : Attributes) (error : ProviderError),
        ¬e.toProvider.Mismatch (e.embed content attributes) error) ∧
      ∀ (s : LoaderSettings) (m : Manner) (i : Index) (turns : List Turn),
        (∀ t ∈ turns, ∃ e : HashEmbedder, t.embedder = e.toProvider) →
          (∀ out, s.MayEnd m i turns out → out.2.SparesEmbedders s turns) ∧
            ∀ listing out report, s.MayEndAll m i listing turns out → out.2 = .ok report →
              report.SparesEmbedders s turns := by
  refine ⟨fun text d => ⟨length_values_embedText _ text, rfl, fun d' h => ?_⟩,
    not_mismatch_embed, fun s m i turns hash => ?_⟩
  · exact values_embedText_prefix h text
  have hend : ∀ out, s.MayEnd m i turns out → out.2.SparesEmbedders s turns := by
    rintro out ⟨results, hmay, rfl⟩
    exact LoadReport.sparesEmbedders_ofResults hmay hash _
  refine ⟨hend, ?_⟩
  rintro listing out report (⟨-⟩ | ⟨-, hout⟩) hok
  · cases hok
  · cases hok
    exact hend _ hout

/-- No components asked for and five of them, in one load. The one document has lost its attributes,
the other its content, and neither its embedding. -/
theorem vectors_have_declared_length_none_asked_for :
    let source : MetadataProvider :=
      { list := .now (.ok [])
        content := fun id => .now (if id = "a" then .ok "news" else .error (.notFound id))
        attributes := fun id => .now (.error (.attributes id "unreadable")) }
    let turns : List Turn :=
      [⟨"a", source, (ofDimension 0).toProvider⟩, ⟨"b", source, (ofDimension 5).toProvider⟩]
    let s : LoaderSettings := ⟨1, 0⟩
    let out := Manner.oneByOne.apply .empty (s.results turns)
    (∀ t ∈ turns, ∃ e : HashEmbedder, t.embedder = e.toProvider) ∧
      s.MayEnd .oneByOne .empty turns out ∧ out.2.indexed = ["a"] ∧ out.2.degradedIds = ["a"] ∧
      out.2.failedIds = ["b"] ∧ out.2.SparesEmbedders s turns ∧
      ((ofDimension 0).embedText "news").values <+: ((ofDimension 5).embedText "news").values := by
  intro source turns s out
  have hash : ∀ t ∈ turns, ∃ e : HashEmbedder, t.embedder = e.toProvider := by
    simp [turns]
  have hend : s.MayEnd .oneByOne .empty turns out := s.mayEnd_results .oneByOne .empty turns
  have hindexed : out.2.indexed = ["a"] := by decide +kernel
  have hdegraded : out.2.degradedIds = ["a"] := by decide +kernel
  have hfailed : out.2.failedIds = ["b"] := by decide +kernel
  obtain ⟨hvectors, -, hloads⟩ := vectors_have_declared_length
  exact ⟨hash, hend, hindexed, hdegraded, hfailed, (hloads s _ _ turns hash).1 out hend,
    (hvectors "news" 0).2.2 5 (by decide)⟩

/-! ## Salted components -/

theorem getElem?_values_embedText {e : HashEmbedder} {text : String} {i : Nat} {x : Binary64}
    (h : (e.embedText text).values[i]? = some x) : x = component (Text.utf8 text) i := by
  unfold embedText at h
  rw [List.getElem?_map, Option.map_eq_some_iff] at h
  obtain ⟨j, hj, rfl⟩ := h
  obtain ⟨_, hj⟩ := List.getElem?_eq_some_iff.1 hj
  rw [← hj, List.getElem_range]

/-- A salted component is the hash, rounded as a double is, over `2^64`. -/
theorem toRat_component (bytes : List UInt8) {salt : Nat} (hsalt : 2 ≤ salt) :
    (component bytes salt).isFinite = true ∧
      (component bytes salt).toRat =
        (Binary64.ofNat (saltedHash bytes salt).toNat).toRat / 2 ^ 64 := by
  obtain ⟨k, rfl⟩ := Nat.exists_eq_add_of_le' hsalt
  have hlog : (saltedHash bytes (k + 2)).toNat.log2 ≤ 1000 :=
    (Binary64.log2_le_of_lt (UInt64.toNat_lt _)).trans (by decide)
  rw [Binary64.toRat_ofNat hlog]
  exact Binary64.toRat_nearest (j := 64) hlog (by decide)

/-- Which salted components are below one. A salted component is the salted hash, rounded to
fifty-three binary digits, over `2^64`; it is at least zero and at most one, and it is less than one
just where the hash is less than `2^64 - 1024`: from there on the hash is rounded to `2^64`. -/
theorem salted_component_lt_one_iff (text : String) (d i : Nat) (x : Binary64) (hi : 2 ≤ i)
    (hx : ((ofDimension d).embedText text).values[i]? = some x) :
    let s := (saltedHash (Text.utf8 text) i).toNat
    x.isFinite = true ∧ (∀ r, x.toRat = r / 2 ^ 64 ↔ Binary64.IsRounded s r) ∧
      0 ≤ x.toRat ∧ x.toRat ≤ 1 ∧ (x.toRat < 1 ↔ s < 2 ^ 64 - 1024) := by
  intro s
  have hs : s < 2 ^ 64 := UInt64.toNat_lt _
  have hlog := Binary64.log2_le_of_lt hs
  obtain ⟨hfinite, hvalue⟩ := toRat_component (Text.utf8 text) hi
  rw [← getElem?_values_embedText hx] at hfinite hvalue
  have hle : (Binary64.ofNat s).toRat ≤ 2 ^ 64 :=
    (Binary64.toRat_ofNat_le hs).trans (pow_le_pow_right₀ one_le_two (by omega))
  have hrounded := Binary64.isRounded_toRat_ofNat (hlog.trans (by decide))
  have hnonneg := Binary64.toRat_ofNat_nonneg hs
  refine ⟨hfinite, fun r => ?_, ?_, ?_, ?_⟩
  · rw [hvalue, div_left_inj' (by positivity)]
    exact ⟨fun h => h ▸ hrounded, hrounded.unique⟩
  · rw [hvalue]
    positivity
  · rw [hvalue, div_le_one (by positivity)]
    exact hle
  · rw [hvalue, div_lt_one (by positivity)]
    exact Binary64.toRat_ofNat_lt_iff hs

/-- The salted component of a short text is below one, since its hash is below the bound. -/
theorem salted_component_lt_one_iff_news :
    let s := (saltedHash (Text.utf8 "news") 2).toNat
    ∃ x, ((ofDimension 3).embedText "news").values[2]? = some x ∧ s < 2 ^ 64 - 1024 ∧
      0 ≤ x.toRat ∧ x.toRat < 1 := by
  intro s
  have hbelow : s < 2 ^ 64 - 1024 := by decide +kernel
  obtain ⟨-, -, hnonneg, -, hlt⟩ := salted_component_lt_one_iff "news" 3 2 _ le_rfl rfl
  exact ⟨_, rfl, hbelow, hnonneg, hlt.2 hbelow⟩

/-- A text whose salted hash is `2^64 - 957`. Its first salted component is one, so not every such
component is below one. -/
theorem salted_component_reaches_one :
    let text := "DWdRuQDU7R3"
    let x : Binary64 := ⟨0x3FF0000000000000⟩
    (saltedHash (Text.utf8 text) 2).toNat = 2 ^ 64 - 957 ∧
      ((ofDimension 3).embedText text).values[2]? = some x ∧ x.toRat = 1 ∧
      ¬∀ (text : String) (d i : Nat) (y : Binary64), 2 ≤ i →
        ((ofDimension d).embedText text).values[i]? = some y → 0 ≤ y.toRat ∧ y.toRat < 1 := by
  intro text x
  have hhash : (saltedHash (Text.utf8 text) 2).toNat = 2 ^ 64 - 957 := by decide +kernel
  have hx : ((ofDimension 3).embedText text).values[2]? = some x := by decide +kernel
  have hone : x.toRat = 1 := by
    have hunits : x.units = Binary64.unitsPerOne := by decide +kernel
    have hpos : Binary64.unitsPerOne ≠ 0 := by decide +kernel
    rw [Binary64.toRat, hunits, div_self (Nat.cast_ne_zero.2 hpos), mul_one]
    exact if_neg (by decide)
  refine ⟨hhash, hx, hone, fun h => ?_⟩
  exact absurd (h text 3 2 x le_rfl hx).2 hone.not_lt

end HashEmbedder

end ScopedRetrieval
