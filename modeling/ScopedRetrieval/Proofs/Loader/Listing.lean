/-
Loads of all documents and their listing. Such a load fails exactly when the listing does, late or
with an error of the provider, and then the index is as if the load had never been asked for; with
a listing it succeeds, whatever becomes of the documents (`loadAll_fails_iff_listing_fails`).
-/
import ScopedRetrieval.Proofs.Index.Log

namespace ScopedRetrieval

/-- The answer comes too late, or it comes in time and is an error. -/
def Reply.Fails {α : Type} (r : Reply α) (timeoutMs : UInt64) (error : ProviderError) : Prop :=
  timeoutMs.toNat < r.delayMs ∧ error = .timeout timeoutMs ∨
    r.delayMs ≤ timeoutMs.toNat ∧ r.outcome = .error error

theorem Reply.bounded_outcome_eq_error_iff {α : Type} (r : Reply α) (timeoutMs : UInt64)
    (error : ProviderError) :
    (r.bounded timeoutMs).outcome = .error error ↔ r.Fails timeoutMs error := by
  unfold bounded Fails
  split
  · rename_i h
    simp [h, Nat.not_le_of_lt h, eq_comm]
  · rename_i h
    simp [h, Nat.le_of_not_lt h]

namespace Loader

/-- How the listing decides on a load of all documents. A load of the listed documents may end as
`Ends` says. -/
structure ListingDecides (s : LoaderSettings) (listing : Reply (List String)) (i : Index)
    (Ends : List String → Index × LoadReport → Prop)
    (out : Index × Except ProviderError LoadReport) : Prop where
  error_iff : ∀ error, out.2 = .error error ↔ listing.Fails s.providerTimeoutMs error
  /-- Entries, generation and the mark of a load are as before. -/
  unchanged : ∀ error, out.2 = .error error → out.1 = i
  /-- All that happens later may happen just so without the load. -/
  later : ∀ error, out.2 = .error error → ∀ log j, Index.Log out.1 log j ↔ Index.Log i log j
  ok : ∀ ids, listing.Gives s.providerTimeoutMs ids →
    ∃ loaded, Ends ids loaded ∧ out = (loaded.1, .ok loaded.2)

theorem listingDecides_of_mayEndAll {s : LoaderSettings} {m : Manner} {i : Index}
    {listing : Reply (List String)} {turns : List Turn}
    {out : Index × Except ProviderError LoadReport} (h : s.MayEndAll m i listing turns out) :
    ListingDecides s listing i
      (fun ids loaded => turns.map (·.id) = ids ∧ s.MayEnd m i turns loaded) out := by
  cases h with
  | @failed error h =>
    constructor
    case error_iff =>
      intro error'
      rw [← Reply.bounded_outcome_eq_error_iff, h, Except.error.injEq, Except.error.injEq]
    case unchanged => exact fun _ _ => rfl
    case later => exact fun _ _ _ _ => .rfl
    case ok =>
      intro ids hids
      rw [← Reply.bounded_outcome_eq_ok_iff, h] at hids
      cases hids
  | @listed loaded h hend =>
    constructor
    case error_iff =>
      intro error
      rw [← Reply.bounded_outcome_eq_error_iff, h]
      exact iff_of_false nofun nofun
    case unchanged => exact nofun
    case later => exact nofun
    case ok =>
      intro ids hids
      rw [← Reply.bounded_outcome_eq_ok_iff, h] at hids
      exact ⟨loaded, ⟨Except.ok.inj hids, hend⟩, rfl⟩

theorem listingDecides_loadAllIn (l : Loader) (m : Manner) (i : Index) :
    ListingDecides l.settings l.metadata.list i (fun ids loaded => loaded = l.loadIn m i ids)
      (l.loadAllIn m i) :=
  { listingDecides_of_mayEndAll (l.mayEndAll_loadAllIn m i) with
    ok := fun ids hids => by
      have hlisting : l.listing = .ok ids := (Reply.bounded_outcome_eq_ok_iff ..).2 hids
      exact ⟨_, rfl, l.loadAllIn_of_listing_ok m i hlisting⟩ }

/-- A load of all documents, beside those of the index or in place of them, fails if and only if
its listing comes too late or is an error, with just that error, and then changes nothing; with a
listing it succeeds and is the load of the listed documents. This holds as well where the documents
complete in any order and the providers answer otherwise at every turn. -/
theorem loadAll_fails_iff_listing_fails (l : Loader) (i : Index) :
    ListingDecides l.settings l.metadata.list i (fun ids loaded => loaded = l.load i ids)
        (l.loadAll i) ∧
      ListingDecides l.settings l.metadata.list i (fun ids loaded => loaded = l.rebuild i ids)
        (l.rebuildAll i) ∧
      ∀ m turns out, l.settings.MayEndAll m i l.metadata.list turns out →
        ListingDecides l.settings l.metadata.list i
          (fun ids loaded => turns.map (·.id) = ids ∧ l.settings.MayEnd m i turns loaded) out :=
  ⟨l.listingDecides_loadAllIn .oneByOne i, l.listingDecides_loadAllIn .atOnce i,
    fun _ _ _ h => listingDecides_of_mayEndAll h⟩

/-- A listing that comes after six seconds, too late for one loader and in time for another, which
then fails to load the only document. -/
theorem loadAll_fails_iff_listing_fails_slow_listing :
    let source : MetadataProvider :=
      { list := ⟨6000, .ok ["a"]⟩
        content := fun id => .now (.error (.notFound id))
        attributes := fun id => .now (.error (.notFound id)) }
    let hasty : Loader := ⟨source, HashEmbedder.toProvider {}, { concurrency := 1 }⟩
    let patient : Loader := { hasty with settings := ⟨1, 6000⟩ }
    let i := Index.empty.put ⟨{ id := "b", content := "news" }, ⟨[]⟩⟩
    (hasty.rebuildAll i).2 = .error (.timeout 5000) ∧
      patient.settings.MayEndAll .atOnce i source.list patient.turnsAll (patient.rebuildAll i) ∧
      (patient.rebuildAll i).2 = .ok ⟨[], [], [⟨"a", .content, .notFound "a"⟩], 2⟩ ∧
      ListingDecides hasty.settings source.list i (fun ids loaded => loaded = hasty.rebuild i ids)
        (hasty.rebuildAll i) ∧
      ListingDecides patient.settings source.list i
        (fun ids loaded => patient.turnsAll.map (·.id) = ids ∧
          patient.settings.MayEnd .atOnce i patient.turnsAll loaded) (patient.rebuildAll i) := by
  intro source hasty patient i
  have hfails : (hasty.rebuildAll i).2 = .error (.timeout 5000) := by decide +kernel
  have hend : patient.settings.MayEndAll .atOnce i source.list patient.turnsAll
      (patient.rebuildAll i) := patient.mayEndAll_loadAllIn .atOnce i
  have hreport : (patient.rebuildAll i).2 = .ok ⟨[], [], [⟨"a", .content, .notFound "a"⟩], 2⟩ := by
    decide +kernel
  exact ⟨hfails, hend, hreport, (hasty.loadAll_fails_iff_listing_fails i).2.1,
    (patient.loadAll_fails_iff_listing_fails i).2.2 .atOnce _ _ hend⟩

end Loader

end ScopedRetrieval
