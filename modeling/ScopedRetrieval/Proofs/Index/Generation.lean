/-
What the generation says about the contents. It counts the changes of the entries, whether or not
they make a difference, and nothing else; so it never goes back, and where it stands still the
entries stand still (`generation_identifies_entries`). The counter has 64 bits: all of this is said
of histories with fewer than `2^64` changes, after which it would start over.
-/
import ScopedRetrieval.Proofs.Index.Change
import ScopedRetrieval.Proofs.Retrieval.Partition
import Mathlib.Data.List.Infix

namespace ScopedRetrieval.Index

/-! ## What counts -/

/-- Whether a change counts: one that stores, replaces or clears always does, a removal only where
it finds its entry, and a completed load does not. -/
def Change.counts (i : Index) : Change → Bool
  | .put _ | .replaceAll _ | .clear => true
  | .remove id => (i.remove id).1
  | .markLoaded => false

/-- How many of some changes count. -/
def mutations (i : Index) : List Change → Nat
  | [] => 0
  | c :: rest => (c.counts i).toNat + (c.apply i).mutations rest

theorem mutations_append (i : Index) (changes changes' : List Change) :
    i.mutations (changes ++ changes') =
      i.mutations changes + (i.replay changes).mutations changes' := by
  induction changes generalizing i with
  | nil => simp [mutations, replay]
  | cons c rest ih =>
    rw [List.cons_append, mutations, mutations, ih, Nat.add_assoc]
    rfl

theorem mutations_le_of_prefix (i : Index) {p q : List Change} (h : p <+: q) :
    i.mutations p ≤ i.mutations q := by
  obtain ⟨rest, rfl⟩ := h
  rw [mutations_append]
  exact Nat.le_add_right ..

/-! ## One change -/

theorem generation_apply (i : Index) (c : Change) :
    (c.apply i).generation = i.generation + .ofNat (c.counts i).toNat := by
  cases c with
  -- these count whatever the index is
  | put | replaceAll | clear => rfl
  | markLoaded => exact (UInt64.add_zero _).symm
  | remove id =>
    simp only [Change.apply, Change.counts]
    cases h : (i.remove id).1 with
    | false =>
      rw [remove_of_not_found h]
      exact (UInt64.add_zero _).symm
    | true =>
      unfold remove at h ⊢
      split at h
      · rename_i hfound
        rw [if_pos hfound]
        rfl
      · cases h

theorem entries_apply_of_not_counts {i : Index} {c : Change} (h : c.counts i = false) :
    (c.apply i).entries = i.entries := by
  cases c with
  | put | replaceAll | clear => cases h
  | markLoaded => rfl
  | remove id =>
    show (i.remove id).2.entries = i.entries
    rw [remove_of_not_found h]

/-! ## All changes of a history -/

theorem generation_replay (i : Index) (changes : List Change) :
    (i.replay changes).generation = i.generation + .ofNat (i.mutations changes) := by
  induction changes generalizing i with
  | nil => exact (UInt64.add_zero _).symm
  | cons c rest ih =>
    show ((c.apply i).replay rest).generation = _
    rw [ih, generation_apply, mutations, UInt64.ofNat_add, UInt64.add_assoc]

theorem entries_replay_of_mutations_eq_zero (i : Index) {changes : List Change}
    (h : i.mutations changes = 0) : (i.replay changes).entries = i.entries := by
  induction changes generalizing i with
  | nil => rfl
  | cons c rest ih =>
    rw [mutations, Nat.add_eq_zero_iff, Bool.toNat_eq_zero] at h
    show ((c.apply i).replay rest).entries = i.entries
    rw [ih _ h.2, entries_apply_of_not_counts h.1]

theorem toNat_generation_replay {changes : List Change}
    (h : mutations .empty changes < UInt64.size) :
    (replay .empty changes).generation.toNat = mutations .empty changes := by
  rw [generation_replay]
  show (0 + UInt64.ofNat _).toNat = _
  rw [UInt64.zero_add, UInt64.toNat_ofNat', Nat.mod_eq_of_lt h]

/-! ## Two moments -/

/-- What the generation says when a new index is seen after the changes `p` and then after `q`. -/
structure GenerationTells (p q : List Change) : Prop where
  eq_mutations : (replay .empty q).generation.toNat = mutations .empty q
  le : (replay .empty p).generation ≤ (replay .empty q).generation
  entries_eq : (replay .empty p).snapshot.generation = (replay .empty q).snapshot.generation →
    (replay .empty p).snapshot.entries = (replay .empty q).snapshot.entries
  -- two retrievals whose records bear the same generation, whatever their queries
  retrieved_eq : ∀ (f : Filter) (requester : Requester) (query query' : String) (o o' : Outcome),
    (replay .empty p).retrieve f query requester = .ok o →
    (replay .empty q).retrieve f query' requester = .ok o' →
    o.generation = o'.generation → o.admitted = o'.admitted ∧ o.denied = o'.denied

/-- While requests are carried out on a new index, at any two moments, between requests or in the
middle of one, the generation tells how many changes there were and whether the contents are the
same. -/
theorem generation_identifies_entries {requests : List Request}
    (h : mutations .empty (history requests) < UInt64.size) {p q : List Change} (hpq : p <+: q)
    (hq : q <+: history requests) :
    run .empty requests = replay .empty (history requests) ∧ GenerationTells p q := by
  have hleq : mutations .empty q ≤ mutations .empty (history requests) :=
    mutations_le_of_prefix _ hq
  have hlep : mutations .empty p ≤ mutations .empty q := mutations_le_of_prefix _ hpq
  have hgq := toNat_generation_replay (hleq.trans_lt h)
  have hgp := toNat_generation_replay ((hlep.trans hleq).trans_lt h)
  have hentries : (replay .empty p).generation = (replay .empty q).generation →
      (replay .empty p).entries = (replay .empty q).entries := by
    intro heq
    have hcount : mutations .empty p = mutations .empty q := by
      rw [← hgp, ← hgq, heq]
    -- nothing that counts has happened between the two moments
    obtain ⟨rest, rfl⟩ := hpq
    have hnone : (replay .empty p).mutations rest = 0 := by
      rw [mutations_append] at hcount
      omega
    rw [replay_append, entries_replay_of_mutations_eq_zero _ hnone]
  refine ⟨run_eq_replay _ _, ?_⟩
  constructor
  case eq_mutations => exact hgq
  case le =>
    rw [UInt64.le_iff_toNat_le, hgp, hgq]
    exact hlep
  case entries_eq => exact hentries
  case retrieved_eq =>
    intro f requester query query' o o' ho ho' hgen
    obtain rfl := eq_record_of_retrieve ho
    obtain rfl := eq_record_of_retrieve ho'
    have hdocuments := documents_congr (hentries hgen)
    simp only [record, hdocuments, and_self]

/-- A load of which one document is missing, seen when its last document is stored and after a
removal that finds nothing. -/
theorem generation_identifies_entries_during_load :
    let corpus : MemoryCorpus := .ofDocuments [{ id := "a", content := "news" },
      { id := "b", content := "plan", attributes := .ofList [("sensitivity", "confidential")] }]
    let l : Loader := ⟨corpus.toProvider, HashEmbedder.toProvider {}, { concurrency := 1 }⟩
    let requests : List Request := [.markLoaded, .load l ["a", "z", "b"], .remove "z"]
    let p := (history requests).take 3
    let q := history requests
    mutations .empty (history requests) < UInt64.size ∧ p <+: q ∧ q <+: history requests ∧
      (replay .empty p).loaded = true ∧
      (replay .empty p).generation = (replay .empty q).generation ∧
      run .empty requests = replay .empty (history requests) ∧ GenerationTells p q := by
  intro corpus l requests p q
  have h : mutations .empty (history requests) < UInt64.size := by decide +kernel
  have hpq : p <+: q := List.take_prefix 3 (history requests)
  have hq : q <+: history requests := List.prefix_refl _
  have hloaded : (replay .empty p).loaded = true := by decide +kernel
  have hgen : (replay .empty p).generation = (replay .empty q).generation := by decide +kernel
  exact ⟨h, hpq, hq, hloaded, hgen, generation_identifies_entries h hpq hq⟩

end ScopedRetrieval.Index
