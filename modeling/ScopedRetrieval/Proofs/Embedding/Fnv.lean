/-
The hash merges no states. The factor of a step is odd, so it has an inverse modulo `2^64`, and a
byte that was taken in can be taken back (`unstep_step`). Hence any bytes lead from different states
to different ones, and to each state from one (`hashFrom_bijective`). So a text in which one byte is
changed has another hash, and no two salts give a text the same hash (`fold_merges_no_states`).
-/
import ScopedRetrieval.Proofs.Embedding.Hash
import Mathlib.Data.Set.Function

namespace ScopedRetrieval

namespace Fnv

/-! ## Taking bytes back -/

/-- The factor that undoes the product of a step. -/
def primeInverse : UInt64 := 0xce965057aff6957b

theorem prime_mul_primeInverse : prime * primeInverse = 1 := by decide

theorem mul_prime_inj {a b : UInt64} : a * prime = b * prime ↔ a = b := by
  constructor
  · intro h
    have hundone := congrArg (· * primeInverse) h
    simpa only [UInt64.mul_assoc, prime_mul_primeInverse, UInt64.mul_one] using hundone
  · rintro rfl
    rfl

/-- Takes back one byte. -/
def unstep (hash : UInt64) (byte : UInt8) : UInt64 := hash * primeInverse ^^^ byte.toUInt64

theorem unstep_step (hash : UInt64) (byte : UInt8) : unstep (step hash byte) byte = hash := by
  unfold unstep step
  rw [UInt64.mul_assoc, prime_mul_primeInverse, UInt64.mul_one, UInt64.xor_assoc, UInt64.xor_self,
    UInt64.xor_zero]

theorem step_unstep (hash : UInt64) (byte : UInt8) : step (unstep hash byte) byte = hash := by
  unfold step unstep
  rw [UInt64.xor_assoc, UInt64.xor_self, UInt64.xor_zero, UInt64.mul_assoc,
    UInt64.mul_comm primeInverse, prime_mul_primeInverse, UInt64.mul_one]

/-- Takes back bytes, the last one first. -/
def rewind (hash : UInt64) (bytes : List UInt8) : UInt64 :=
  bytes.foldr (fun byte later => unstep later byte) hash

theorem rewind_hashFrom (seed : UInt64) (bytes : List UInt8) :
    rewind (hashFrom seed bytes) bytes = seed := by
  induction bytes generalizing seed with
  | nil => rfl
  | cons byte rest ih =>
    -- the byte that was taken in first is taken back last
    show unstep (rewind (hashFrom (step seed byte) rest) rest) byte = seed
    rw [ih, unstep_step]

theorem hashFrom_rewind (hash : UInt64) (bytes : List UInt8) :
    hashFrom (rewind hash bytes) bytes = hash := by
  induction bytes with
  | nil => rfl
  | cons byte rest ih =>
    show hashFrom (step (unstep (rewind hash rest) byte) byte) rest = hash
    rw [step_unstep, ih]

/-- From different states the same bytes lead to different ones, and every state is reached. -/
theorem hashFrom_bijective (bytes : List UInt8) :
    Function.Bijective fun seed => hashFrom seed bytes := by
  refine Function.bijective_iff_has_inverse.2 ⟨fun hash => rewind hash bytes, ?_, ?_⟩
  · exact fun seed => rewind_hashFrom seed bytes
  · exact fun hash => hashFrom_rewind hash bytes

theorem hashFrom_append (seed : UInt64) (before after : List UInt8) :
    hashFrom seed (before ++ after) = hashFrom (hashFrom seed before) after :=
  List.foldl_append

/-! ## One byte changed -/

/-- The byte strings are equally long and differ in exactly one place. -/
structure DifferOnce (bytes bytes' : List UInt8) : Prop where
  length_eq : bytes.length = bytes'.length
  once : ∃! i : Nat, bytes[i]? ≠ bytes'[i]?

/-- Before the changed byte and behind it the byte strings are the same. -/
theorem DifferOnce.exists_split {bytes bytes' : List UInt8} (h : DifferOnce bytes bytes') :
    ∃ before byte byte' after, bytes = before ++ byte :: after ∧
      bytes' = before ++ byte' :: after ∧ byte ≠ byte' := by
  obtain ⟨hlength, i, hi, honly⟩ := h
  have hlt : i < bytes.length := by
    by_contra hge
    have hge' : ¬i < bytes'.length := hlength ▸ hge
    simp [List.getElem?_eq_none (Nat.le_of_not_lt hge),
      List.getElem?_eq_none (Nat.le_of_not_lt hge')] at hi
  -- no other place differs, so what stands before this one and behind it is the same
  have hsame : ∀ j, j ≠ i → bytes[j]? = bytes'[j]? := fun j hj =>
    not_not.1 fun hne => hj (honly j hne)
  have hbefore : bytes.take i = bytes'.take i := by
    refine List.ext_getElem? fun j => ?_
    rw [List.getElem?_take, List.getElem?_take]
    split
    · exact hsame j (by omega)
    · rfl
  have hafter : bytes.drop (i + 1) = bytes'.drop (i + 1) := by
    refine List.ext_getElem? fun j => ?_
    rw [List.getElem?_drop, List.getElem?_drop]
    exact hsame _ (by omega)
  have hlt' : i < bytes'.length := hlength ▸ hlt
  refine ⟨bytes.take i, bytes[i], bytes'[i], bytes.drop (i + 1), ?_, ?_, ?_⟩
  · rw [List.getElem_cons_drop, List.take_append_drop]
  · rw [hbefore, hafter, List.getElem_cons_drop, List.take_append_drop]
  · simpa [List.getElem?_eq_getElem hlt, List.getElem?_eq_getElem hlt'] using hi

theorem step_inj {hash : UInt64} {byte byte' : UInt8} :
    step hash byte = step hash byte' ↔ byte = byte' := by
  unfold step
  rw [mul_prime_inj, UInt64.xor_right_inj, UInt8.toUInt64_inj]

/-- Two bytes lead to different states, and what follows both of them keeps these apart. -/
theorem hashFrom_ne_of_differOnce {bytes bytes' : List UInt8} (h : DifferOnce bytes bytes')
    (seed : UInt64) : hashFrom seed bytes ≠ hashFrom seed bytes' := by
  obtain ⟨before, byte, byte', after, rfl, rfl, hne⟩ := h.exists_split
  rw [hashFrom_append, hashFrom_append]
  intro heq
  exact hne (step_inj.1 ((hashFrom_bijective after).injective heq))

end Fnv

namespace HashEmbedder

/-! ## Salts -/

theorem saltedSeed_injOn (hash : UInt64) : Set.InjOn (saltedSeed hash) (Set.Iio (2 ^ 64)) := by
  intro salt hsalt salt' hsalt' heq
  unfold saltedSeed at heq
  rw [UInt64.xor_right_inj, Fnv.mul_prime_inj] at heq
  have hnumber := congrArg UInt64.toNat heq
  rwa [UInt64.toNat_ofNat_of_lt' hsalt, UInt64.toNat_ofNat_of_lt' hsalt'] at hnumber

theorem saltedHash_injOn (bytes : List UInt8) :
    Set.InjOn (saltedHash bytes) (Set.Iio (2 ^ 64)) :=
  (Fnv.hashFrom_bijective bytes).injective.comp_injOn (saltedSeed_injOn _)

/-- The hashes of a text that stand behind the salted components of its vector. -/
def saltedHashes (e : HashEmbedder) (text : String) : List UInt64 :=
  (List.range' 2 (e.dimension - 2)).map (saltedHash (Text.utf8 text))

theorem drop_values_embedText (e : HashEmbedder) (text : String) :
    (e.embedText text).values.drop 2 =
      (e.saltedHashes text).map fun hash => .nearest false hash.toNat UInt64.size := by
  rw [values_embedText, saltedHashes, List.map_map]
  by_cases h : 1 < e.dimension
  · rw [if_pos h]
    rfl
  · have hnone : e.dimension - 2 = 0 := by omega
    rw [if_neg h, hnone]
    rfl

theorem nodup_saltedHashes {e : HashEmbedder} (he : e.dimension ≤ 2 ^ 64) (text : String) :
    (e.saltedHashes text).Nodup := by
  refine List.Nodup.map_on ?_ List.nodup_range'
  intro salt hsalt salt' hsalt' heq
  have hlt : ∀ n ∈ List.range' 2 (e.dimension - 2), n < 2 ^ 64 := fun n hn => by
    have hn := (List.mem_range'_1.1 hn).2
    omega
  exact saltedHash_injOn _ (hlt salt hsalt) (hlt salt' hsalt') heq

/-- The hash merges no states: whatever the bytes, taking them in is a bijection of the states. So
byte strings of one length that differ in one place have different hashes. So do the hashes of one
text under different salts, as far as the salts fit into a word; and these hashes are what the
components of a vector behind its second one are made of. -/
theorem fold_merges_no_states :
    (∀ bytes, Function.Bijective fun seed => Fnv.hashFrom seed bytes) ∧
    (∀ bytes bytes', Fnv.DifferOnce bytes bytes' → Fnv.hash bytes ≠ Fnv.hash bytes') ∧
    ∀ text : String,
      (∀ salt salt', salt < 2 ^ 64 → salt' < 2 ^ 64 → salt ≠ salt' →
        saltedHash (Text.utf8 text) salt ≠ saltedHash (Text.utf8 text) salt') ∧
      ∀ e : HashEmbedder,
        (e.embedText text).values.drop 2 =
          (e.saltedHashes text).map (fun hash => .nearest false hash.toNat UInt64.size) ∧
        (e.dimension ≤ 2 ^ 64 → (e.saltedHashes text).Nodup) := by
  refine ⟨Fnv.hashFrom_bijective, fun bytes bytes' h => Fnv.hashFrom_ne_of_differOnce h _,
    fun text => ⟨fun salt salt' hsalt hsalt' hne heq => ?_, fun e => ?_⟩⟩
  · exact hne (saltedHash_injOn _ hsalt hsalt' heq)
  · exact ⟨e.drop_values_embedText text, fun he => nodup_saltedHashes he text⟩

/-- One letter changed in the middle of a text, the smallest and the largest salt, and a vector of
four components. -/
theorem fold_merges_no_states_word :
    let bytes := Text.utf8 "news"
    let bytes' := Text.utf8 "nets"
    Fnv.DifferOnce bytes bytes' ∧ Fnv.hash bytes ≠ Fnv.hash bytes' ∧
      saltedHash bytes 0 ≠ saltedHash bytes (2 ^ 64 - 1) ∧
      ((ofDimension 4).saltedHashes "news").Nodup := by
  intro bytes bytes'
  have hbytes : bytes = [0x6e, 0x65, 0x77, 0x73] := by decide +kernel
  have hbytes' : bytes' = [0x6e, 0x65, 0x74, 0x73] := by decide +kernel
  have hdiffer : Fnv.DifferOnce bytes bytes' := by
    rw [hbytes, hbytes']
    refine ⟨rfl, 2, by decide, fun i hi => ?_⟩
    rcases i with _ | _ | _ | _ | i
    all_goals simp at hi ⊢
  obtain ⟨-, hchanged, hsalted⟩ := fold_merges_no_states
  obtain ⟨hsalts, hvectors⟩ := hsalted "news"
  exact ⟨hdiffer, hchanged _ _ hdiffer, hsalts 0 (2 ^ 64 - 1) (by decide) (by decide) (by decide),
    (hvectors (ofDimension 4)).2 (by decide)⟩

end HashEmbedder

end ScopedRetrieval
