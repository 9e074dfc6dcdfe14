/-
The bytes of a text are read as the text, strictly and leniently. The lenient reader goes byte by
byte: a first byte promises what follows, and the bytes of a character keep the promise
(`decodeLenient_utf8EncodeChar`). The rest is induction on the text.
-/
import ScopedRetrieval.Proofs.Text.ByteOrder

namespace ScopedRetrieval.Text

/-- Strict reading inverts writing. -/
theorem ofUtf8?_utf8 (s : String) : ofUtf8? (utf8 s) = some s := by
  have hbytes : (⟨(utf8 s).toArray⟩ : ByteArray) = s.toByteArray := rfl
  unfold ofUtf8? String.fromUTF8?
  rw [hbytes, dif_pos s.isValidUTF8]
  rfl

/-! ## Bytes of one character -/

theorem toNat_ofNat_of_lt {n : Nat} (h : n < 256) : (UInt8.ofNat n).toNat = n := by
  rw [UInt8.toNat_ofNat', Nat.mod_eq_of_lt h]

section

variable {l : Lead} {n : Nat} (hn : n < 256) (rest : List UInt8)

include hn

theorem decodeLenient_first (hlead : lead? n = some l) (hmore : l.more ≠ 0) :
    decodeLenient none (UInt8.ofNat n :: rest) = decodeLenient (some l) rest := by
  rw [decodeLenient, decodeLenient.restart, toNat_ofNat_of_lt hn, hlead]
  exact if_neg hmore

theorem decodeLenient_single (hlead : n < 0x80) :
    decodeLenient none (UInt8.ofNat n :: rest) = Char.ofNat n :: decodeLenient none rest := by
  have hl : lead? n = some { more := 0, bits := n } := if_pos hlead
  rw [decodeLenient, decodeLenient.restart, toNat_ofNat_of_lt hn, hl]
  rfl

theorem decodeLenient_more (hrange : l.low ≤ n ∧ n ≤ l.high) (hmore : l.more ≠ 1) :
    decodeLenient (some l) (UInt8.ofNat n :: rest) =
      decodeLenient (some { more := l.more - 1, bits := l.bits * 64 + (n - 0x80) }) rest := by
  rw [decodeLenient]
  simp only [toNat_ofNat_of_lt hn, hrange, hmore, if_false, and_self, if_true]

theorem decodeLenient_last (value : Nat) (hrange : l.low ≤ n ∧ n ≤ l.high) (hmore : l.more = 1)
    (hvalue : l.bits * 64 + (n - 0x80) = value) :
    decodeLenient (some l) (UInt8.ofNat n :: rest) =
      Char.ofNat value :: decodeLenient none rest := by
  rw [decodeLenient]
  simp only [toNat_ofNat_of_lt hn, hrange, hmore, hvalue, and_self, if_true]

end

/-- The promise of a byte before one more. -/
theorem lead?_two {n : Nat} (h : 0x80 ≤ n ∧ n < 0x800) :
    lead? (n / 64 + 0xC0) = some { more := 1, bits := n / 64 } := by
  unfold lead?
  rw [if_neg (by omega), if_neg (by omega), if_pos (by omega), Nat.add_sub_cancel]

/-- The promise of a byte before two more, of which the first is in the range it names. -/
theorem lead?_three {n : Nat} (h : 0x800 ≤ n ∧ n < 0x10000) (hscalar : ¬(0xD800 ≤ n ∧ n < 0xE000)) :
    ∃ l, lead? (n / 4096 + 0xE0) = some l ∧ l.more = 2 ∧ l.bits = n / 4096 ∧
      l.low ≤ n / 64 % 64 + 0x80 ∧ n / 64 % 64 + 0x80 ≤ l.high := by
  unfold lead?
  rw [if_neg (by omega), if_neg (by omega), if_neg (by omega)]
  split_ifs
  all_goals first
    | omega
    | refine ⟨_, rfl, rfl, ?_, ?_, ?_⟩ <;> dsimp only <;> omega

/-- The promise of a byte before three more, of which the first is in the range it names. -/
theorem lead?_four {n : Nat} (h : 0x10000 ≤ n ∧ n < 0x110000) :
    ∃ l, lead? (n / 262144 + 0xF0) = some l ∧ l.more = 3 ∧ l.bits = n / 262144 ∧
      l.low ≤ n / 4096 % 64 + 0x80 ∧ n / 4096 % 64 + 0x80 ≤ l.high := by
  unfold lead?
  rw [if_neg (by omega), if_neg (by omega), if_neg (by omega)]
  split_ifs
  all_goals first
    | omega
    | refine ⟨_, rfl, rfl, ?_, ?_, ?_⟩ <;> dsimp only <;> omega

/-- The bytes of a character are taken for that character. -/
theorem decodeLenient_utf8EncodeChar (c : Char) (rest : List UInt8) :
    decodeLenient none (String.utf8EncodeChar c ++ rest) = c :: decodeLenient none rest := by
  have hvalid : c.val.toNat.isValidChar := c.valid
  have hc : Char.ofNat c.val.toNat = c := Char.ofNat_toNat c
  unfold String.utf8EncodeChar
  dsimp only
  generalize c.val.toNat = n at hvalid hc ⊢
  have hlimit : n < 0x110000 ∧ ¬(0xD800 ≤ n ∧ n < 0xE000) := by
    simp only [Nat.isValidChar] at hvalid
    omega
  split_ifs with h1 h2 h3
  · rw [List.singleton_append, decodeLenient_single (by omega) _ (by omega), hc]
  · rw [List.cons_append, List.singleton_append, Nat.mod_eq_of_lt (by omega),
      decodeLenient_first (by omega) _ (lead?_two (by omega)) Nat.one_ne_zero,
      decodeLenient_last (by omega) _ n (by dsimp only; omega) rfl (by dsimp only; omega), hc]
  · obtain ⟨l, hlead, hmore, hbits, hrange⟩ := lead?_three (n := n) (by omega) hlimit.2
    rw [List.cons_append, List.cons_append, List.singleton_append,
      Nat.mod_eq_of_lt (show n / 4096 < 16 by omega),
      decodeLenient_first (by omega) _ hlead (by omega),
      decodeLenient_more (by omega) _ hrange (by omega),
      decodeLenient_last (by omega) _ n (by dsimp only; omega) (by dsimp only; omega)
        (by dsimp only; omega), hc]
  · obtain ⟨l, hlead, hmore, hbits, hrange⟩ := lead?_four (n := n) (by omega)
    rw [List.cons_append, List.cons_append, List.cons_append, List.singleton_append,
      Nat.mod_eq_of_lt (show n / 262144 < 8 by omega),
      decodeLenient_first (by omega) _ hlead (by omega),
      decodeLenient_more (by omega) _ hrange (by omega),
      decodeLenient_more (by omega) _ (by dsimp only; omega) (by dsimp only; omega),
      decodeLenient_last (by omega) _ n (by dsimp only; omega) (by dsimp only; omega)
        (by dsimp only; omega), hc]

/-- Lenient reading inverts writing, too. -/
theorem ofBytesLenient_utf8 (s : String) : ofBytesLenient (utf8 s) = s := by
  have hchars : ∀ cs : List Char, decodeLenient none (cs.flatMap String.utf8EncodeChar) = cs := by
    intro cs
    induction cs with
    | nil => rw [List.flatMap_nil, decodeLenient]
    | cons c cs ih => rw [List.flatMap_cons, decodeLenient_utf8EncodeChar, ih]
  rw [ofBytesLenient, utf8_eq_flatMap, hchars, String.ofList_toList]

end ScopedRetrieval.Text
