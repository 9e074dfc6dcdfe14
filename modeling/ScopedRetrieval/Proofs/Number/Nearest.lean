/-
The exact values of doubles, and what `nearest` rounds to. A natural is rounded to fifty-three
binary digits, to the even last digit where two numbers of so many digits are equally near
(`isRounded_toRat_ofNat`), and the nearest double to its quotient by a power of two is just that
number divided (`toRat_nearest`): between the smallest and the largest doubles the scale is free.
-/
import ScopedRetrieval.Number.Binary64
import Mathlib.Algebra.Order.Field.Basic
import Mathlib.Data.Rat.Cast.Order
import Mathlib.Tactic.FieldSimp
import Mathlib.Tactic.Linarith
import Mathlib.Tactic.LinearCombination
import Mathlib.Tactic.NormNum
import Mathlib.Tactic.Positivity
import Mathlib.Tactic.Ring

namespace ScopedRetrieval

/-! ## Rounding to naturals -/

/-- `m` is the natural that is nearest to `r`, and the even one where two are equally near. -/
structure IsNearestEven (r : ℚ) (m : ℕ) : Prop where
  near : |r - m| ≤ 1 / 2
  even_of_tie : |r - m| = 1 / 2 → Even m

theorem IsNearestEven.unique {r : ℚ} {m m' : ℕ} (h : IsNearestEven r m)
    (h' : IsNearestEven r m') : m = m' := by
  wlog hlt : m < m' generalizing m m'
  · rcases Nat.lt_trichotomy m m' with hm | hm | hm
    · exact absurd hm hlt
    · exact hm
    · exact (this h' h hm).symm
  have hm := abs_le.1 h.near
  have hm' := abs_le.1 h'.near
  have hsucc : (m : ℚ) + 1 ≤ m' := by exact_mod_cast hlt
  -- both are half a step away, so they are neighbours and both even
  have htie : |r - m| = 1 / 2 := by
    rw [abs_of_nonneg] <;> linarith
  have htie' : |r - m'| = 1 / 2 := by
    rw [abs_of_nonpos] <;> linarith
  have hnext : m' = m + 1 := by
    have : (m' : ℚ) = m + 1 := by linarith
    exact_mod_cast this
  have heven := h.even_of_tie htie
  have heven' := h'.even_of_tie htie'
  rw [hnext, Nat.even_add_one] at heven'
  exact absurd heven heven'

/-- Nearness to a quotient, in multiples of half the denominator. -/
theorem isNearestEven_div {num den m : ℕ} (hden : 0 < den) (hle : 2 * (m * den) ≤ 2 * num + den)
    (hge : 2 * num ≤ 2 * (m * den) + den)
    (heven : 2 * (m * den) = 2 * num + den ∨ 2 * num = 2 * (m * den) + den → Even m) :
    IsNearestEven (num / den) m := by
  have hpos : (0 : ℚ) < den := by exact_mod_cast hden
  have hdiff : (num : ℚ) / den - m = (2 * num - 2 * (m * den)) / (2 * den) := by
    field_simp
  have hle : (2 * (m * den) : ℚ) ≤ 2 * num + den := by exact_mod_cast hle
  have hge : (2 * num : ℚ) ≤ 2 * (m * den) + den := by exact_mod_cast hge
  constructor
  case near =>
    rw [hdiff, abs_le, le_div_iff₀ (by positivity), div_le_iff₀ (by positivity)]
    constructor <;> linarith
  case even_of_tie =>
    intro htie
    refine heven ?_
    rw [hdiff, abs_div, abs_of_pos (show (0 : ℚ) < 2 * den by positivity),
      div_eq_iff (by positivity)] at htie
    rcases (abs_eq (by positivity)).1 (htie.trans (by ring : _ = (den : ℚ))) with h | h
    · right
      have : (2 * num : ℚ) = 2 * (m * den) + den := by linarith
      exact_mod_cast this
    · left
      have : (2 * (m * den) : ℚ) = 2 * num + den := by linarith
      exact_mod_cast this

namespace Binary64

theorem roundQuotient_cases (num den : ℕ) :
    2 * (num % den) < den ∧ roundQuotient num den = num / den ∨
      den < 2 * (num % den) ∧ roundQuotient num den = num / den + 1 ∨
      2 * (num % den) = den ∧ Even (roundQuotient num den) ∧
        (roundQuotient num den = num / den ∨ roundQuotient num den = num / den + 1) := by
  unfold roundQuotient
  simp only [Nat.even_iff]
  split_ifs <;> omega

theorem roundQuotient_isNearestEven (num : ℕ) {den : ℕ} (hden : 0 < den) :
    IsNearestEven (num / den) (roundQuotient num den) := by
  have hsplit := Nat.div_add_mod' num den
  have hsucc := Nat.add_one_mul (num / den) den
  rcases roundQuotient_cases num den with ⟨hrem, hq⟩ | ⟨hrem, hq⟩ | ⟨hrem, heven, hq⟩
  · rw [hq]
    exact isNearestEven_div hden (by omega) (by omega) (by omega)
  · have hlt := Nat.mod_lt num hden
    rw [hq]
    exact isNearestEven_div hden (by omega) (by omega) (by omega)
  · refine isNearestEven_div hden ?_ ?_ fun _ => heven
    · rcases hq with hq | hq <;> rw [hq] <;> omega
    · rcases hq with hq | hq <;> rw [hq] <;> omega

/-- A factor of numerator and denominator makes no difference. -/
theorem roundQuotient_mul_left {c : ℕ} (hc : 0 < c) (num den : ℕ) :
    roundQuotient (c * num) (c * den) = roundQuotient num den := by
  have hmod : 2 * (c * (num % den)) = c * (2 * (num % den)) := Nat.mul_left_comm ..
  unfold roundQuotient
  simp only [Nat.mul_div_mul_left _ _ hc, Nat.mul_mod_mul_left, hmod, Nat.mul_lt_mul_left hc]

theorem le_roundQuotient {num den b : ℕ} (hden : 0 < den) (h : b * den ≤ num) :
    b ≤ roundQuotient num den := by
  have hb : b ≤ num / den := (Nat.le_div_iff_mul_le hden).2 h
  rcases roundQuotient_cases num den with ⟨-, hq⟩ | ⟨-, hq⟩ | ⟨-, -, hq⟩ <;> omega

theorem roundQuotient_le {num den b : ℕ} (hden : 0 < den) (h : num ≤ b * den) :
    roundQuotient num den ≤ b := by
  have hb : num / den ≤ b := Nat.div_le_of_le_mul (Nat.mul_comm b den ▸ h)
  have hsplit := Nat.div_add_mod' num den
  rcases Nat.lt_or_eq_of_le hb with hlt | heq
  · rcases roundQuotient_cases num den with ⟨-, hq⟩ | ⟨-, hq⟩ | ⟨-, -, hq⟩ <;> omega
  · have hexact : num % den = 0 := by
      rw [heq] at hsplit
      omega
    rcases roundQuotient_cases num den with ⟨-, hq⟩ | ⟨hrem, -⟩ | ⟨hrem, -, -⟩ <;> omega

/-! ## Exact values -/

/-- The exact value of a finite double. -/
def toRat (x : Binary64) : ℚ := (if x.isNegative then -1 else 1) * (x.units / unitsPerOne)

/-- The exponent stays a variable, so that nobody computes the power. -/
theorem exists_unitsPerOne_eq : ∃ w, w = 1074 ∧ unitsPerOne = 2 ^ w := by
  obtain ⟨w, hw⟩ : ∃ w, w = 1074 := ⟨_, rfl⟩
  exact ⟨w, hw, by rw [unitsPerOne, ← hw, Nat.one_shiftLeft]⟩

/-- The last of the fifty-three binary digits that are kept of a natural. -/
def lastPlace (n : ℕ) : ℚ := 2 ^ n.log2 / 2 ^ 52

/-- `r` is `n` rounded to fifty-three binary digits, half to the even last digit. -/
def IsRounded (n : ℕ) (r : ℚ) : Prop :=
  ∃ m : ℕ, IsNearestEven (n / lastPlace n) m ∧ r = m * lastPlace n

/-- The digits that are kept of a natural. -/
def significand (n : ℕ) : ℕ := roundQuotient (n * 2 ^ 52) (2 ^ n.log2)

theorem lastPlace_pos (n : ℕ) : 0 < lastPlace n := by
  unfold lastPlace
  positivity

theorem isRounded_significand (n : ℕ) : IsRounded n (significand n * lastPlace n) := by
  refine ⟨significand n, ?_, rfl⟩
  have hden : 0 < 2 ^ n.log2 := by positivity
  have h := roundQuotient_isNearestEven (n * 2 ^ 52) hden
  have hquot : (n : ℚ) / lastPlace n = (n * 2 ^ 52 : ℕ) / (2 ^ n.log2 : ℕ) := by
    unfold lastPlace
    rw [Nat.cast_mul, Nat.cast_pow, Nat.cast_pow, Nat.cast_ofNat, div_div_eq_mul_div]
  rw [hquot]
  exact h

theorem IsRounded.unique {n : ℕ} {r r' : ℚ} (h : IsRounded n r) (h' : IsRounded n r') :
    r = r' := by
  obtain ⟨m, hm, rfl⟩ := h
  obtain ⟨m', hm', rfl⟩ := h'
  rw [hm.unique hm']

theorem significand_zero : significand 0 = 0 := by decide

theorem le_significand {n : ℕ} (hn : n ≠ 0) : 2 ^ 52 ≤ significand n := by
  refine le_roundQuotient (by positivity) ?_
  rw [Nat.mul_comm]
  exact Nat.mul_le_mul_right _ (Nat.log2_self_le hn)

theorem significand_le (n : ℕ) : significand n ≤ 2 ^ 53 := by
  refine roundQuotient_le (by positivity) ?_
  have h : n ≤ 2 ^ (n.log2 + 1) := Nat.lt_log2_self.le
  calc n * 2 ^ 52 ≤ 2 ^ (n.log2 + 1) * 2 ^ 52 := Nat.mul_le_mul_right _ h
    _ = 2 ^ 53 * 2 ^ n.log2 := by ring

theorem log2_mul_two_pow {n : ℕ} (hn : n ≠ 0) (a : ℕ) : (n * 2 ^ a).log2 = n.log2 + a := by
  rw [Nat.log2_eq_iff (by positivity), pow_add, add_right_comm, pow_add]
  exact ⟨Nat.mul_le_mul_right _ (Nat.log2_self_le hn),
    Nat.mul_lt_mul_of_pos_right Nat.lt_log2_self (by positivity)⟩

/-- The bits of the double nearest to a quotient by a power of two: the place of the last digit and
the digits, the first of which counts as one more place. -/
theorem nearestBits_two_pow {n j : ℕ} (hn : n ≠ 0) (hlog : n.log2 ≤ 1000) (hj : j ≤ 1000) :
    nearestBits n (2 ^ j) = (n.log2 + 1022 - j) * fractionSize + significand n := by
  obtain ⟨w, hw, hunits⟩ := exists_unitsPerOne_eq
  have hquot : n * unitsPerOne / 2 ^ j = n * 2 ^ (w - j) := by
    rw [hunits, ← Nat.pow_sub_mul_pow 2 (show j ≤ w by omega), ← Nat.mul_assoc,
      Nat.mul_div_cancel _ (by positivity)]
  have hplace : exponentOf (n * unitsPerOne / 2 ^ j) = n.log2 + 1022 - j := by
    rw [hquot, exponentOf, log2_mul_two_pow hn]
    omega
  have hdigits : roundQuotient (n * unitsPerOne) (2 ^ j <<< (n.log2 + 1022 - j)) =
      significand n := by
    obtain ⟨c, hc⟩ : ∃ c, c = 1022 := ⟨_, rfl⟩
    have hnum : n * unitsPerOne = 2 ^ c * (n * 2 ^ 52) := by
      rw [hunits, show w = c + 52 by omega, pow_add]
      ring
    have hden : 2 ^ j <<< (n.log2 + 1022 - j) = 2 ^ c * 2 ^ n.log2 := by
      have hexp : j + (n.log2 + 1022 - j) = c + n.log2 := by omega
      rw [Nat.shiftLeft_eq, ← pow_add, hexp, pow_add]
    rw [hnum, hden, roundQuotient_mul_left (by positivity)]
    rfl
  have hfinite : (n.log2 + 1022 - j) * fractionSize + significand n ≤ infinityBits := by
    have hbound := significand_le n
    unfold infinityBits fractionSize
    omega
  unfold nearestBits
  simp only [hplace, hdigits]
  exact min_eq_right hfinite

theorem bits_withSign_false {b : ℕ} (h : b < signBit) : (withSign false b).bits.toNat = b := by
  unfold signBit at h
  rw [withSign, if_neg Bool.false_ne_true, Nat.add_zero, UInt64.toNat_ofNat_of_lt']
  exact lt_trans h (by decide)

theorem isFinite_iff_of_exponentField {x : Binary64} {e : ℕ} (h : x.exponentField = e) :
    x.isFinite = true ↔ e ≠ 0x7FF := by
  rw [isFinite, h, decide_eq_true_iff]

theorem units_of_exponentField {x : Binary64} {k : ℕ} (h : x.exponentField = k + 1) :
    x.units = (fractionSize + x.fractionField) * 2 ^ k := by
  rw [units, mantissa, scale, h, if_neg (Nat.succ_ne_zero k), Nat.add_sub_cancel,
    Nat.shiftLeft_eq]

/-- The double with some digits from some place on, also where a carry makes one digit more. -/
theorem units_withSign {k m : ℕ} (hm : 2 ^ 52 ≤ m) (hm' : m ≤ 2 ^ 53) (hk : k ≤ 2044) :
    (withSign false (k * fractionSize + m)).isNegative = false ∧
      (withSign false (k * fractionSize + m)).isFinite = true ∧
        (withSign false (k * fractionSize + m)).units = m * 2 ^ k := by
  have hlt : k * fractionSize + m < signBit := by
    unfold fractionSize signBit
    omega
  have hbits := bits_withSign_false hlt
  have hfields : (withSign false (k * fractionSize + m)).exponentField =
        (k * fractionSize + m) / fractionSize % 0x800 ∧
      (withSign false (k * fractionSize + m)).fractionField =
        (k * fractionSize + m) % fractionSize := by
    rw [exponentField, fractionField, hbits]
    exact ⟨rfl, rfl⟩
  refine ⟨by rw [isNegative, hbits]; exact decide_eq_false (not_le.2 hlt), ?_⟩
  rcases Nat.lt_or_eq_of_le hm' with hcarry | rfl
  · have hexp : (withSign false (k * fractionSize + m)).exponentField = k + 1 := by
      rw [hfields.1, fractionSize]
      omega
    have hfraction : fractionSize + (withSign false (k * fractionSize + m)).fractionField = m := by
      rw [hfields.2, fractionSize]
      omega
    refine ⟨(isFinite_iff_of_exponentField hexp).2 (by omega), ?_⟩
    rw [units_of_exponentField hexp, hfraction]
  · have hexp : (withSign false (k * fractionSize + 2 ^ 53)).exponentField = k + 1 + 1 := by
      rw [hfields.1, fractionSize]
      omega
    have hfraction : fractionSize +
        (withSign false (k * fractionSize + 2 ^ 53)).fractionField = 2 ^ 52 := by
      rw [hfields.2, fractionSize]
      omega
    refine ⟨(isFinite_iff_of_exponentField hexp).2 (by omega), ?_⟩
    rw [units_of_exponentField hexp, hfraction]
    ring

/-- The double nearest to zero over anything is zero. -/
theorem nearest_zero (den : ℕ) : nearest false 0 den = ⟨0⟩ := by
  have hround : ∀ d, roundQuotient 0 d = 0 := fun d => by
    simp [roundQuotient]
  have hbits : nearestBits 0 den = 0 := by
    unfold nearestBits
    simp [hround, exponentOf]
  rw [nearest, hbits]
  rfl

theorem toRat_zero : toRat ⟨0⟩ = 0 := by
  have hunits : units ⟨0⟩ = 0 := by decide
  rw [toRat, hunits, Nat.cast_zero, zero_div, mul_zero]

/-- The double nearest to a quotient by a power of two is the rounded numerator over that power. -/
theorem toRat_nearest {n j : ℕ} (hlog : n.log2 ≤ 1000) (hj : j ≤ 1000) :
    (nearest false n (2 ^ j)).isFinite = true ∧
      (nearest false n (2 ^ j)).toRat = significand n * lastPlace n / 2 ^ j := by
  rcases eq_or_ne n 0 with rfl | hn
  · rw [nearest_zero, toRat_zero, significand_zero]
    exact ⟨by decide, by simp⟩
  obtain ⟨hnegative, hfinite, hunits⟩ :=
    units_withSign (k := n.log2 + 1022 - j) (le_significand hn) (significand_le n) (by omega)
  obtain ⟨w, hw, hone⟩ := exists_unitsPerOne_eq
  rw [← nearestBits_two_pow hn hlog hj] at hnegative hfinite hunits
  refine ⟨hfinite, ?_⟩
  have hplace : (2 ^ (n.log2 + 1022 - j) : ℚ) * 2 ^ j * 2 ^ 52 = 2 ^ n.log2 * 2 ^ w := by
    have hexp : n.log2 + 1022 - j + j + 52 = n.log2 + w := by omega
    rw [← pow_add, ← pow_add, ← pow_add, hexp]
  rw [nearest, toRat, hnegative, if_neg Bool.false_ne_true, one_mul, hunits, hone, lastPlace,
    Nat.cast_mul, Nat.cast_pow, Nat.cast_pow, Nat.cast_ofNat, mul_div_assoc', div_div,
    div_eq_div_iff (by positivity) (by positivity)]
  linear_combination (significand n : ℚ) * hplace

theorem toRat_ofNat {n : ℕ} (hlog : n.log2 ≤ 1000) :
    (ofNat n).toRat = significand n * lastPlace n := by
  have h := (toRat_nearest (j := 0) hlog (by omega)).2
  rw [pow_zero, pow_zero, div_one] at h
  exact h

theorem isRounded_toRat_ofNat {n : ℕ} (hlog : n.log2 ≤ 1000) : IsRounded n (ofNat n).toRat :=
  toRat_ofNat hlog ▸ isRounded_significand n

/-! ## Words of sixty-four bits -/

theorem log2_le_of_lt {n : ℕ} (hn : n < 2 ^ 64) : n.log2 ≤ 63 := by
  rcases eq_or_ne n 0 with rfl | h
  · decide
  · exact Nat.lt_succ_iff.1 ((Nat.log2_lt h).2 hn)

theorem toRat_ofNat_nonneg {n : ℕ} (hn : n < 2 ^ 64) : 0 ≤ (ofNat n).toRat := by
  have hplace := lastPlace_pos n
  rw [toRat_ofNat ((log2_le_of_lt hn).trans (by decide))]
  positivity

theorem toRat_ofNat_le {n : ℕ} (hn : n < 2 ^ 64) : (ofNat n).toRat ≤ 2 ^ (n.log2 + 1) := by
  have hdigits : (significand n : ℚ) ≤ 2 ^ 53 := by exact_mod_cast significand_le n
  have hplace := lastPlace_pos n
  rw [toRat_ofNat ((log2_le_of_lt hn).trans (by decide))]
  calc (significand n : ℚ) * lastPlace n ≤ 2 ^ 53 * lastPlace n := by gcongr
    _ = 2 ^ (n.log2 + 1) := by
      unfold lastPlace
      ring

/-- A word rounds to `2^64`, which is no word, exactly from half a last place below it on. -/
theorem toRat_ofNat_lt_iff {n : ℕ} (hn : n < 2 ^ 64) :
    (ofNat n).toRat < 2 ^ 64 ↔ n < 2 ^ 64 - 1024 := by
  rcases Nat.lt_or_eq_of_le (log2_le_of_lt hn) with hlog | hlog
  · have hle : (ofNat n).toRat ≤ 2 ^ 63 :=
      (toRat_ofNat_le hn).trans (pow_le_pow_right₀ one_le_two (by omega))
    have hlt : n < 2 ^ 63 := Nat.lt_log2_self.trans_le (Nat.pow_le_pow_right two_pos (by omega))
    exact iff_of_true (hle.trans_lt (by norm_num)) (by omega)
  · have hdigits : significand n = roundQuotient n 2048 := by
      have hden : 2 ^ 63 = 2 ^ 52 * 2048 := by norm_num
      rw [significand, hlog, hden, Nat.mul_comm n, roundQuotient_mul_left (by positivity)]
    have hplace : lastPlace n = 2048 := by
      rw [lastPlace, hlog]
      norm_num
    have hvalue : (ofNat n).toRat = (roundQuotient n 2048 * 2048 : ℕ) := by
      rw [toRat_ofNat (by omega), hdigits, hplace]
      norm_num
    have hcarry : roundQuotient n 2048 * 2048 < 2 ^ 64 ↔ n < 2 ^ 64 - 1024 := by
      unfold roundQuotient
      simp only
      split_ifs <;> omega
    rw [hvalue, ← hcarry]
    exact_mod_cast Iff.rfl

end Binary64

end ScopedRetrieval
