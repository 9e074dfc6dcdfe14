/-
Values on one line are read back as they were written. An integer is no date and no time, since what
follows its digits is neither a hyphen nor a colon (`readMoment_digits`), and no float, since it is
neither a point nor an exponent (`readDecimal_toDigits`). An array may stand on several lines; its
items are scalars, each with the comma or the bracket that ends it (`readItems_bracketed`).
-/
import ScopedRetrieval.Toml.Parser
import ScopedRetrieval.Toml.Printer
import ScopedRetrieval.Proofs.Toml.Key

namespace ScopedRetrieval.Toml

/-- What follows a value: the end of its line, a comma or the bracket that closes an array. -/
def EndsValue (rest : List Char) : Prop :=
  ∃ c tail, rest = c :: tail ∧ (c = '\n' ∨ c = ',' ∨ c = ']')

theorem EndsValue.head?_ne {rest : List Char} (h : EndsValue rest) {c : Char}
    (hc : c ≠ '\n' ∧ c ≠ ',' ∧ c ≠ ']') : rest.head? ≠ some c := by
  obtain ⟨d, tail, rfl, hd⟩ := h
  rintro hhead
  obtain rfl := Option.some.inj hhead
  rcases hd with hd | hd | hd
  exacts [hc.1 hd, hc.2.1 hd, hc.2.2 hd]

/-! ## Digits -/

theorem digit?_ten_of_isDigit {c : Char} (h : c.isDigit = true) :
    (digit? 10 c).isSome = true := by
  simp only [Char.isDigit, Bool.and_eq_true, decide_eq_true_eq, ge_iff_le] at h
  have hle : '0' ≤ c ∧ c ≤ '9' := h
  have hbound : c.toNat ≤ '9'.toNat := h.2
  unfold digit?
  rw [if_pos hle, if_pos (by simp only [Char.reduceToNat] at hbound ⊢; omega)]
  rfl

theorem digitsValue_append_singleton (base : Nat) (digits : List Char) (c : Char) :
    digitsValue base (digits ++ [c]) = digitsValue base digits * base + (digit? base c).getD 0 := by
  simp [digitsValue]

theorem digit?_ten_digitChar : ∀ n < 10, digit? 10 (Nat.digitChar n) = some n := by decide

theorem digitsValue_toDigits (n : Nat) : digitsValue 10 (Nat.toDigits 10 n) = n := by
  induction n using Nat.base_induction 10 (by decide) with
  | single m hm =>
    rw [Nat.toDigits_of_lt_base hm]
    simp [digitsValue, digit?_ten_digitChar m hm]
  | digit m k hk hm ih =>
    rw [← Nat.toDigits_append_toDigits (by decide) hm hk, Nat.toDigits_of_lt_base hk,
      digitsValue_append_singleton, ih, digit?_ten_digitChar k hk, Option.getD_some,
      Nat.mul_comm]

theorem isDigit_of_mem_toDigits {n : Nat} : ∀ c ∈ Nat.toDigits 10 n, c.isDigit = true :=
  fun _ hc => Nat.isDigit_of_mem_toDigits (by decide) (by decide) hc

theorem toDigits_eq_digit_cons (n : Nat) : ∃ c ds, Nat.toDigits 10 n = c :: ds ∧
    c.isDigit = true ∧ ∀ d ∈ ds, d.isDigit = true := by
  obtain ⟨c, ds, hdigits⟩ := List.exists_cons_of_ne_nil (Nat.toDigits_ne_nil (n := n) (b := 10))
  have hmem := isDigit_of_mem_toDigits (n := n)
  rw [hdigits, List.forall_mem_cons] at hmem
  exact ⟨c, ds, hdigits, hmem⟩

/-- No zero stands before the other digits of a number. -/
theorem toDigits_eq_cons {n : Nat} (hn : n ≠ 0) :
    ∃ c tail, Nat.toDigits 10 n = c :: tail ∧ c ≠ '0' := by
  induction n using Nat.base_induction 10 (by decide) with
  | single m hm =>
    have hzero : ∀ m < 10, m ≠ 0 → Nat.digitChar m ≠ '0' := by decide
    exact ⟨_, [], Nat.toDigits_of_lt_base hm, hzero m hm hn⟩
  | digit m k hk hm ih =>
    obtain ⟨c, tail, hdigits, hc⟩ := ih (by omega)
    rw [← Nat.toDigits_append_toDigits (by decide) hm hk, hdigits]
    exact ⟨c, _, rfl, hc⟩

theorem readDigitsOn_digits {base : Nat} {digits rest : List Char}
    (hdigits : ∀ c ∈ digits, (digit? base c).isSome = true)
    (hrest : readDigitsOn base false rest = some ([], rest)) :
    readDigitsOn base false (digits ++ rest) = some (digits, rest) := by
  induction digits with
  | nil => exact hrest
  | cons c digits ih =>
    rw [List.forall_mem_cons] at hdigits
    rw [List.cons_append, readDigitsOn, if_pos hdigits.1, ih hdigits.2]
    rfl

theorem readDigitRun_digits {base : Nat} {digits rest : List Char} (hne : digits ≠ [])
    (hdigits : ∀ c ∈ digits, (digit? base c).isSome = true)
    (hrest : readDigitsOn base false rest = some ([], rest)) :
    readDigitRun base (digits ++ rest) = some (digits, rest) := by
  obtain ⟨c, digits, rfl⟩ := List.exists_cons_of_ne_nil hne
  rw [List.forall_mem_cons] at hdigits
  unfold readDigitRun
  rw [List.cons_append, readDigitsOn, if_pos hdigits.1, readDigitsOn_digits hdigits.2 hrest]
  rfl

/-! ## Integers -/

section

variable {rest : List Char} (hrest : EndsValue rest)

include hrest

theorem readDigitsOn_endsValue : readDigitsOn 10 false rest = some ([], rest) := by
  obtain ⟨c, tail, rfl, rfl | rfl | rfl⟩ := hrest <;> rfl

theorem readWhole_toDigits (n : Nat) :
    readWhole (Nat.toDigits 10 n ++ rest) = some (Nat.toDigits 10 n, rest) := by
  by_cases hn : n = 0
  · subst hn
    rfl
  · have hrun : readDigitRun 10 (Nat.toDigits 10 n ++ rest) = some (Nat.toDigits 10 n, rest) :=
      readDigitRun_digits Nat.toDigits_ne_nil
        (fun c hc => digit?_ten_of_isDigit (isDigit_of_mem_toDigits c hc))
        (readDigitsOn_endsValue hrest)
    obtain ⟨c, tail, hdigits, hc⟩ := toDigits_eq_cons hn
    rw [hdigits] at hrun ⊢
    unfold readWhole
    split
    · rename_i heq
      exact absurd (List.cons.inj heq).1 hc
    · exact hrun

theorem readDecimal_toDigits (negative : Bool) (n : Nat) :
    readDecimal negative (Nat.toDigits 10 n ++ rest) =
      (checkedInteger (if negative then -(n : Int) else n)).map (·, rest) := by
  have hplaces : readPlaces rest = some (none, rest) := by
    obtain ⟨c, tail, rfl, rfl | rfl | rfl⟩ := hrest <;> rfl
  have hpower : readPower rest = some (none, rest) := by
    obtain ⟨c, tail, rfl, rfl | rfl | rfl⟩ := hrest <;> rfl
  unfold readDecimal
  simp only [readWhole_toDigits hrest, hplaces, hpower, digitsValue_toDigits, Option.bind_eq_bind,
    Option.bind_some]
  cases checkedInteger (if negative = true then -(n : Int) else n) <;> rfl

end

theorem digit_cons_ne {c e : Char} (hc : c.isDigit = true) (he : e.isDigit = false)
    (rest rest' : List Char) : c :: rest ≠ e :: rest' := by
  rintro h
  rw [(List.cons.inj h).1, he] at hc
  cases hc

/-- What has no mark of a base and begins with a digit behind its sign is in decimal. -/
theorem readNumber_signed {cs rest : List Char} {negative : Bool} {c : Char}
    (hbase : ∀ d tail, cs = '0' :: d :: tail → d ≠ 'x' ∧ d ≠ 'o' ∧ d ≠ 'b')
    (hsign : readSign cs = (negative, c :: rest)) (hc : c.isDigit = true) :
    readNumber cs = readDecimal negative (c :: rest) := by
  unfold readNumber
  split
  · exact absurd rfl (hbase _ _ rfl).1
  · exact absurd rfl (hbase _ _ rfl).2.1
  · exact absurd rfl (hbase _ _ rfl).2.2
  · rw [hsign]
    dsimp only
    split
    · rename_i heq
      exact absurd heq (digit_cons_ne hc (by decide) _ _)
    · rename_i heq
      exact absurd heq (digit_cons_ne hc (by decide) _ _)
    · rfl

theorem readNumber_digit {c d : Char} (hc : c.isDigit = true)
    (hd : d ≠ 'x' ∧ d ≠ 'o' ∧ d ≠ 'b') (rest : List Char) :
    readNumber (c :: d :: rest) = readDecimal false (c :: d :: rest) := by
  have hsign : readSign (c :: d :: rest) = (false, c :: d :: rest) := by
    unfold readSign
    split
    · rename_i heq
      exact absurd heq (digit_cons_ne hc (by decide) _ _)
    · rename_i heq
      exact absurd heq (digit_cons_ne hc (by decide) _ _)
    · rfl
  refine readNumber_signed (fun e tail heq => ?_) hsign hc
  rwa [← (List.cons.inj (List.cons.inj heq).2).1]

theorem readNumber_minus {c : Char} (hc : c.isDigit = true) (rest : List Char) :
    readNumber ('-' :: c :: rest) = readDecimal true (c :: rest) :=
  readNumber_signed (fun _ _ heq => absurd (List.cons.inj heq).1 (by decide)) rfl hc

/-- Behind digits that are all read up to a number of them, no mark is found that neither is a digit
nor follows the digits. -/
theorem readChar_of_readDigits {count low high n : Nat} {digits rest tail : List Char} (mark : Char)
    (hdigits : ∀ c ∈ digits, c.isDigit = true) (hrest : EndsValue rest)
    (hmark : mark.isDigit = false ∧ mark ≠ '\n' ∧ mark ≠ ',' ∧ mark ≠ ']')
    (h : readDigits count low high (digits ++ rest) = some (n, tail)) :
    readChar mark tail = none := by
  obtain ⟨c, rest, rfl, hc⟩ := hrest
  have hcdigit : c.isDigit = false := by
    rcases hc with rfl | rfl | rfl <;> decide
  have hcmark : mark ≠ c := by
    rcases hc with rfl | rfl | rfl
    exacts [hmark.2.1, hmark.2.2.1, hmark.2.2.2]
  simp only [readDigits] at h
  split at h
  · rename_i hread
    obtain ⟨-, rfl⟩ := Prod.mk.inj (Option.some.inj h)
    have hcount : count ≤ digits.length := by
      by_contra hlt
      have hmem : c ∈ (digits ++ c :: rest).take count := by
        rw [List.take_append, List.mem_append]
        obtain ⟨k, hk⟩ : ∃ k, count - digits.length = k + 1 := ⟨count - digits.length - 1, by omega⟩
        rw [hk, List.take_succ_cons]
        exact .inr List.mem_cons_self
      have := List.all_eq_true.1 hread.2.1 c hmem
      rw [hcdigit] at this
      cases this
    rw [List.drop_append_of_le_length hcount]
    cases hdrop : digits.drop count with
    | nil => exact if_neg hcmark
    | cons d tail =>
      have hd : d.isDigit = true :=
        hdigits d (List.mem_of_mem_drop (by rw [hdrop]; exact List.mem_cons_self))
      refine if_neg ?_
      rintro rfl
      rw [hmark.1] at hd
      cases hd
  · cases h

/-- Digits alone are neither a date nor a time. -/
theorem readMoment_digits {digits rest : List Char} (hdigits : ∀ c ∈ digits, c.isDigit = true)
    (hrest : EndsValue rest) : readMoment (digits ++ rest) = none := by
  have hdate : readDate (digits ++ rest) = none := by
    unfold readDate
    cases hyear : readDigits 4 0 9999 (digits ++ rest) with
    | none => rfl
    | some r =>
      simp [readChar_of_readDigits '-' hdigits hrest (by decide) hyear]
  have htime : readTime (digits ++ rest) = none := by
    unfold readTime
    cases hhour : readDigits 2 0 23 (digits ++ rest) with
    | none => rfl
    | some r =>
      simp [readChar_of_readDigits ':' hdigits hrest (by decide) hhour]
  unfold readMoment
  rw [hdate]
  exact htime

theorem readMoment_minus (cs : List Char) : readMoment ('-' :: cs) = none := by
  have hread : ∀ count low high, readDigits (count + 1) low high ('-' :: cs) = none := by
    intro count low high
    refine if_neg fun h => ?_
    have := List.all_eq_true.1 h.2.1 '-' List.mem_cons_self
    exact absurd this (by decide)
  unfold readMoment readDate readTime
  rw [hread, hread]
  rfl

/-! ## Scalars -/

/-- A value that does not hold others, and that is written so that it reads back. -/
inductive Value.IsScalar : Value → Prop
  | string (s : String) : IsScalar (.string s)
  | integer {n : Int} (fits : integerFits n = true) : IsScalar (.integer n)
  | boolean (b : Bool) : IsScalar (.boolean b)

/-- The characters that scalars begin with. -/
def startsScalar (c : Char) : Bool := c.isDigit || c ∈ ['"', '\'', '-', 't', 'f']

theorem ne_of_startsScalar {c d : Char} (hc : startsScalar c = true) (hd : startsScalar d = false) :
    c ≠ d := by
  rintro rfl
  rw [hd] at hc
  cases hc

theorem toList_toString_nonneg {n : Int} (hn : 0 ≤ n) :
    (toString n).toList = Nat.toDigits 10 n.toNat := by
  rw [Int.toString_eq_repr, Int.repr_eq_if, if_pos hn, Nat.toList_repr]

theorem toList_toString_neg {n : Int} (hn : ¬0 ≤ n) :
    (toString n).toList = '-' :: Nat.toDigits 10 (-n).toNat := by
  rw [Int.toString_eq_repr, Int.repr_eq_if, if_neg hn, String.toList_append, Nat.toList_repr]
  rfl

theorem writeValue_eq_cons {v : Value} (hv : v.IsScalar) :
    ∃ c tail, (writeValue v).toList = c :: tail ∧ startsScalar c = true := by
  cases hv with
  | string s =>
    obtain ⟨quote, tail, htext, hquote⟩ := writeQuoted_eq_cons s
    refine ⟨quote, tail, htext, ?_⟩
    rcases hquote with rfl | rfl <;> decide
  | @integer n hfits =>
    by_cases hn : 0 ≤ n
    · obtain ⟨c, tail, hdigits, hc, -⟩ := toDigits_eq_digit_cons n.toNat
      refine ⟨c, tail, (toList_toString_nonneg hn).trans hdigits, ?_⟩
      rw [startsScalar, hc]
      rfl
    · exact ⟨_, _, toList_toString_neg hn, by decide⟩
  | boolean b => cases b <;> exact ⟨_, _, rfl, by decide⟩

theorem readScalar_number {c : Char} (hc : c.isDigit = true ∨ c = '-') {cs : List Char}
    (hmoment : readMoment (c :: cs) = none) : readScalar (c :: cs) = readNumber (c :: cs) := by
  have hne : ∀ d, d.isDigit = false → d ≠ '-' → c ≠ d := by
    rintro d hdigit hminus rfl
    rcases hc with hc | rfl
    · rw [hdigit] at hc
      cases hc
    · exact hminus rfl
  unfold readScalar
  split
  · rename_i heq
    exact absurd (List.cons.inj heq).1 (hne _ (by decide) (by decide))
  · rename_i heq
    exact absurd (List.cons.inj heq).1 (hne _ (by decide) (by decide))
  · rename_i heq
    obtain ⟨rfl, rfl⟩ := List.cons.inj heq
    rw [if_neg (not_or.2 ⟨hne _ (by decide) (by decide), hne _ (by decide) (by decide)⟩), hmoment]
  · rename_i heq
    cases heq

theorem checkedInteger_of_fits {n : Int} (h : integerFits n = true) :
    checkedInteger n = some (.integer n) :=
  if_pos h

theorem readScalar_integer {n : Int} (hfits : integerFits n = true) {rest : List Char}
    (hrest : EndsValue rest) :
    readScalar ((toString n).toList ++ rest) = some (.integer n, rest) := by
  by_cases hn : 0 ≤ n
  · rw [toList_toString_nonneg hn]
    have hmoment := readMoment_digits (isDigit_of_mem_toDigits (n := n.toNat)) hrest
    have hdecimal := readDecimal_toDigits hrest false n.toNat
    obtain ⟨c, ds, hdigits, hc, hds⟩ := toDigits_eq_digit_cons n.toNat
    -- the character behind the first digit is a digit or ends the value
    obtain ⟨d, tail, htail, hd⟩ :
        ∃ d tail, ds ++ rest = d :: tail ∧ d ≠ 'x' ∧ d ≠ 'o' ∧ d ≠ 'b' := by
      cases ds with
      | nil =>
        obtain ⟨d, tail, rfl, rfl | rfl | rfl⟩ := hrest <;> exact ⟨_, _, rfl, by decide⟩
      | cons d ds =>
        have hd := hds d List.mem_cons_self
        refine ⟨d, ds ++ rest, rfl, ?_⟩
        refine ⟨?_, ?_, ?_⟩
        all_goals
          rintro rfl
          exact absurd hd (by decide)
    rw [hdigits, List.cons_append, htail] at hmoment hdecimal ⊢
    rw [readScalar_number (.inl hc) hmoment, readNumber_digit hc hd, hdecimal]
    rw [if_neg Bool.false_ne_true, Int.toNat_of_nonneg hn, checkedInteger_of_fits hfits]
    rfl
  · rw [toList_toString_neg hn]
    have hdecimal := readDecimal_toDigits hrest true (-n).toNat
    obtain ⟨c, ds, hdigits, hc, -⟩ := toDigits_eq_digit_cons (-n).toNat
    have hneg : -(((-n).toNat : Nat) : Int) = n := by omega
    rw [hdigits, List.cons_append] at hdecimal
    rw [hdigits, List.cons_append, List.cons_append,
      readScalar_number (.inr rfl) (readMoment_minus _), readNumber_minus hc, hdecimal,
      if_pos rfl, hneg, checkedInteger_of_fits hfits]
    rfl

theorem readScalar_writeValue {v : Value} (hv : v.IsScalar) {rest : List Char}
    (hrest : EndsValue rest) : readScalar ((writeValue v).toList ++ rest) = some (v, rest) := by
  cases hv with
  | string s =>
    have hread := readQuoted_writeQuoted s (hrest.head?_ne (by decide)) (hrest.head?_ne (by decide))
    obtain ⟨quote, tail, htext, hquote⟩ := writeQuoted_eq_cons s
    show readScalar ((writeQuoted s).toList ++ rest) = _
    rw [htext, List.cons_append] at hread ⊢
    rcases hquote with rfl | rfl
    · simp [readScalar, hread]
    · simp [readScalar, hread]
  | integer hfits => exact readScalar_integer hfits hrest
  | boolean b => cases b <;> rfl

theorem readValueWithin_scalar {c : Char} (hc : startsScalar c = true) (depth : Nat)
    (cs : List Char) : readValueWithin (depth + 1) (c :: cs) = readScalar (c :: cs) := by
  rw [readValueWithin]
  · rintro tail heq
    exact ne_of_startsScalar hc (by decide) (List.cons.inj heq).1
  · rintro tail heq
    exact ne_of_startsScalar hc (by decide) (List.cons.inj heq).1

/-- A scalar reads back as it was written, in front of what ends a value. -/
theorem readValueWithin_writeValue {v : Value} (hv : v.IsScalar) (depth : Nat) {rest : List Char}
    (hrest : EndsValue rest) :
    readValueWithin (depth + 1) ((writeValue v).toList ++ rest) = some (v, rest) := by
  have hread := readScalar_writeValue hv hrest
  obtain ⟨c, tail, htext, hc⟩ := writeValue_eq_cons hv
  rw [htext, List.cons_append] at hread ⊢
  rw [readValueWithin_scalar hc, hread]

/-! ## Arrays of scalars -/

theorem skipFiller_of_startsScalar {c : Char} (hc : startsScalar c = true) (cs : List Char) :
    skipFiller false (c :: cs) = c :: cs := by
  have hspace : isSpace c = false := by
    rw [isSpace, Bool.or_eq_false_iff, decide_eq_false_iff_not, decide_eq_false_iff_not]
    exact ⟨ne_of_startsScalar hc (by decide), ne_of_startsScalar hc (by decide)⟩
  have hnewline : c ≠ '\n' := ne_of_startsScalar hc (by decide)
  have hreturn : c ≠ '\r' := ne_of_startsScalar hc (by decide)
  have hcomment : c ≠ '#' := ne_of_startsScalar hc (by decide)
  simp [skipFiller, hspace, hnewline, hreturn, hcomment]

section

variable {item : Reader Value} {cs rest tail : List Char}

theorem readItems_close (fuel : Nat) (hcs : skipFiller false cs = ']' :: tail) :
    readItems item (fuel + 1) cs = some ([], tail) := by
  rw [readItems, hcs]
  rfl

variable {c : Char} {v : Value} (hcs : skipFiller false cs = c :: rest) (hc : c ≠ ']')

include hcs hc

theorem readItems_comma {rest' : List Char} (fuel : Nat)
    (hitem : item (c :: rest) = some (v, rest'))
    (htail : skipFiller false rest' = ',' :: tail) :
    readItems item (fuel + 1) cs = (readItems item fuel tail).map fun r => (v :: r.1, r.2) := by
  rw [readItems, hcs]
  split
  · rename_i heq
    exact absurd (List.cons.inj heq).1 hc
  · simp only [hitem, htail, Option.bind_eq_bind, Option.bind_some]
    cases readItems item fuel tail <;> rfl

theorem readItems_last {rest' : List Char} (fuel : Nat) (hitem : item (c :: rest) = some (v, rest'))
    (htail : skipFiller false rest' = ']' :: tail) :
    readItems item (fuel + 1) cs = some ([v], tail) := by
  rw [readItems, hcs]
  split
  · rename_i heq
    exact absurd (List.cons.inj heq).1 hc
  · simp only [hitem, htail, Option.bind_eq_bind, Option.bind_some]
    rfl

end

/-- The lines of several items. -/
def itemLines (items : List Value) : List Char :=
  items.flatMap fun v => ("    " ++ writeValue v ++ ",\n").toList

theorem writeItems_eq_map (items : List Value) : writeItems items = items.map writeValue := by
  induction items with
  | nil => rfl
  | cons v items ih => rw [writeItems, ih]; rfl

theorem length_le_length_itemLines (items : List Value) :
    items.length ≤ (itemLines items).length := by
  induction items with
  | nil => exact Nat.le_refl _
  | cons v items ih =>
    have hlength : (itemLines (v :: items)).length =
        ("    " ++ writeValue v ++ ",\n").toList.length + (itemLines items).length :=
      List.length_append
    have hline : ("    " ++ writeValue v ++ ",\n").toList.length =
        4 + (writeValue v).toList.length + 2 := by
      rw [String.toList_append, String.toList_append, List.length_append, List.length_append]
      rfl
    rw [hlength, hline, List.length_cons]
    omega

theorem skipFiller_newline (cs : List Char) :
    skipFiller false ('\n' :: cs) = skipFiller false cs := by
  rw [skipFiller, if_pos rfl]

theorem skipFiller_space (cs : List Char) : skipFiller false (' ' :: cs) = skipFiller false cs := by
  simp [skipFiller, isSpace]

/-- Items on lines of their own are read one by one, each with the comma behind it. -/
theorem readItems_itemLines {items : List Value} (hitems : ∀ v ∈ items, v.IsScalar) (depth : Nat)
    (rest : List Char) : ∀ fuel, items.length < fuel →
      readItems (readValueWithin (depth + 1)) fuel ('\n' :: (itemLines items ++ ']' :: rest)) =
        some (items, rest) := by
  induction items with
  | nil =>
    rintro (_ | fuel) hfuel
    · exact absurd hfuel (Nat.not_lt_zero _)
    · exact readItems_close fuel (by rw [skipFiller_newline]; rfl)
  | cons v items ih =>
    rintro (_ | fuel) hfuel
    · exact absurd hfuel (Nat.not_lt_zero _)
    rw [List.forall_mem_cons] at hitems
    obtain ⟨c, tail, htext, hc⟩ := writeValue_eq_cons hitems.1
    have hcs : itemLines (v :: items) ++ ']' :: rest = ' ' :: ' ' :: ' ' :: ' ' ::
        c :: (tail ++ ',' :: '\n' :: (itemLines items ++ ']' :: rest)) := by
      show ("    " ++ writeValue v ++ ",\n").toList ++ itemLines items ++ ']' :: rest = _
      rw [String.toList_append, String.toList_append, htext]
      simp
    have hends : EndsValue (',' :: '\n' :: (itemLines items ++ ']' :: rest)) :=
      ⟨_, _, rfl, .inr (.inl rfl)⟩
    have hread := readValueWithin_writeValue hitems.1 depth hends
    rw [htext, List.cons_append] at hread
    have hfiller : skipFiller false ('\n' :: (itemLines (v :: items) ++ ']' :: rest)) =
        c :: (tail ++ ',' :: '\n' :: (itemLines items ++ ']' :: rest)) := by
      rw [hcs, skipFiller_newline, skipFiller_space, skipFiller_space, skipFiller_space,
        skipFiller_space, skipFiller_of_startsScalar hc]
    rw [readItems_comma hfiller (ne_of_startsScalar hc (by decide)) fuel hread rfl,
      ih hitems.2 fuel (Nat.lt_of_succ_lt_succ hfuel)]
    rfl

/-- The items of an array read back as they were written. -/
theorem readItems_bracketed {items : List Value} (hitems : ∀ v ∈ items, v.IsScalar) (depth : Nat)
    (rest : List Char) : ∃ cs, (bracketed (writeItems items)).toList ++ rest = '[' :: cs ∧
      readItems (readValueWithin (depth + 1)) (cs.length + 1) cs = some (items, rest) := by
  rw [writeItems_eq_map]
  match items with
  | [] => exact ⟨']' :: rest, rfl, readItems_close _ rfl⟩
  | [v] =>
    have hv := hitems v List.mem_cons_self
    obtain ⟨c, tail, htext, hc⟩ := writeValue_eq_cons hv
    have hends : EndsValue (']' :: rest) := ⟨_, _, rfl, .inr (.inr rfl)⟩
    have hread := readValueWithin_writeValue hv depth hends
    rw [htext, List.cons_append] at hread
    refine ⟨c :: (tail ++ ']' :: rest), ?_,
      readItems_last (skipFiller_of_startsScalar hc _) (ne_of_startsScalar hc (by decide)) _
        hread rfl⟩
    show ("[" ++ String.join [writeValue v] ++ "]").toList ++ rest = _
    simp [htext]
  | v :: v' :: items =>
    refine ⟨'\n' :: (itemLines (v :: v' :: items) ++ ']' :: rest), ?_,
      readItems_itemLines hitems depth rest _ ?_⟩
    · show ("[\n" ++ String.join (((v :: v' :: items).map writeValue).map
        fun item => "    " ++ item ++ ",\n") ++ "]").toList ++ rest = _
      rw [String.toList_append, String.toList_append, String.toList_join, List.flatMap_map,
        List.flatMap_map]
      simp [itemLines]
    · have := length_le_length_itemLines (v :: v' :: items)
      rw [List.length_cons (a := '\n'), List.length_append]
      omega

/-! ## Values on the line of their key -/

/-- A value that is written on the line of its key: a scalar, or an array of scalars. -/
inductive Value.IsLine : Value → Prop
  | scalar {v : Value} (h : v.IsScalar) : IsLine v
  | array {items : List Value} (h : ∀ v ∈ items, v.IsScalar) : IsLine (.array items)

/-- A value on the line of its key reads back as it was written. -/
theorem readValue_writeValue {v : Value} (hv : v.IsLine) {rest : List Char}
    (hrest : EndsValue rest) : readValue ((writeValue v).toList ++ rest) = some (v, rest) := by
  cases hv with
  | scalar h => exact readValueWithin_writeValue h _ hrest
  | @array items h =>
    obtain ⟨cs, htext, hread⟩ := readItems_bracketed h 78 rest
    show readValueWithin (79 + 1) ((bracketed (writeItems items)).toList ++ rest) = _
    rw [htext, readValueWithin, if_neg (by decide), hread]
    rfl

theorem skipSpaces_writeValue {v : Value} (hv : v.IsLine) (rest : List Char) :
    skipSpaces ((writeValue v).toList ++ rest) = (writeValue v).toList ++ rest := by
  cases hv with
  | scalar h =>
    obtain ⟨c, tail, htext, hc⟩ := writeValue_eq_cons h
    rw [htext, List.cons_append, skipSpaces_cons]
    rw [isSpace, Bool.or_eq_false_iff, decide_eq_false_iff_not, decide_eq_false_iff_not]
    exact ⟨ne_of_startsScalar hc (by decide), ne_of_startsScalar hc (by decide)⟩
  | @array items h =>
    obtain ⟨cs, htext, -⟩ := readItems_bracketed h 78 rest
    show skipSpaces ((bracketed (writeItems items)).toList ++ rest) = _
    rw [htext, skipSpaces_cons (by decide), ← htext]
    rfl

end ScopedRetrieval.Toml
