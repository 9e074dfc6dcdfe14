/-
Strings in quotes are read back as they were written, whatever characters they hold, in front of any
text that does not go on with a quote (`readQuoted_writeQuoted`). On several lines the difficulty is
the quotes at the end of a text: the reader takes the first three in a row for the end and gives up
to two behind them to the text. The induction therefore carries the run of quotes that stands before
what is left to be read.
-/
import ScopedRetrieval.Toml.Quoted
import Mathlib.Data.List.Basic

namespace ScopedRetrieval.Toml

theorem prepend_some (cs ds rest : List Char) :
    prepend cs (some (ds, rest)) = some (cs ++ ds, rest) :=
  rfl

/-! ## Characters of basic strings -/

theorem basicRest_text_cons (multi : Bool) (c : Char) (rest : List Char) :
    basicRest multi .text (c :: rest) =
      if c = '\r' ∧ multi then
        if rest.head? ≠ some '\n' then none else basicRest multi .text rest
      else if c = '\\' then basicRest multi .escape rest
      else if c = '"' then
        if multi then
          match closing? '"' rest with
          | some r => some r
          | none => prepend ['"'] (basicRest multi .text rest)
        else some ([], rest)
      else if isText c ∨ multi ∧ c = '\n' then prepend [c] (basicRest multi .text rest)
      else none :=
  rfl

theorem basicRest_escape_cons (multi : Bool) (c : Char) (rest : List Char) :
    basicRest multi .escape (c :: rest) =
      match escaped? c with
      | some d => prepend [d] (basicRest multi .text rest)
      | none =>
        if c = 'u' then basicRest multi (.number 4 0) rest
        else if c = 'U' then basicRest multi (.number 8 0) rest
        else if multi ∧ isSpace c then basicRest multi .lineEnd rest
        else if multi ∧ c = '\n' then basicRest multi .skipped rest
        else if multi ∧ c = '\r' ∧ rest.head? = some '\n' then basicRest multi .skipped rest
        else none :=
  rfl

theorem basicRest_number_cons (multi : Bool) (missing value : Nat) (c : Char) (rest : List Char) :
    basicRest multi (.number missing value) (c :: rest) =
      match digit? 16 c with
      | none => none
      | some d =>
        if 1 < missing then basicRest multi (.number (missing - 1) (value * 16 + d)) rest
        else if (value * 16 + d).isValidChar then
          prepend [Char.ofNat (value * 16 + d)] (basicRest multi .text rest)
        else none :=
  rfl

theorem basicRest_of_isText (multi : Bool) {c : Char} (h : isText c = true) (hquote : c ≠ '"')
    (hslash : c ≠ '\\') (rest : List Char) :
    basicRest multi .text (c :: rest) = prepend [c] (basicRest multi .text rest) := by
  have hreturn : c ≠ '\r' := by
    rintro rfl
    exact absurd h (by decide)
  simp [basicRest_text_cons, h, hquote, hslash, hreturn]

theorem basicRest_newline (rest : List Char) :
    basicRest true .text ('\n' :: rest) = prepend ['\n'] (basicRest true .text rest) := by
  simp [basicRest_text_cons]

theorem basicRest_letter (multi : Bool) {c d : Char} (h : escaped? d = some c)
    (rest : List Char) :
    basicRest multi .text ('\\' :: d :: rest) = prepend [c] (basicRest multi .text rest) := by
  simp [basicRest_text_cons, basicRest_escape_cons, h]

theorem escaped?_of_mem_shortEscapes : ∀ e ∈ shortEscapes, escaped? e.2 = some e.1 := by decide

theorem escaped?_quote : escaped? '"' = some '"' := by decide

theorem digit?_digitChar : ∀ n < 16, digit? 16 (Nat.digitChar n) = some n := by decide

theorem digit?_toUpper_digitChar : ∀ n < 16, digit? 16 (Nat.digitChar n).toUpper = some n := by
  decide

/-- An escape by number, of which the first two digits are zeros. -/
theorem basicRest_number (multi : Bool) {c a b : Char}
    (ha : digit? 16 a = some (c.toNat / 16)) (hb : digit? 16 b = some (c.toNat % 16))
    (rest : List Char) :
    basicRest multi .text ('\\' :: 'u' :: '0' :: '0' :: a :: b :: rest) =
      prepend [c] (basicRest multi .text rest) := by
  have hu : escaped? 'u' = none := by decide
  have hzero : digit? 16 '0' = some 0 := by decide
  have hvalue : c.toNat / 16 * 16 + c.toNat % 16 = c.toNat := by omega
  have hvalid : c.toNat.isValidChar := c.valid
  simp [basicRest_text_cons, basicRest_escape_cons, basicRest_number_cons, hu, hzero, ha, hb,
    hvalue, hvalid]

/-- Whatever stands for a character other than a quote reads as that character. -/
theorem basicRest_escape (multi : Bool) {c : Char} (hquote : c ≠ '"') (rest : List Char) :
    basicRest multi .text ((escapeOf? c).getD [c] ++ rest) =
      prepend [c] (basicRest multi .text rest) := by
  unfold escapeOf?
  cases hlookup : shortEscapes.lookup c with
  | some d =>
    obtain ⟨_, _, hmem, -⟩ := List.lookup_eq_some_iff.1 hlookup
    have hd : escaped? d = some c :=
      escaped?_of_mem_shortEscapes (c, d) (by rw [hmem]; simp)
    exact basicRest_letter multi hd rest
  | none =>
    by_cases htext : isText c = true
    · have hslash : c ≠ '\\' := by
        rintro rfl
        exact absurd hlookup (by decide)
      simpa [htext] using basicRest_of_isText multi htext hquote hslash rest
    · have hsmall : c.toNat / 16 < 16 := by
        simp only [isText, Bool.or_eq_true, Bool.and_eq_true, decide_eq_true_eq] at htext
        omega
      have := basicRest_number multi (digit?_digitChar _ hsmall)
        (digit?_toUpper_digitChar (c.toNat % 16) (by omega)) rest
      simpa [htext] using this

/-- What stands for a character other than a quote begins with text that is no quote. -/
theorem escape_eq_cons {c : Char} (hquote : c ≠ '"') :
    ∃ d tail, (escapeOf? c).getD [c] = d :: tail ∧ d ≠ '"' ∧ isText d = true := by
  unfold escapeOf?
  cases shortEscapes.lookup c with
  | some d => exact ⟨_, _, rfl, by decide, by decide⟩
  | none =>
    by_cases htext : isText c = true
    · exact ⟨c, [], by simp [htext], hquote, htext⟩
    · rw [if_neg htext]
      exact ⟨_, _, rfl, by decide, by decide⟩

/-! ## Basic strings on one line -/

theorem basicRest_escapeLine (cs rest : List Char) :
    basicRest false .text (escapeLine cs ++ '"' :: rest) = some (cs, rest) := by
  induction cs with
  | nil => simp [escapeLine, basicRest_text_cons]
  | cons c cs ih =>
    unfold escapeLine
    rw [List.append_assoc]
    by_cases hquote : c = '"'
    · subst hquote
      rw [if_pos rfl, List.cons_append, List.singleton_append,
        basicRest_letter false escaped?_quote, ih, prepend_some]
      rfl
    · rw [if_neg hquote, basicRest_escape false hquote, ih, prepend_some]
      rfl

/-! ## Runs of quotes

What both forms on several lines have in common: at a quote the reader looks for the end. -/

section

variable {read : Reader (List Char)} {quote : Char}
  (hread : ∀ rest, read (quote :: rest) =
    (closing? quote rest).or (prepend [quote] (read rest)))

include hread

/-- Up to two quotes before the three that end a text belong to it. -/
theorem read_run_closing {run : Nat} (hrun : run ≤ 2) {rest : List Char}
    (hrest : rest.head? ≠ some quote) :
    read (List.replicate run quote ++ (List.replicate 3 quote ++ rest)) =
      some (List.replicate run quote, rest) := by
  obtain rfl | rfl | rfl : run = 0 ∨ run = 1 ∨ run = 2 := by omega
  all_goals
    simp only [List.replicate, List.cons_append, List.nil_append]
    rw [hread]
    cases rest with
    | nil => simp [closing?]
    | cons c rest =>
      have hc : c ≠ quote := fun h => hrest (by rw [h]; rfl)
      simp [closing?, hc]

/-- Up to two quotes before another character are text. -/
theorem read_run {run : Nat} (hrun : run ≤ 2) {c : Char} (hc : c ≠ quote) (rest : List Char) :
    read (List.replicate run quote ++ c :: rest) =
      prepend (List.replicate run quote) (read (c :: rest)) := by
  have hone : read (quote :: c :: rest) = prepend [quote] (read (c :: rest)) := by
    rw [hread]
    cases rest <;> simp [closing?, hc]
  obtain rfl | rfl | rfl : run = 0 ∨ run = 1 ∨ run = 2 := by omega
  · cases h : read (c :: rest) <;> simp [prepend, h]
  · exact hone
  · show read (quote :: quote :: c :: rest) = _
    rw [hread, show closing? quote (quote :: c :: rest) = none by simp [closing?, hc], hone]
    cases read (c :: rest) <;> rfl

end

/-! ## Basic strings on several lines -/

theorem basicRest_quote (rest : List Char) :
    basicRest true .text ('"' :: rest) =
      (closing? '"' rest).or (prepend ['"'] (basicRest true .text rest)) := by
  cases h : closing? '"' rest <;> simp [basicRest_text_cons, h]

theorem basicRest_escapeLines (cs : List Char) {rest : List Char} (hrest : rest.head? ≠ some '"') :
    ∀ run ≤ 2, basicRest true .text
      (List.replicate run '"' ++ (escapeLines run cs ++ (List.replicate 3 '"' ++ rest))) =
        some (List.replicate run '"' ++ cs, rest) := by
  induction cs with
  | nil =>
    intro run hrun
    rw [List.append_nil]
    exact read_run_closing basicRest_quote hrun hrest
  | cons c cs ih =>
    intro run hrun
    have hzero := ih 0 (Nat.zero_le _)
    rw [List.replicate_zero, List.nil_append, List.nil_append] at hzero
    unfold escapeLines
    by_cases hquote : c = '"'
    · subst hquote
      rw [if_pos rfl]
      by_cases hfull : run = 2
      · -- a third quote is escaped, and the run begins anew
        subst hfull
        rw [if_pos rfl]
        rw [List.cons_append, List.cons_append, read_run basicRest_quote hrun (by decide),
          basicRest_letter true escaped?_quote, hzero]
        rfl
      · rw [if_neg hfull]
        have hsucc : List.replicate (run + 1) '"' = List.replicate run '"' ++ ['"'] :=
          List.replicate_succ'
        have := ih (run + 1) (by omega)
        rw [hsucc, List.append_assoc, List.append_assoc] at this
        exact this
    · rw [if_neg hquote, List.append_assoc]
      by_cases hnewline : c = '\n'
      · subst hnewline
        rw [if_pos rfl, List.singleton_append, read_run basicRest_quote hrun (by decide),
          basicRest_newline, hzero]
        rfl
      · rw [if_neg hnewline]
        obtain ⟨d, tail, hescape, hd, -⟩ := escape_eq_cons hquote
        have hread := basicRest_escape true hquote
          (escapeLines 0 cs ++ (List.replicate 3 '"' ++ rest))
        rw [hescape, List.cons_append] at hread ⊢
        rw [read_run basicRest_quote hrun hd, hread, hzero]
        rfl

/-! ## Literal strings -/

theorem literalRest_of_isText (multi : Bool) {c : Char}
    (h : isText c = true ∨ multi = true ∧ c = '\n') (hquote : c ≠ '\'') (rest : List Char) :
    literalRest multi (c :: rest) = prepend [c] (literalRest multi rest) := by
  have hreturn : c ≠ '\r' := by
    rintro rfl
    exact absurd h (by decide +revert)
  simp [literalRest, h, hquote, hreturn]

theorem literalRest_line {cs : List Char} (htext : ∀ c ∈ cs, isText c = true)
    (hquote : '\'' ∉ cs) (rest : List Char) :
    literalRest false (cs ++ '\'' :: rest) = some (cs, rest) := by
  induction cs with
  | nil => simp [literalRest]
  | cons c cs ih =>
    rw [List.mem_cons, not_or] at hquote
    rw [List.forall_mem_cons] at htext
    rw [List.cons_append, literalRest_of_isText false (.inl htext.1) (Ne.symm hquote.1),
      ih htext.2 hquote.2]
    rfl

/-- No run of quotes is longer than two, where a run of given length stands before the text. -/
def RunsFit (quote : Char) : Nat → List Char → Prop
  | run, [] => run ≤ 2
  | run, c :: rest => if c = quote then RunsFit quote (run + 1) rest else
      run ≤ 2 ∧ RunsFit quote 0 rest

theorem RunsFit.le {quote : Char} {cs : List Char} {run : Nat} (h : RunsFit quote run cs) :
    run ≤ 2 := by
  induction cs generalizing run with
  | nil => exact h
  | cons c cs ih =>
    unfold RunsFit at h
    split at h
    · have := ih h
      omega
    · exact h.1

/-- The longest run bounds every run. -/
theorem runsFit_of_longestRun_le {quote : Char} {cs : List Char} (h : longestRun quote cs ≤ 2) :
    RunsFit quote 0 cs := by
  have hgeneral : ∀ (cs : List Char) (best run : Nat), run ≤ best →
      (cs.foldl (fun longest d =>
        let run := if d = quote then longest.2 + 1 else 0
        (max longest.1 run, run)) (best, run)).1 ≤ 2 → best ≤ 2 ∧ RunsFit quote run cs := by
    intro cs
    induction cs with
    | nil => exact fun best run hle hbest => ⟨hbest, Nat.le_trans hle hbest⟩
    | cons c cs ih =>
      intro best run hle hbest
      rw [List.foldl_cons] at hbest
      unfold RunsFit
      split
      · rename_i hc
        simp only [hc, if_true] at hbest
        obtain ⟨hmax, hfit⟩ := ih _ _ (Nat.le_max_right _ _) hbest
        exact ⟨by omega, hfit⟩
      · rename_i hc
        simp only [hc, if_false] at hbest
        obtain ⟨hmax, hfit⟩ := ih _ _ (Nat.le_max_right _ _) hbest
        exact ⟨by omega, by omega, hfit⟩
  exact (hgeneral cs 0 0 (Nat.le_refl _) h).2

theorem literalRest_quote (rest : List Char) :
    literalRest true ('\'' :: rest) =
      (closing? '\'' rest).or (prepend ['\''] (literalRest true rest)) := by
  cases h : closing? '\'' rest <;> simp [literalRest, h]

theorem literalRest_lines {cs : List Char} (htext : ∀ c ∈ cs, isText c = true ∨ c = '\n')
    {rest : List Char} (hrest : rest.head? ≠ some '\'') :
    ∀ run, RunsFit '\'' run cs →
      literalRest true (List.replicate run '\'' ++ (cs ++ (List.replicate 3 '\'' ++ rest))) =
        some (List.replicate run '\'' ++ cs, rest) := by
  induction cs with
  | nil =>
    intro run hfit
    rw [List.append_nil]
    exact read_run_closing literalRest_quote hfit hrest
  | cons c cs ih =>
    intro run hfit
    have hrun := hfit.le
    rw [List.forall_mem_cons] at htext
    unfold RunsFit at hfit
    split at hfit
    · rename_i hquote
      subst hquote
      have hsucc : List.replicate (run + 1) '\'' = List.replicate run '\'' ++ ['\''] :=
        List.replicate_succ'
      have := ih htext.2 (run + 1) hfit
      rw [hsucc, List.append_assoc, List.append_assoc] at this
      exact this
    · rename_i hquote
      have hzero := ih htext.2 0 hfit.2
      rw [List.replicate_zero, List.nil_append, List.nil_append] at hzero
      rw [List.cons_append, read_run literalRest_quote hrun hquote,
        literalRest_of_isText true (htext.1.imp_right fun h => ⟨rfl, h⟩) hquote, hzero]
      rfl

/-! ## The four forms -/

theorem readQuoted_of_line {quote : Char} {cs : List Char}
    (h : ∀ rest, cs ≠ quote :: quote :: rest) :
    readQuoted (quote :: cs) = readQuotedLine (quote :: cs) := by
  unfold readQuoted
  split
  · rename_i rest heq
    cases heq
    exact absurd rfl (h rest)
  · rename_i rest heq
    cases heq
    exact absurd rfl (h rest)
  · rfl

theorem readQuotedLine_basicLine (cs rest : List Char) :
    readQuotedLine (basicLine cs ++ rest) = some (.ofList cs, rest) := by
  show (basicRest false .text (escapeLine cs ++ ['"'] ++ rest)).map _ = _
  rw [List.append_assoc, List.singleton_append, basicRest_escapeLine]
  rfl

theorem readQuotedLine_literalLine {cs : List Char} (htext : ∀ c ∈ cs, isText c = true)
    (hquote : '\'' ∉ cs) (rest : List Char) :
    readQuotedLine (literalLine cs ++ rest) = some (.ofList cs, rest) := by
  show (literalRest false (cs ++ ['\''] ++ rest)).map _ = _
  rw [List.append_assoc, List.singleton_append, literalRest_line htext hquote]
  rfl

/-- Only the empty text is written with a quote right behind the first one. -/
theorem escapeLine_eq_cons (c : Char) (cs : List Char) :
    ∃ d tail, escapeLine (c :: cs) = d :: tail ∧ d ≠ '"' := by
  unfold escapeLine
  split
  · exact ⟨_, _, rfl, by decide⟩
  · rename_i hquote
    obtain ⟨d, tail, hescape, hd, -⟩ := escape_eq_cons hquote
    exact ⟨d, tail ++ escapeLine cs, by rw [hescape]; rfl, hd⟩

theorem readQuoted_basicLine (cs : List Char) {rest : List Char} (hrest : rest.head? ≠ some '"') :
    readQuoted (basicLine cs ++ rest) = some (.ofList cs, rest) := by
  refine Eq.trans (readQuoted_of_line fun tail heq => ?_) (readQuotedLine_basicLine cs rest)
  cases cs with
  | nil =>
    -- the end of the empty text, and a quote behind it
    have hcons : '"' :: rest = '"' :: '"' :: tail := heq
    rw [List.cons_inj_right] at hcons
    exact hrest (by rw [hcons]; rfl)
  | cons c cs =>
    obtain ⟨d, t, hline, hd⟩ := escapeLine_eq_cons c cs
    change escapeLine (c :: cs) ++ ['"'] ++ rest = '"' :: '"' :: tail at heq
    rw [hline] at heq
    exact hd (List.cons.inj heq).1

theorem readQuoted_literalLine {cs : List Char} (htext : ∀ c ∈ cs, isText c = true)
    (hquote : '\'' ∉ cs) {rest : List Char} (hrest : rest.head? ≠ some '\'') :
    readQuoted (literalLine cs ++ rest) = some (.ofList cs, rest) := by
  refine Eq.trans (readQuoted_of_line fun tail heq => ?_)
    (readQuotedLine_literalLine htext hquote rest)
  cases cs with
  | nil =>
    have hcons : '\'' :: rest = '\'' :: '\'' :: tail := heq
    rw [List.cons_inj_right] at hcons
    exact hrest (by rw [hcons]; rfl)
  | cons c cs =>
    change c :: (cs ++ ['\''] ++ rest) = '\'' :: '\'' :: tail at heq
    obtain ⟨rfl, -⟩ := List.cons.inj heq
    exact hquote List.mem_cons_self

/-- The line end that is put before a text of several lines is left out again, and where none is put
the text does not begin with one. -/
theorem skipNewline_between {cs body : List Char}
    (hbody : ∀ d tail, body = d :: tail → isText d = true ∨ d = '\n' ∧ '\n' ∈ cs) :
    skipNewline ((if cs.contains '\n' then ['\n'] else []) ++ body) = body := by
  by_cases h : '\n' ∈ cs
  · simp [h, skipNewline, skipNewline?]
  · rw [if_neg (by simpa using h), List.nil_append]
    unfold skipNewline skipNewline?
    split
    · rename_i tail
      exact absurd (hbody '\n' tail rfl) (by simp [h, isText])
    · rename_i tail
      exact absurd (hbody '\r' _ rfl) (by simp [isText])
    · rfl

theorem escapeLines_starts {cs rest tail : List Char} {run : Nat} {d : Char}
    (h : escapeLines run cs ++ '"' :: rest = d :: tail) :
    isText d = true ∨ d = '\n' ∧ '\n' ∈ cs := by
  cases cs with
  | nil =>
    obtain ⟨rfl, -⟩ := List.cons.inj h
    exact .inl (by decide)
  | cons c cs =>
    unfold escapeLines at h
    split at h
    · split at h
      all_goals
        obtain ⟨rfl, -⟩ := List.cons.inj h
        exact .inl (by decide)
    · rename_i hquote
      split at h
      · rename_i hnewline
        obtain ⟨rfl, -⟩ := List.cons.inj h
        exact .inr ⟨hnewline, by rw [hnewline]; exact List.mem_cons_self⟩
      · obtain ⟨a, t, hescape, -, htext⟩ := escape_eq_cons hquote
        rw [hescape] at h
        obtain ⟨rfl, -⟩ := List.cons.inj h
        exact .inl htext

theorem readQuoted_basicLines (cs : List Char) {rest : List Char}
    (hrest : rest.head? ≠ some '"') :
    readQuoted (betweenThree '"' cs (escapeLines 0 cs) ++ rest) = some (.ofList cs, rest) := by
  have hbody : ∀ d tail, escapeLines 0 cs ++ (List.replicate 3 '"' ++ rest) = d :: tail →
      isText d = true ∨ d = '\n' ∧ '\n' ∈ cs :=
    fun d tail h => escapeLines_starts h
  show (basicRest true .text (skipNewline ((if cs.contains '\n' then ['\n'] else []) ++
    escapeLines 0 cs ++ List.replicate 3 '"' ++ rest))).map _ = _
  rw [List.append_assoc, List.append_assoc, skipNewline_between hbody]
  have := basicRest_escapeLines cs hrest 0 (Nat.zero_le _)
  rw [List.replicate_zero, List.nil_append, List.nil_append] at this
  rw [this]
  rfl

theorem readQuoted_literalLines {cs : List Char} (htext : ∀ c ∈ cs, isText c = true ∨ c = '\n')
    (hrun : longestRun '\'' cs ≤ 2) {rest : List Char} (hrest : rest.head? ≠ some '\'') :
    readQuoted (betweenThree '\'' cs cs ++ rest) = some (.ofList cs, rest) := by
  have hbody : ∀ d tail, cs ++ (List.replicate 3 '\'' ++ rest) = d :: tail →
      isText d = true ∨ d = '\n' ∧ '\n' ∈ cs := by
    intro d tail h
    cases cs with
    | nil =>
      obtain ⟨rfl, -⟩ := List.cons.inj h
      exact .inl (by decide)
    | cons c cs =>
      obtain ⟨rfl, -⟩ := List.cons.inj h
      refine (htext c List.mem_cons_self).imp_right fun hnewline => ⟨hnewline, ?_⟩
      rw [hnewline]
      exact List.mem_cons_self
  show (literalRest true (skipNewline ((if cs.contains '\n' then ['\n'] else []) ++
    cs ++ List.replicate 3 '\'' ++ rest))).map _ = _
  rw [List.append_assoc, List.append_assoc, skipNewline_between hbody]
  have := literalRest_lines htext hrest 0 (runsFit_of_longestRun_le hrun)
  rw [List.replicate_zero, List.nil_append, List.nil_append] at this
  rw [this]
  rfl

/-! ## The choice of a form -/

theorem isText_of_hasControl_eq_false {cs : List Char} (h : hasControl cs = false) :
    ∀ c ∈ cs, isText c = true ∨ c = '\n' := by
  intro c hc
  have := List.any_eq_false.1 h c hc
  by_contra hno
  rw [not_or] at hno
  exact this (by simp [hno.1, hno.2])

/-- A text that fits between quotes on one line. -/
theorem fits_of_fitsLine {quote : Char} {cs : List Char} (h : fitsLine quote cs = true) :
    (∀ c ∈ cs, isText c = true) ∧ quote ∉ cs := by
  simp only [fitsLine, Bool.and_eq_true, Bool.not_eq_true', List.contains_eq_mem,
    decide_eq_false_iff_not] at h
  obtain ⟨⟨hcontrol, hnewline⟩, hquote⟩ := h
  refine ⟨fun c hc => (isText_of_hasControl_eq_false hcontrol c hc).resolve_right ?_, hquote⟩
  rintro rfl
  exact hnewline hc

/-- A string reads back as it was written, whatever follows it but a quote. -/
theorem readQuoted_writeQuoted (s : String) {rest : List Char} (hbasic : rest.head? ≠ some '"')
    (hliteral : rest.head? ≠ some '\'') :
    readQuoted ((writeQuoted s).toList ++ rest) = some (s, rest) := by
  unfold writeQuoted
  rw [String.toList_ofList]
  have hs : String.ofList s.toList = s := String.ofList_toList
  split
  · rw [readQuoted_basicLine _ hbasic, hs]
  split
  · rename_i hfits
    obtain ⟨htext, hquote⟩ := fits_of_fitsLine hfits
    rw [readQuoted_literalLine htext hquote hliteral, hs]
  split
  · rw [readQuoted_basicLines _ hbasic, hs]
  split
  · rename_i hfits
    have htext := isText_of_hasControl_eq_false (by simpa using hfits.1)
    rw [readQuoted_literalLines htext hfits.2 hliteral, hs]
  split
  · rw [readQuoted_basicLines _ hbasic, hs]
  · rw [readQuoted_basicLine _ hbasic, hs]

theorem writeQuoted_eq_cons (s : String) :
    ∃ quote tail, (writeQuoted s).toList = quote :: tail ∧ (quote = '"' ∨ quote = '\'') := by
  unfold writeQuoted
  rw [String.toList_ofList]
  split
  · exact ⟨_, _, rfl, .inl rfl⟩
  split
  · exact ⟨_, _, rfl, .inr rfl⟩
  split
  · exact ⟨_, _, rfl, .inl rfl⟩
  split
  · exact ⟨_, _, rfl, .inr rfl⟩
  split <;> exact ⟨_, _, rfl, .inl rfl⟩

end ScopedRetrieval.Toml
