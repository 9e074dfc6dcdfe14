/-
What a scan reads is what the arguments spell that it goes through: it comes to its end, or to a
command, and settles exactly if they spell something that fits, with no parameter too often and no
value missing (`scan_settles_iff`). Each of the two directions goes from what one step of a scan
reads to all of it.
-/
import ScopedRetrieval.Proofs.CommandLine.Spelling

namespace ScopedRetrieval.CommandLine

theorem bind_eq_ok {ε α β : Type} {x : Except ε α} {f : α → Except ε β} {b : β} :
    x >>= f = .ok b ↔ ∃ a, x = .ok a ∧ f a = .ok b := by
  cases x <;> simp [bind, Except.bind]

theorem Parameter.kind_eq_notice_iff {p : Parameter} :
    p.kind = .notice ↔ p = .help ∨ p = .version := by
  cases p <;> decide

theorem Parameter.not_notice_of_takesValue {p : Parameter} (h : p.takesValue = true) :
    p.kind ≠ .notice := by
  intro hkind
  simp [takesValue, hkind] at h

theorem Parameter.not_notice_of_isSingle {p : Parameter} (h : p.isSingle = true) :
    p.kind ≠ .notice := by
  intro hkind
  simp [isSingle, hkind] at h

/-! ## What is given -/

/-- What may be given together at one level: nothing more often than it may be, no path that is
empty, and nothing that asks for a text only. -/
structure Given.Fits (g : Given) : Prop where
  once : ∀ p : Parameter, p.isSingle → (g.values p).length ≤ 1
  filled : ∀ o ∈ g, o.parameter.kind = .path → o.value ≠ ""
  noNotice : ∀ o ∈ g, o.parameter.kind ≠ .notice

namespace Given

variable {g g' : Given} {p q : Parameter} {value : String}

theorem values_append (g g' : Given) (p : Parameter) :
    values (g ++ g') p = g.values p ++ g'.values p := by
  simp [values]

theorem values_eq_nil (h : ∀ o ∈ g, o.parameter ≠ p) : g.values p = [] := by
  simpa [values] using h

theorem has_eq_false_iff : g.has p = false ↔ g.values p = [] := by
  simp [has, count]

theorem has_iff : g.has p = true ↔ g.values p ≠ [] := by
  simp [has, count]

theorem fits_nil : Fits [] := by
  constructor <;> simp [values]

theorem Fits.left (h : Fits (g ++ g')) : g.Fits where
  once p hp := by
    have hlength := h.once p hp
    rw [values_append, List.length_append] at hlength
    exact Nat.le_of_add_right_le hlength
  filled o ho := h.filled o (List.mem_append_left _ ho)
  noNotice o ho := h.noNotice o (List.mem_append_left _ ho)

/-- What one more parameter needs. -/
theorem fits_concat_iff : Fits (g ++ [⟨p, value⟩]) ↔
    g.Fits ∧ (p.isSingle → g.values p = []) ∧ (p.kind = .path → value ≠ "") ∧
      p.kind ≠ .notice := by
  constructor
  · intro h
    refine ⟨h.left, fun hp => ?_, h.filled ⟨p, value⟩ (by simp), h.noNotice ⟨p, value⟩ (by simp)⟩
    have hlength := h.once p hp
    rw [values_append, List.length_append] at hlength
    exact List.eq_nil_of_length_eq_zero (by simpa [values] using hlength)
  · rintro ⟨hg, hsingle, hfilled, hnotice⟩
    refine ⟨fun q hq => ?_, ?_, ?_⟩
    · rw [values_append, List.length_append]
      by_cases hpq : p = q
      · subst hpq
        rw [hsingle hq]
        simp [values]
      · simpa [values, hpq] using hg.once q hq
    · exact List.forall_mem_append.2 ⟨hg.filled, by simpa using hfilled⟩
    · exact List.forall_mem_append.2 ⟨hg.noNotice, by simpa using hnotice⟩

theorem add_eq_ok_iff (hg : g.Fits) (hp : p.kind ≠ .notice) :
    g.add p value = .ok g' ↔ g' = g ++ [⟨p, value⟩] ∧ g'.Fits := by
  unfold add
  split
  · rename_i hagain
    rw [Bool.and_eq_true, has_iff] at hagain
    constructor
    · rintro ⟨⟩
    · rintro ⟨rfl, hfits⟩
      exact absurd ((fits_concat_iff.1 hfits).2.1 hagain.1) hagain.2
  · rename_i honce
    rw [Bool.and_eq_true, has_iff, not_and_not_right] at honce
    split
    · rename_i hempty
      constructor
      · rintro ⟨⟩
      · rintro ⟨rfl, hfits⟩
        exact absurd (String.isEmpty_iff.1 hempty.2) ((fits_concat_iff.1 hfits).2.2.1 hempty.1)
    · rename_i hfilled
      constructor
      · rintro ⟨⟩
        refine ⟨rfl, fits_concat_iff.2 ⟨hg, honce, fun hpath hvalue => ?_, hp⟩⟩
        exact hfilled ⟨hpath, String.isEmpty_iff.2 hvalue⟩
      · rintro ⟨rfl, -⟩
        rfl

end Given

/-! ## The state of a scan -/

namespace Scan

variable {s s' : Scan} {g g' : Given} {p : Parameter} {value text : String}
  {next : Option Parameter}

/-- What has been read, checked or not. -/
def reading (s : Scan) : Given :=
  match s.pending with
  | some (p, some value) => s.given ++ [⟨p, value⟩]
  | _ => s.given

/-- What is checked fits, and what is pending asks for no text. -/
structure Sound (s : Scan) : Prop where
  given : s.given.Fits
  pending : ∀ p value, s.pending = some (p, value) → p.kind ≠ .notice

theorem sound_start : Sound {} := ⟨Given.fits_nil, by simp⟩

/-- A state in which `g` has been read after what had been, and the value of `next` is to come. -/
structure Grows (s : Scan) (g : Given) (next : Option Parameter) (s' : Scan) : Prop where
  reading : s'.reading = s.reading ++ g
  awaits : s'.awaits? = next
  sound : s'.Sound

theorem Grows.refl (hs : s.Sound) : s.Grows [] s.awaits? s :=
  ⟨(List.append_nil _).symm, rfl, hs⟩

theorem Grows.trans {s'' : Scan} {next' : Option Parameter} (h : s.Grows g next s')
    (h' : s'.Grows g' next' s'') : s.Grows (g ++ g') next' s'' where
  reading := by rw [h'.reading, h.reading, List.append_assoc]
  awaits := h'.awaits
  sound := h'.sound

/-- A scan settles with what it has read, if that fits and no value has to come. -/
theorem settle_eq_ok_iff (hs : s.Sound) :
    s.settle = .ok g ↔ s.awaits? = none ∧ s.reading = g ∧ g.Fits := by
  unfold settle reading awaits?
  split
  · rename_i hpending
    simp only [hpending, Except.ok.injEq, true_and]
    exact ⟨fun h => ⟨h, h ▸ hs.given⟩, And.left⟩
  · rename_i hpending
    simp [hpending]
  · rename_i p value hpending
    simp only [hpending, true_and]
    rw [Given.add_eq_ok_iff hs.given (hs.pending _ _ hpending), eq_comm]

theorem awaits_of_settle (h : s.settle = .ok g) : s.awaits? = none := by
  unfold settle at h
  unfold awaits?
  split at h <;> simp_all

theorem note_eq_ok_iff (hs : s.Sound) (hp : p.kind ≠ .notice) :
    s.note p value = .ok s' ↔ s.awaits? = none ∧ Given.Fits (s.reading ++ [⟨p, value⟩]) ∧
      s' = { given := s.reading ++ [⟨p, value⟩] } := by
  unfold note
  simp only [bind_eq_ok, settle_eq_ok_iff hs]
  constructor
  · rintro ⟨g, ⟨hidle, rfl, hfits⟩, g', hadd, ⟨⟩⟩
    obtain ⟨rfl, hfits'⟩ := (Given.add_eq_ok_iff hfits hp).1 hadd
    exact ⟨hidle, hfits', rfl⟩
  · rintro ⟨hidle, hfits, rfl⟩
    exact ⟨_, ⟨hidle, rfl, hfits.left⟩, _, (Given.add_eq_ok_iff hfits.left hp).2 ⟨rfl, hfits⟩, rfl⟩

theorem postpone_eq_ok_iff (hs : s.Sound) {value : Option String} :
    s.postpone p value = .ok s' ↔ s.awaits? = none ∧ s.reading.Fits ∧
      s' = { given := s.reading, pending := some (p, value) } := by
  unfold postpone
  simp only [bind_eq_ok, settle_eq_ok_iff hs]
  constructor
  · rintro ⟨g, ⟨hidle, rfl, hfits⟩, ⟨⟩⟩
    exact ⟨hidle, hfits, rfl⟩
  · rintro ⟨hidle, hfits, rfl⟩
    exact ⟨_, ⟨hidle, rfl, hfits⟩, rfl⟩

/-- Parameters that ask for a text end the reading. -/
theorem raise_eq_ok_iff (hs : s.Sound) :
    s.raise p = .ok s' ↔ s.awaits? = none ∧ Given.Fits (s.reading ++ [⟨p, ""⟩]) ∧
      s' = { given := s.reading ++ [⟨p, ""⟩] } := by
  have hnotice : p.kind = .notice → ¬Given.Fits (s.reading ++ [⟨p, ""⟩]) := fun hkind hfits =>
    (Given.fits_concat_iff.1 hfits).2.2.2 hkind
  unfold raise
  split
  · simp only [bind_eq_ok]
    constructor
    · rintro ⟨_, -, ⟨⟩⟩
    · exact fun h => absurd h.2.1 (hnotice rfl)
  · simp only [bind_eq_ok]
    constructor
    · rintro ⟨_, -, ⟨⟩⟩
    · exact fun h => absurd h.2.1 (hnotice rfl)
  · rename_i hhelp hversion
    refine note_eq_ok_iff hs fun hkind => ?_
    rcases Parameter.kind_eq_notice_iff.1 hkind with rfl | rfl
    · exact hhelp rfl
    · exact hversion rfl

theorem grows_of_noted (h : Given.Fits (s.reading ++ g)) :
    s.Grows g none { given := s.reading ++ g } :=
  ⟨rfl, rfl, h, by simp⟩

theorem grows_of_postponed (h : s.reading.Fits) (hp : p.kind ≠ .notice) (value : Option String) :
    s.Grows (value.toList.map (⟨p, ·⟩)) (if value.isNone then some p else none)
      { given := s.reading, pending := some (p, value) } := by
  have hsound : Sound { given := s.reading, pending := some (p, value) } :=
    ⟨h, fun _ _ heq => by cases heq; exact hp⟩
  cases value with
  | none => exact ⟨(List.append_nil _).symm, rfl, hsound⟩
  | some value => exact ⟨rfl, rfl, hsound⟩

/-- The value that has to come. -/
theorem grows_of_awaits (hs : s.Sound) (h : s.awaits? = some p) (text : String) :
    s.Grows [⟨p, text⟩] none { s with pending := some (p, some text) } := by
  have hpending : s.pending = some (p, none) := by
    unfold awaits? at h
    split at h
    · rename_i q hpending
      rw [hpending, Option.some.inj h]
    · cases h
  refine ⟨by simp [reading, hpending], rfl, hs.given, fun _ _ heq => ?_⟩
  cases heq
  exact hs.pending _ _ hpending

theorem mentions_eq_false (hidle : s.awaits? = none) (h : s.reading.values p = []) :
    s.mentions p = false := by
  rw [mentions, Bool.or_eq_false_iff, Given.has_eq_false_iff]
  cases hpending : s.pending with
  | none => simpa [reading, hpending] using h
  | some pending =>
    obtain ⟨q, value⟩ := pending
    cases value with
    | none => simp [awaits?, hpending] at hidle
    | some value =>
      simp only [reading, hpending, Given.values_append, List.append_eq_nil_iff] at h
      simpa [Given.values] using h

end Scan

/-! ## What one argument gives -/

namespace Level

/-- A level at which operands are given once and commands are words that are nothing else. -/
structure WellFormed (l : Level) : Prop where
  single : ∀ p, l.operand = some p → p.isSingle
  word : ∀ name ∈ l.commands, IsWord name
  noOperand : l.commands ≠ [] → l.operand = none

variable {l : Level} {s s' : Scan} {g : Given} {next : Option Parameter} {text : String}

theorem WellFormed.not_piece (hl : l.WellFormed) {name : String} (hname : name ∈ l.commands) :
    ¬l.Piece name g next := by
  rw [piece_iff, Argument.ofString_of_isWord (hl.word name hname)]
  rintro ⟨p, hp, -⟩
  rw [hl.noOperand (List.ne_nil_of_mem hname)] at hp
  cases hp

theorem readLong_eq_ok {name : String} {value : Option String} (hs : s.Sound)
    (h : l.readLong s name value = .ok s') :
    s.awaits? = none ∧ ∃ g next, l.Gives text (.long name value) g next ∧ s.Grows g next s' := by
  unfold readLong at h
  split at h
  · cases h
  rename_i p hp
  split at h
  · rename_i value hv
    obtain ⟨hidle, hfits, rfl⟩ :=
      (Scan.note_eq_ok_iff hs (Parameter.not_notice_of_takesValue hv)).1 h
    exact ⟨hidle, _, _, ⟨p, hp, by simp [hv]⟩, Scan.grows_of_noted hfits⟩
  · rename_i hv
    obtain ⟨hidle, hfits, rfl⟩ := (Scan.postpone_eq_ok_iff hs).1 h
    exact ⟨hidle, _, _, ⟨p, hp, by simp [hv]⟩,
      Scan.grows_of_postponed hfits (Parameter.not_notice_of_takesValue hv) none⟩
  · cases h
  · rename_i hv
    obtain ⟨hidle, hfits, rfl⟩ := (Scan.raise_eq_ok_iff hs).1 h
    exact ⟨hidle, _, _, ⟨p, hp, by simp [hv]⟩, Scan.grows_of_noted hfits⟩

theorem exists_readLong {name : String} {value : Option String} (hs : s.Sound)
    (hidle : s.awaits? = none) (h : l.Gives text (.long name value) g next)
    (hfits : Given.Fits (s.reading ++ g)) :
    ∃ t, l.readLong s name value = .ok t ∧ s.Grows g next t := by
  obtain ⟨p, hp, hgives⟩ := h
  unfold readLong
  rw [hp]
  cases hv : p.takesValue <;> cases value <;> simp only [hv] at hgives ⊢
  · obtain ⟨rfl, rfl⟩ := hgives
    exact ⟨_, (Scan.raise_eq_ok_iff hs).2 ⟨hidle, hfits, rfl⟩, Scan.grows_of_noted hfits⟩
  · obtain ⟨rfl, rfl⟩ := hgives
    exact ⟨_, (Scan.postpone_eq_ok_iff hs).2 ⟨hidle, hfits.left, rfl⟩,
      Scan.grows_of_postponed hfits.left (Parameter.not_notice_of_takesValue hv) none⟩
  · obtain ⟨rfl, rfl⟩ := hgives
    exact ⟨_, (Scan.note_eq_ok_iff hs (Parameter.not_notice_of_takesValue hv)).2
      ⟨hidle, hfits, rfl⟩, Scan.grows_of_noted hfits⟩

/-- A short name that takes a value takes what stands behind it, or the next argument. -/
theorem readCluster_of_takesValue {c : Char} {p : Parameter} (hp : l.short? c = some p)
    (hv : p.takesValue = true) (s : Scan) (rest : List Char) :
    (valueBehind p rest = ([], some p) ∧ l.readCluster s (c :: rest) = s.postpone p none) ∨
      ∃ value, valueBehind p rest = ([⟨p, value⟩], none) ∧
        l.readCluster s (c :: rest) = s.note p value := by
  cases rest with
  | nil => exact .inl ⟨rfl, by simp [readCluster, hp, hv]⟩
  | cons d value =>
    by_cases hd : d = '='
    · exact .inr ⟨.ofList value, by simp [valueBehind, hd], by simp [readCluster, hp, hv, hd]⟩
    · exact .inr ⟨.ofList (d :: value), by simp [valueBehind, hd],
        by simp [readCluster, hp, hv, hd]⟩

theorem readCluster_eq_ok {letters : List Char} (hs : s.Sound)
    (hidle : letters = [] → s.awaits? = none) (h : l.readCluster s letters = .ok s') :
    s.awaits? = none ∧ ∃ g next, l.Letters letters g next ∧ s.Grows g next s' := by
  induction letters generalizing s with
  | nil =>
    cases h
    exact ⟨hidle rfl, [], none, .nil, hidle rfl ▸ .refl hs⟩
  | cons c rest ih =>
    cases hp : l.short? c with
    | none => simp [readCluster, hp] at h
    | some p =>
      cases hv : p.takesValue with
      | true =>
        have hnotice := Parameter.not_notice_of_takesValue hv
        rcases readCluster_of_takesValue hp hv s rest with ⟨hvalue, hread⟩ | ⟨value, hvalue, hread⟩
        · obtain ⟨hidle, hfits, rfl⟩ := (Scan.postpone_eq_ok_iff hs).1 (hread ▸ h)
          exact ⟨hidle, _, _, letters_cons.2 ⟨p, hp, .inr ⟨hv, hvalue⟩⟩,
            Scan.grows_of_postponed hfits hnotice none⟩
        · obtain ⟨hidle, hfits, rfl⟩ := (Scan.note_eq_ok_iff hs hnotice).1 (hread ▸ h)
          exact ⟨hidle, _, _, letters_cons.2 ⟨p, hp, .inr ⟨hv, hvalue⟩⟩,
            Scan.grows_of_noted hfits⟩
      | false =>
        simp only [readCluster, hp, hv, Bool.false_eq_true, if_false] at h
        obtain ⟨t, hraise, h⟩ := bind_eq_ok.1 h
        obtain ⟨hidle, hfits, rfl⟩ := (Scan.raise_eq_ok_iff hs).1 hraise
        have hflag := Scan.grows_of_noted hfits
        obtain ⟨-, g, next, hletters, hgrows⟩ := ih hflag.sound (fun _ => hflag.awaits) h
        exact ⟨hidle, _, next, letters_cons.2 ⟨p, hp, .inl ⟨hv, g, rfl, hletters⟩⟩,
          hflag.trans hgrows⟩

theorem exists_readCluster {letters : List Char} (hs : s.Sound) (hidle : s.awaits? = none)
    (h : l.Letters letters g next) (hfits : Given.Fits (s.reading ++ g)) :
    ∃ t, l.readCluster s letters = .ok t ∧ s.Grows g next t := by
  induction letters generalizing s g with
  | nil =>
    cases h
    exact ⟨s, rfl, hidle ▸ .refl hs⟩
  | cons c rest ih =>
    obtain ⟨p, hp, ⟨hv, g, rfl, hrest⟩ | ⟨hv, hvalue⟩⟩ := letters_cons.1 h
    · rw [List.append_cons] at hfits
      have hflag := Scan.grows_of_noted hfits.left
      obtain ⟨t, hread, hgrows⟩ := ih hflag.sound hflag.awaits hrest hfits
      refine ⟨t, ?_, hflag.trans hgrows⟩
      simp only [readCluster, hp, hv, Bool.false_eq_true, if_false]
      exact bind_eq_ok.2 ⟨_, (Scan.raise_eq_ok_iff hs).2 ⟨hidle, hfits.left, rfl⟩, hread⟩
    · have hnotice := Parameter.not_notice_of_takesValue hv
      rcases readCluster_of_takesValue hp hv s rest with ⟨hgiven, hread⟩ | ⟨value, hgiven, hread⟩
      · cases hgiven.symm.trans hvalue
        exact ⟨_, hread.trans ((Scan.postpone_eq_ok_iff hs).2 ⟨hidle, hfits.left, rfl⟩),
          Scan.grows_of_postponed hfits.left hnotice none⟩
      · cases hgiven.symm.trans hvalue
        exact ⟨_, hread.trans ((Scan.note_eq_ok_iff hs hnotice).2 ⟨hidle, hfits, rfl⟩),
          Scan.grows_of_noted hfits⟩

theorem readOperand_eq_ok {trailing : Bool} (hl : l.WellFormed) (hs : s.Sound)
    (h : l.readOperand trailing s text = .ok s') :
    s.awaits? = none ∧ ∃ p, l.operand = some p ∧ s.Grows [⟨p, text⟩] none s' := by
  unfold readOperand at h
  split at h
  · cases h
  rename_i p hp
  split at h
  · cases h
  obtain ⟨hidle, hfits, rfl⟩ := (Scan.postpone_eq_ok_iff hs).1 h
  have hnotice := Parameter.not_notice_of_isSingle (hl.single p hp)
  exact ⟨hidle, p, hp, Scan.grows_of_postponed hfits hnotice (some text)⟩

theorem exists_readOperand (hl : l.WellFormed) (hs : s.Sound) (hidle : s.awaits? = none)
    {p : Parameter} (hp : l.operand = some p) (hfits : Given.Fits (s.reading ++ [⟨p, text⟩]))
    (trailing : Bool) :
    ∃ t, l.readOperand trailing s text = .ok t ∧ s.Grows [⟨p, text⟩] none t := by
  obtain ⟨hreading, hsingle, -, hnotice⟩ := Given.fits_concat_iff.1 hfits
  have hnew := Scan.mentions_eq_false hidle (hsingle (hl.single p hp))
  unfold readOperand
  rw [hp]
  simp only [hnew, Bool.false_eq_true, if_false]
  exact ⟨_, (Scan.postpone_eq_ok_iff hs).2 ⟨hidle, hreading, rfl⟩,
    Scan.grows_of_postponed hreading hnotice (some text)⟩

/-! ## What is behind the mark -/

/-- Behind the mark all is operands. -/
theorem operands_of_scan {arguments : List String} {stop : Option (String × List String)}
    (hl : l.WellFormed) (hs : s.Sound) (h : l.scan true s arguments = .ok (s', stop))
    (hdone : s'.awaits? = none) :
    stop = none ∧ s.awaits? = none ∧ ∃ operands : Given, arguments = operands.map (·.value) ∧
      (∀ o ∈ operands, l.operand = some o.parameter) ∧ s.Grows operands none s' := by
  induction arguments generalizing s with
  | nil =>
    cases h
    exact ⟨rfl, hdone, [], rfl, by simp, hdone ▸ .refl hs⟩
  | cons text rest ih =>
    obtain ⟨t, hoperand, h⟩ := bind_eq_ok.1 h
    obtain ⟨hidle, p, hp, hgrows⟩ := readOperand_eq_ok hl hs hoperand
    obtain ⟨hstop, -, operands, rfl, hall, hrest⟩ := ih hgrows.sound h
    exact ⟨hstop, hidle, ⟨p, text⟩ :: operands, rfl, List.forall_mem_cons.2 ⟨hp, hall⟩,
      hgrows.trans hrest⟩

theorem exists_scan_operands (hl : l.WellFormed) (hs : s.Sound) (hidle : s.awaits? = none)
    {operands : Given} (hall : ∀ o ∈ operands, l.operand = some o.parameter)
    (hfits : Given.Fits (s.reading ++ operands)) :
    ∃ t, l.scan true s (operands.map (·.value)) = .ok (t, none) ∧ s.Grows operands none t := by
  induction operands generalizing s with
  | nil => exact ⟨s, rfl, hidle ▸ .refl hs⟩
  | cons o operands ih =>
    rw [List.forall_mem_cons] at hall
    rw [List.append_cons] at hfits
    obtain ⟨t, hread, hgrows⟩ := exists_readOperand hl hs hidle hall.1 hfits.left true
    rw [← hgrows.reading] at hfits
    obtain ⟨t', hscan, hrest⟩ := ih hgrows.sound hgrows.awaits hall.2 hfits
    exact ⟨t', bind_eq_ok.2 ⟨t, hread, hscan⟩, hgrows.trans hrest⟩

/-! ## All arguments -/

/-- Arguments that are read to their end, or to a command. -/
def Reads (l : Level) (next : Option Parameter) (arguments : List String) (g : Given) :
    Option (String × List String) → Prop
  | none => l.SpellsAll next arguments g
  | some (name, rest) =>
    name ∈ l.commands ∧ ∃ front, arguments = front ++ name :: rest ∧ l.Spells next front g

section
variable {g g' : Given} {next : Option Parameter} {text : String} {rest : List String}
  {stop : Option (String × List String)}

theorem SpellsAll.value {p : Parameter} (hw : IsWord text) (h : l.SpellsAll none rest g) :
    l.SpellsAll (some p) (text :: rest) (⟨p, text⟩ :: g) := by
  cases h with
  | unmarked h => exact .unmarked (.value hw h)
  | marked operands h hall => exact .marked operands (.value hw h) hall

theorem SpellsAll.piece (hp : l.Piece text g next) (h : l.SpellsAll next rest g') :
    l.SpellsAll none (text :: rest) (g ++ g') := by
  cases h with
  | unmarked h => exact .unmarked (.piece hp h)
  | marked operands h hall =>
    rw [← List.append_assoc]
    exact .marked operands (.piece hp h) hall

theorem Reads.value {p : Parameter} (hw : IsWord text) (h : l.Reads none rest g stop) :
    l.Reads (some p) (text :: rest) (⟨p, text⟩ :: g) stop := by
  cases stop with
  | none => exact SpellsAll.value hw h
  | some _ =>
    obtain ⟨hname, front, rfl, h⟩ := h
    exact ⟨hname, text :: front, rfl, .value hw h⟩

theorem Reads.piece (hp : l.Piece text g next) (h : l.Reads next rest g' stop) :
    l.Reads none (text :: rest) (g ++ g') stop := by
  cases stop with
  | none => exact SpellsAll.piece hp h
  | some _ =>
    obtain ⟨hname, front, rfl, h⟩ := h
    exact ⟨hname, text :: front, rfl, .piece hp h⟩

end

/-- An argument that is no command is read by its looks. -/
theorem scan_cons (hcommand : s.awaits? = none → text ∉ l.commands) (rest : List String) :
    l.scan false s (text :: rest) =
      match Argument.ofString text with
      | .separator => l.scan true s rest
      | .long name value => l.readLong s name value >>= (l.scan false · rest)
      | .cluster letters => l.readCluster s letters >>= (l.scan false · rest)
      | .word => l.readWord s text >>= (l.scan false · rest) := by
  have hgoes : ¬(s.awaits?.isNone && l.commands.contains text) = true := by
    rw [Bool.and_eq_true, Option.isNone_iff_eq_none, List.contains_iff_mem]
    exact fun h => hcommand h.1 h.2
  rw [scan, if_neg hgoes]
  rfl

theorem scan_piece (hl : l.WellFormed) (hs : s.Sound) (hidle : s.awaits? = none)
    (hpiece : l.Piece text g next) (hfits : Given.Fits (s.reading ++ g)) (rest : List String) :
    ∃ t, l.scan false s (text :: rest) = l.scan false t rest ∧ s.Grows g next t := by
  rw [scan_cons fun _ hcommand => hl.not_piece hcommand hpiece]
  rw [piece_iff] at hpiece
  cases hlook : Argument.ofString text with
  | separator =>
    rw [hlook] at hpiece
    exact hpiece.elim
  | long name value =>
    rw [hlook] at hpiece
    obtain ⟨t, hread, hgrows⟩ := exists_readLong hs hidle hpiece hfits
    exact ⟨t, by simp only [hread]; rfl, hgrows⟩
  | cluster letters =>
    rw [hlook] at hpiece
    obtain ⟨t, hread, hgrows⟩ := exists_readCluster hs hidle hpiece hfits
    exact ⟨t, by simp only [hread]; rfl, hgrows⟩
  | word =>
    rw [hlook] at hpiece
    obtain ⟨p, hp, rfl, rfl⟩ := hpiece
    obtain ⟨t, hread, hgrows⟩ := exists_readOperand hl hs hidle hp hfits false
    exact ⟨t, by simp only [readWord, hidle, hread]; rfl, hgrows⟩

/-- A value that has to come, even if a command has its name. -/
theorem scan_value {p : Parameter} (hs : s.Sound) (hawaits : s.awaits? = some p)
    (hw : IsWord text) (rest : List String) :
    ∃ t, l.scan false s (text :: rest) = l.scan false t rest ∧ s.Grows [⟨p, text⟩] none t := by
  refine ⟨_, ?_, Scan.grows_of_awaits hs hawaits text⟩
  rw [scan_cons fun hidle => by rw [hawaits] at hidle; cases hidle]
  simp only [Argument.ofString_of_isWord hw, readWord, hawaits]
  rfl

theorem scan_command (hidle : s.awaits? = none) (hcommand : text ∈ l.commands)
    (rest : List String) : l.scan false s (text :: rest) = .ok (s, some (text, rest)) := by
  have hstops : (s.awaits?.isNone && l.commands.contains text) = true := by
    rw [Bool.and_eq_true, Option.isNone_iff_eq_none, List.contains_iff_mem]
    exact ⟨hidle, hcommand⟩
  rw [scan, if_pos hstops]
  rfl

/-- A scan goes through what is spelled. -/
theorem scan_spells (hl : l.WellFormed) {front : List String} (h : l.Spells next front g)
    (hs : s.Sound) (hawaits : s.awaits? = next) (hfits : Given.Fits (s.reading ++ g))
    (rest : List String) :
    ∃ t, l.scan false s (front ++ rest) = l.scan false t rest ∧ s.Grows g none t := by
  induction h generalizing s with
  | nil => exact ⟨s, rfl, hawaits ▸ .refl hs⟩
  | value hw _ ih =>
    rw [List.append_cons] at hfits
    obtain ⟨t, hscan, hgrows⟩ := scan_value hs hawaits hw _
    rw [← hgrows.reading] at hfits
    obtain ⟨t', hscan', hgrows'⟩ := ih hgrows.sound hgrows.awaits hfits
    exact ⟨t', hscan.trans hscan', hgrows.trans hgrows'⟩
  | piece hp _ ih =>
    rw [← List.append_assoc] at hfits
    obtain ⟨t, hscan, hgrows⟩ := scan_piece hl hs hawaits hp hfits.left _
    rw [← hgrows.reading] at hfits
    obtain ⟨t', hscan', hgrows'⟩ := ih hgrows.sound hgrows.awaits hfits
    exact ⟨t', hscan.trans hscan', hgrows.trans hgrows'⟩

/-- A scan that ends has gone through what is spelled. -/
theorem reads_of_scan (hl : l.WellFormed) {arguments : List String}
    {stop : Option (String × List String)} (hs : s.Sound)
    (h : l.scan false s arguments = .ok (s', stop)) (hdone : s'.awaits? = none) :
    ∃ g, l.Reads s.awaits? arguments g stop ∧ s.Grows g none s' := by
  induction arguments generalizing s with
  | nil =>
    cases h
    exact ⟨[], hdone ▸ .unmarked .nil, hdone ▸ .refl hs⟩
  | cons text rest ih =>
    -- an argument that is read where no value has to come is a piece
    have hpiece : ∀ {t g next}, s.awaits? = none → l.Gives text (.ofString text) g next →
        s.Grows g next t → l.scan false t rest = .ok (s', stop) →
        ∃ g, l.Reads s.awaits? (text :: rest) g stop ∧ s.Grows g none s' := by
      intro t g next hidle hgives hgrows h
      obtain ⟨g', hreads, hrest⟩ := ih hgrows.sound h
      rw [hgrows.awaits] at hreads
      exact ⟨g ++ g', hidle ▸ .piece (piece_iff.2 hgives) hreads, hgrows.trans hrest⟩
    by_cases hcommand : s.awaits? = none ∧ text ∈ l.commands
    · rw [scan_command hcommand.1 hcommand.2] at h
      cases h
      exact ⟨[], hcommand.1 ▸ ⟨hcommand.2, [], rfl, .nil⟩, hcommand.1 ▸ .refl hs⟩
    rw [scan_cons fun hidle hmem => hcommand ⟨hidle, hmem⟩] at h
    split at h
    · rename_i hlook
      obtain ⟨rfl, hidle, operands, rfl, hall, hgrows⟩ := operands_of_scan hl hs h hdone
      obtain rfl := Argument.eq_ofList_chars hlook (by simp)
      exact ⟨operands, hidle ▸ .marked operands .nil hall, hgrows⟩
    · rename_i name value hlook
      obtain ⟨t, hlong, h⟩ := bind_eq_ok.1 h
      obtain ⟨hidle, g, next, hgives, hgrows⟩ := readLong_eq_ok hs hlong
      exact hpiece hidle (hlook ▸ hgives) hgrows h
    · rename_i letters hlook
      obtain ⟨t, hcluster, h⟩ := bind_eq_ok.1 h
      obtain ⟨hidle, g, next, hgives, hgrows⟩ :=
        readCluster_eq_ok hs (fun hnil => absurd hnil (Argument.letters_ne_nil hlook)) hcluster
      exact hpiece hidle (hlook ▸ hgives) hgrows h
    · rename_i hlook
      obtain ⟨t, hword, h⟩ := bind_eq_ok.1 h
      unfold readWord at hword
      split at hword
      · rename_i p hawaits
        cases hword
        have hgrows := Scan.grows_of_awaits hs hawaits text
        obtain ⟨g, hreads, hrest⟩ := ih hgrows.sound h
        rw [hgrows.awaits] at hreads
        exact ⟨_, hawaits ▸ .value (Argument.isWord hlook) hreads, hgrows.trans hrest⟩
      · obtain ⟨hidle, p, hp, hgrows⟩ := readOperand_eq_ok hl hs hword
        exact hpiece hidle (hlook ▸ ⟨p, hp, rfl, rfl⟩) hgrows h

/-- The mark, behind which the scan goes on with operands. -/
theorem scan_mark (hl : l.WellFormed) (rest : List String) :
    l.scan false s ("--" :: rest) = l.scan true s rest := by
  have hcommand : "--" ∉ l.commands := fun hmem => by
    have hword := hl.word _ hmem ['-'] (by decide)
    cases hword
  rw [scan_cons fun _ => hcommand]
  rfl

/-- Arguments that are spelled are scanned to their end, or to the command. -/
theorem scan_of_reads (hl : l.WellFormed) {arguments : List String}
    {stop : Option (String × List String)} (hs : s.Sound)
    (h : l.Reads s.awaits? arguments g stop) (hfits : Given.Fits (s.reading ++ g)) :
    ∃ t, l.scan false s arguments = .ok (t, stop) ∧ s.Grows g none t := by
  cases stop with
  | none =>
    cases h with
    | unmarked h =>
      obtain ⟨t, hscan, hgrows⟩ := scan_spells hl h hs rfl hfits []
      rw [List.append_nil] at hscan
      exact ⟨t, hscan, hgrows⟩
    | marked operands h hall =>
      rw [← List.append_assoc] at hfits
      obtain ⟨t, hscan, hgrows⟩ :=
        scan_spells hl h hs rfl hfits.left ("--" :: operands.map (·.value))
      rw [← hgrows.reading] at hfits
      obtain ⟨t', hscan', hgrows'⟩ := exists_scan_operands hl hgrows.sound hgrows.awaits hall hfits
      rw [scan_mark hl, hscan'] at hscan
      exact ⟨t', hscan, hgrows.trans hgrows'⟩
  | some command =>
    obtain ⟨name, rest⟩ := command
    obtain ⟨hname, front, rfl, h⟩ := h
    obtain ⟨t, hscan, hgrows⟩ := scan_spells hl h hs rfl hfits (name :: rest)
    exact ⟨t, hscan.trans (scan_command hgrows.awaits hname rest), hgrows⟩

/-- Arguments are scanned, and what they give is settled, exactly if they spell it and it fits. -/
theorem scan_settles_iff (hl : l.WellFormed) {arguments : List String}
    {stop : Option (String × List String)} :
    (∃ s, l.scan false {} arguments = .ok (s, stop) ∧ s.settle = .ok g) ↔
      l.Reads none arguments g stop ∧ g.Fits := by
  constructor
  · rintro ⟨s, hscan, hsettle⟩
    obtain ⟨g', hreads, hgrows⟩ :=
      reads_of_scan hl Scan.sound_start hscan (Scan.awaits_of_settle hsettle)
    obtain ⟨-, rfl, hfits⟩ := (Scan.settle_eq_ok_iff hgrows.sound).1 hsettle
    obtain rfl : s.reading = g' := hgrows.reading
    exact ⟨hreads, hfits⟩
  · rintro ⟨hreads, hfits⟩
    obtain ⟨s, hscan, hgrows⟩ := scan_of_reads hl Scan.sound_start hreads hfits
    obtain rfl : s.reading = g := hgrows.reading
    exact ⟨s, hscan, (Scan.settle_eq_ok_iff hgrows.sound).2 ⟨hgrows.awaits, rfl, hfits⟩⟩

end Level

end ScopedRetrieval.CommandLine
