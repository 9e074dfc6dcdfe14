/-
How command lines are spelled, told by their parts: options by their long names with values attached
or apart, short names one behind the other, operands, and the mark behind which all are operands.
What one argument gives is decided by its looks (`piece_iff`), so a line is spelled in one way
(`Spells.unique`, `SpellsAll.unique`).
-/
import ScopedRetrieval.CommandLine.Invocation
import Mathlib.Data.List.TakeWhile
import Mathlib.Tactic.Common

namespace ScopedRetrieval.CommandLine

/-! ## Names -/

namespace Parameter

def all : List Parameter :=
  [help, version, config, verbose, quiet, inMemory, requireAttributes, brief, query, manifest,
    directory, claim, explain, json, probed]

theorem mem_all (p : Parameter) : p ∈ all := by
  cases p <;> decide

theorem name_injective {p q : Parameter} (h : p.name = q.name) : p = q := by
  have hall : ∀ p ∈ all, ∀ q ∈ all, p.name = q.name → p = q := by decide +kernel
  exact hall p p.mem_all q q.mem_all h

theorem short_injective {p q : Parameter} {c : Char} (hp : p.short? = some c)
    (hq : q.short? = some c) : p = q := by
  have hall : ∀ p ∈ all, ∀ q ∈ all, p.short? = q.short? → p.short?.isSome = true → p = q := by
    decide +kernel
  exact hall p p.mem_all q q.mem_all (hp.trans hq.symm) (by rw [hp]; rfl)

theorem equals_notMem_name (p : Parameter) : '=' ∉ p.name.toList := by
  have hall : ∀ p ∈ all, '=' ∉ p.name.toList := by decide +kernel
  exact hall p p.mem_all

theorem short_ne_dash (p : Parameter) : p.short? ≠ some '-' := by
  cases p <;> decide

end Parameter

/-- A search among elements of which one alone can be found. -/
theorem find?_eq_some_iff_of_unique {α : Type} {l : List α} {test : α → Bool}
    (unique : ∀ a b, test a = true → test b = true → a = b) {a : α} :
    l.find? test = some a ↔ a ∈ l ∧ test a = true := by
  constructor
  · exact fun h => ⟨List.mem_of_find?_eq_some h, List.find?_some h⟩
  · rintro ⟨hmem, ha⟩
    cases h : l.find? test with
    | none => exact absurd ha (List.find?_eq_none.1 h a hmem)
    | some b => rw [unique a b ha (List.find?_some h)]

namespace Level

variable {l : Level}

theorem long?_eq_some_iff {name : String} {p : Parameter} :
    l.long? name = some p ↔ p ∈ l.options ∧ p.name = name := by
  unfold long?
  rw [find?_eq_some_iff_of_unique, decide_eq_true_iff]
  intro p q hp hq
  exact Parameter.name_injective ((of_decide_eq_true hp).trans (of_decide_eq_true hq).symm)

theorem short?_eq_some_iff {c : Char} {p : Parameter} :
    l.short? c = some p ↔ p ∈ l.options ∧ p.short? = some c := by
  unfold short?
  rw [find?_eq_some_iff_of_unique, decide_eq_true_iff]
  intro p q hp hq
  exact Parameter.short_injective (of_decide_eq_true hp) (of_decide_eq_true hq)

end Level

/-! ## The spelling of a level -/

/-- A text that is no option: a dash begins it only when there is nothing more. -/
def IsWord (text : String) : Prop := ∀ cs, text.toList = '-' :: cs → cs = []

namespace Level

variable (l : Level)

/-- Short names behind one dash and what they give. The value of the last one may stand directly
behind it, or behind an equals sign, or be the next argument; then `next` is the parameter that it
is a value for. -/
inductive Letters : List Char → Given → Option Parameter → Prop where
  | nil : Letters [] [] none
  | flag {c p rest g next} (hp : p ∈ l.options) (hc : p.short? = some c)
      (hv : p.takesValue = false) (h : Letters rest g next) :
      Letters (c :: rest) (⟨p, ""⟩ :: g) next
  | equals {c p} (value : List Char) (hp : p ∈ l.options) (hc : p.short? = some c)
      (hv : p.takesValue = true) : Letters (c :: '=' :: value) [⟨p, .ofList value⟩] none
  | attached {c p d} (value : List Char) (hp : p ∈ l.options) (hc : p.short? = some c)
      (hv : p.takesValue = true) (hd : d ≠ '=') :
      Letters (c :: d :: value) [⟨p, .ofList (d :: value)⟩] none
  | apart {c p} (hp : p ∈ l.options) (hc : p.short? = some c) (hv : p.takesValue = true) :
      Letters [c] [] (some p)

/-- One argument where no value is expected, with what it gives and the parameter that the next
argument is a value for. -/
inductive Piece : String → Given → Option Parameter → Prop where
  | flag {p} (hp : p ∈ l.options) (hv : p.takesValue = false) :
      Piece ("--" ++ p.name) [⟨p, ""⟩] none
  | equals {p} (value : String) (hp : p ∈ l.options) (hv : p.takesValue = true) :
      Piece ("--" ++ p.name ++ "=" ++ value) [⟨p, value⟩] none
  | apart {p} (hp : p ∈ l.options) (hv : p.takesValue = true) : Piece ("--" ++ p.name) [] (some p)
  | letters {letters g next} (hne : letters ≠ []) (h : l.Letters letters g next) :
      Piece (.ofList ('-' :: letters)) g next
  | operand {text p} (hw : IsWord text) (hp : l.operand = some p) : Piece text [⟨p, text⟩] none

/-- Arguments and what they give, in their order. The first of them is a value where a parameter
stands before them. -/
inductive Spells : Option Parameter → List String → Given → Prop where
  | nil : Spells none [] []
  | value {p text rest g} (hw : IsWord text) (h : Spells none rest g) :
      Spells (some p) (text :: rest) (⟨p, text⟩ :: g)
  | piece {text rest g g' next} (hp : l.Piece text g next) (h : Spells next rest g') :
      Spells none (text :: rest) (g ++ g')

/-- All arguments of a level, of which those behind the mark `--` are operands. -/
inductive SpellsAll (next : Option Parameter) : List String → Given → Prop where
  | unmarked {arguments g} (h : l.Spells next arguments g) : SpellsAll next arguments g
  | marked {front g} (operands : Given) (h : l.Spells next front g)
      (hp : ∀ o ∈ operands, l.operand = some o.parameter) :
      SpellsAll next (front ++ "--" :: operands.map (·.value)) (g ++ operands)

end Level

/-! ## Arguments by their looks -/

namespace Argument

/-- The text of an option, or of the mark. -/
def chars : Argument → List Char
  | separator => ['-', '-']
  | long name none => '-' :: '-' :: name.toList
  | long name (some value) => '-' :: '-' :: (name.toList ++ '=' :: value.toList)
  | cluster letters => '-' :: letters
  | word => []

theorem chars_splitValue (cs : List Char) : (splitValue cs).chars = '-' :: '-' :: cs := by
  unfold splitValue
  have hcut := List.takeWhile_append_dropWhile (p := (· ≠ '=')) (l := cs)
  split
  · simp [chars]
  · rename_i d value h
    have hne : cs.dropWhile (· ≠ '=') ≠ [] := h ▸ List.cons_ne_nil d value
    have hd : d = '=' := by
      have hhead := List.head_dropWhile_not (· ≠ '=') hne
      simp only [h, List.head_cons] at hhead
      simpa using hhead
    rw [hd] at h
    simp only [chars, String.toList_ofList, ← h]
    rw [hcut]

/-- An argument looks like a word, or it has the text of what it looks like. -/
theorem chars_ofString (text : String) :
    ofString text = word ∧ IsWord text ∨
      ofString text ≠ word ∧ ¬IsWord text ∧ (ofString text).chars = text.toList := by
  unfold ofString IsWord
  generalize text.toList = cs
  split
  · exact .inr (by simp [chars])
  · rename_i cs _
    refine .inr ⟨?_, by simp, chars_splitValue cs⟩
    unfold splitValue
    split <;> simp
  · exact .inr (by simp [chars])
  · rename_i h₁ h₂ h₃
    refine .inl ⟨rfl, ?_⟩
    intro cs hcs
    cases cs with
    | nil => rfl
    | cons c cs => exact absurd hcs (h₃ c cs)

theorem isWord {text : String} (h : ofString text = word) : IsWord text := by
  rcases chars_ofString text with ⟨-, hword⟩ | ⟨hne, -⟩
  · exact hword
  · exact absurd h hne

theorem ofString_of_isWord {text : String} (h : IsWord text) : ofString text = word := by
  rcases chars_ofString text with ⟨hword, -⟩ | ⟨-, hne, -⟩
  · exact hword
  · exact absurd h hne

theorem eq_ofList_chars {text : String} {a : Argument} (h : ofString text = a) (ha : a ≠ word) :
    text = .ofList a.chars := by
  rcases chars_ofString text with ⟨hword, -⟩ | ⟨-, -, hchars⟩
  · exact absurd (h.symm.trans hword) ha
  · rw [← h, hchars, String.ofList_toList]

theorem letters_ne_nil {text : String} {letters : List Char} (h : ofString text = cluster letters) :
    letters ≠ [] := by
  rintro rfl
  rcases chars_ofString text with ⟨hword, -⟩ | ⟨-, hword, hchars⟩
  · cases h.symm.trans hword
  · rw [h] at hchars
    exact hword fun cs hcs => (List.cons.inj (hchars.trans hcs)).2.symm

theorem splitValue_of_notMem {cs : List Char} (h : '=' ∉ cs) :
    splitValue cs = long (.ofList cs) none := by
  have hdrop : cs.dropWhile (· ≠ '=') = [] := by
    rw [List.dropWhile_eq_nil_iff]
    intro c hc
    exact decide_eq_true fun heq => h (heq ▸ hc)
  unfold splitValue
  rw [hdrop]

theorem splitValue_append {name : List Char} (h : '=' ∉ name) (value : List Char) :
    splitValue (name ++ '=' :: value) = long (.ofList name) (some (.ofList value)) := by
  have hall : ∀ c ∈ name, decide (c ≠ '=') = true := fun c hc =>
    decide_eq_true fun heq => h (heq ▸ hc)
  unfold splitValue
  rw [List.dropWhile_append_of_pos hall, List.takeWhile_append_of_pos hall,
    List.dropWhile_cons_of_neg (by simp), List.takeWhile_cons_of_neg (by simp), List.append_nil]

theorem ofString_dashes {text : String} {cs : List Char} (h : text.toList = '-' :: '-' :: cs)
    (hne : cs ≠ []) : ofString text = splitValue cs := by
  unfold ofString
  rw [h]
  cases cs with
  | nil => exact absurd rfl hne
  | cons c cs => rfl

theorem ofString_flag (p : Parameter) : ofString ("--" ++ p.name) = long p.name none := by
  have hne : p.name.toList ≠ [] := by
    cases p <;> decide
  rw [ofString_dashes String.toList_append hne, splitValue_of_notMem p.equals_notMem_name,
    String.ofList_toList]

theorem ofString_equals (p : Parameter) (value : String) :
    ofString ("--" ++ p.name ++ "=" ++ value) = long p.name (some value) := by
  have htext : ("--" ++ p.name ++ "=" ++ value).toList =
      '-' :: '-' :: (p.name.toList ++ '=' :: value.toList) := by
    simp [String.toList_append]
  rw [ofString_dashes htext (by simp), splitValue_append p.equals_notMem_name,
    String.ofList_toList, String.ofList_toList]

theorem ofList_chars_flag (p : Parameter) :
    String.ofList (long p.name none).chars = "--" ++ p.name := by
  rw [← String.toList_inj]
  simp [chars, String.toList_append]

theorem ofList_chars_equals (p : Parameter) (value : String) :
    String.ofList (long p.name (some value)).chars = "--" ++ p.name ++ "=" ++ value := by
  rw [← String.toList_inj]
  simp [chars, String.toList_append]

theorem ofString_letters {c : Char} (hc : c ≠ '-') (rest : List Char) :
    ofString (.ofList ('-' :: c :: rest)) = cluster (c :: rest) := by
  unfold ofString
  rw [String.toList_ofList]
  split
  · simp_all
  · simp_all
  · simp_all
  · rename_i h₁ h₂ h₃
    exact absurd rfl (h₃ c rest)

end Argument

/-! ## What an argument gives by its looks -/

namespace Level

variable (l : Level)

/-- What an argument of this look gives where no value is expected. -/
def Gives (text : String) : Argument → Given → Option Parameter → Prop
  | .separator, _, _ => False
  | .long name value, g, next => ∃ p, l.long? name = some p ∧
    match p.takesValue, value with
    | false, none => g = [⟨p, ""⟩] ∧ next = none
    | false, some _ => False
    | true, none => g = [] ∧ next = some p
    | true, some value => g = [⟨p, value⟩] ∧ next = none
  | .cluster letters, g, next => l.Letters letters g next
  | .word, g, next => ∃ p, l.operand = some p ∧ g = [⟨p, text⟩] ∧ next = none

variable {l}

/-- What stands behind the short name of an option with a value gives. -/
def valueBehind (p : Parameter) : List Char → Given × Option Parameter
  | [] => ([], some p)
  | '=' :: value => ([⟨p, .ofList value⟩], none)
  | value => ([⟨p, .ofList value⟩], none)

/-- The first of several short names decides what the others are. -/
theorem letters_cons {c : Char} {rest : List Char} {g : Given} {next : Option Parameter} :
    l.Letters (c :: rest) g next ↔ ∃ p, l.short? c = some p ∧
      (p.takesValue = false ∧ (∃ g', g = ⟨p, ""⟩ :: g' ∧ l.Letters rest g' next) ∨
        p.takesValue = true ∧ valueBehind p rest = (g, next)) := by
  constructor
  · intro h
    cases h with
    | flag hp hc hv h => exact ⟨_, short?_eq_some_iff.2 ⟨hp, hc⟩, .inl ⟨hv, _, rfl, h⟩⟩
    | equals value hp hc hv => exact ⟨_, short?_eq_some_iff.2 ⟨hp, hc⟩, .inr ⟨hv, rfl⟩⟩
    | attached value hp hc hv hd =>
      exact ⟨_, short?_eq_some_iff.2 ⟨hp, hc⟩, .inr ⟨hv, by simp [valueBehind, hd]⟩⟩
    | apart hp hc hv => exact ⟨_, short?_eq_some_iff.2 ⟨hp, hc⟩, .inr ⟨hv, rfl⟩⟩
  · rintro ⟨p, hp, ⟨hv, g', rfl, h⟩ | ⟨hv, h⟩⟩
    all_goals obtain ⟨hmem, hc⟩ := short?_eq_some_iff.1 hp
    · exact .flag hmem hc hv h
    · unfold valueBehind at h
      split at h <;> cases h
      · exact .apart hmem hc hv
      · exact .equals _ hmem hc hv
      · rename_i hnil heq
        cases rest with
        | nil => exact absurd rfl hnil
        | cons d value => exact .attached value hmem hc hv fun hd => heq value (hd ▸ rfl)

theorem Letters.ne_dash {c : Char} {rest : List Char} {g : Given} {next : Option Parameter}
    (h : l.Letters (c :: rest) g next) : c ≠ '-' := by
  rintro rfl
  obtain ⟨p, hp, -⟩ := letters_cons.1 h
  exact p.short_ne_dash (short?_eq_some_iff.1 hp).2

theorem piece_iff {text : String} {g : Given} {next : Option Parameter} :
    l.Piece text g next ↔ l.Gives text (Argument.ofString text) g next := by
  constructor
  · intro h
    cases h with
    | @flag p hp hv =>
      rw [Argument.ofString_flag]
      exact ⟨p, long?_eq_some_iff.2 ⟨hp, rfl⟩, by simp [hv]⟩
    | @equals p value hp hv =>
      rw [Argument.ofString_equals]
      exact ⟨p, long?_eq_some_iff.2 ⟨hp, rfl⟩, by simp [hv]⟩
    | @apart p hp hv =>
      rw [Argument.ofString_flag]
      exact ⟨p, long?_eq_some_iff.2 ⟨hp, rfl⟩, by simp [hv]⟩
    | @letters letters _ _ hne h =>
      cases letters with
      | nil => exact absurd rfl hne
      | cons c rest =>
        rw [Argument.ofString_letters h.ne_dash]
        exact h
    | @operand _ p hw hp =>
      rw [Argument.ofString_of_isWord hw]
      exact ⟨p, hp, rfl, rfl⟩
  · intro h
    cases hlook : Argument.ofString text with
    | separator =>
      rw [hlook] at h
      exact h.elim
    | word =>
      rw [hlook] at h
      obtain ⟨p, hp, rfl, rfl⟩ := h
      exact .operand (Argument.isWord hlook) hp
    | cluster letters =>
      rw [hlook] at h
      rw [Argument.eq_ofList_chars hlook (by simp)]
      exact .letters (Argument.letters_ne_nil hlook) h
    | long name value =>
      rw [hlook] at h
      rw [Argument.eq_ofList_chars hlook (by simp)]
      obtain ⟨p, hp, hgives⟩ := h
      obtain ⟨hmem, rfl⟩ := long?_eq_some_iff.1 hp
      cases hv : p.takesValue <;> cases value <;> simp only [hv] at hgives
      · obtain ⟨rfl, rfl⟩ := hgives
        exact Argument.ofList_chars_flag p ▸ .flag hmem hv
      · obtain ⟨rfl, rfl⟩ := hgives
        exact Argument.ofList_chars_flag p ▸ .apart hmem hv
      · rename_i value
        obtain ⟨rfl, rfl⟩ := hgives
        exact Argument.ofList_chars_equals p value ▸ .equals value hmem hv

theorem Letters.unique {letters : List Char} {g g' : Given} {next next' : Option Parameter}
    (h : l.Letters letters g next) (h' : l.Letters letters g' next') : g = g' ∧ next = next' := by
  induction letters generalizing g g' with
  | nil =>
    cases h
    cases h'
    exact ⟨rfl, rfl⟩
  | cons c rest ih =>
    obtain ⟨p, hp, hgives⟩ := letters_cons.1 h
    obtain ⟨p', hp', hgives'⟩ := letters_cons.1 h'
    cases hp.symm.trans hp'
    rcases hgives with ⟨hv, g, rfl, hrest⟩ | ⟨hv, hvalue⟩ <;>
      rcases hgives' with ⟨hv', g', rfl, hrest'⟩ | ⟨hv', hvalue'⟩
    · obtain ⟨rfl, rfl⟩ := ih hrest hrest'
      exact ⟨rfl, rfl⟩
    · exact absurd (hv.symm.trans hv') Bool.false_ne_true
    · exact absurd (hv'.symm.trans hv) Bool.false_ne_true
    · cases hvalue.symm.trans hvalue'
      exact ⟨rfl, rfl⟩

theorem Piece.unique {text : String} {g g' : Given} {next next' : Option Parameter}
    (h : l.Piece text g next) (h' : l.Piece text g' next') : g = g' ∧ next = next' := by
  rw [piece_iff] at h h'
  cases hlook : Argument.ofString text with
  | separator =>
    rw [hlook] at h
    exact h.elim
  | cluster letters =>
    rw [hlook] at h h'
    exact h.unique h'
  | word =>
    rw [hlook] at h h'
    obtain ⟨p, hp, rfl, rfl⟩ := h
    obtain ⟨p', hp', rfl, rfl⟩ := h'
    cases hp.symm.trans hp'
    exact ⟨rfl, rfl⟩
  | long name value =>
    rw [hlook] at h h'
    obtain ⟨p, hp, hgives⟩ := h
    obtain ⟨p', hp', hgives'⟩ := h'
    cases hp.symm.trans hp'
    cases hv : p.takesValue <;> cases value <;> simp only [hv] at hgives hgives'
    all_goals exact ⟨hgives.1.trans hgives'.1.symm, hgives.2.trans hgives'.2.symm⟩

theorem not_piece_separator {g : Given} {next : Option Parameter} : ¬l.Piece "--" g next := by
  rw [piece_iff]
  exact id

/-! ## A line is spelled in one way -/

/-- Where no argument of a level can begin. -/
def Blocked (l : Level) (arguments : List String) : Prop :=
  ∀ text rest, arguments = text :: rest → ∀ g next, ¬l.Piece text g next

theorem blocked_nil : l.Blocked [] := by
  intro _ _ h
  cases h

theorem blocked_cons {text : String} {rest : List String} (h : ∀ g next, ¬l.Piece text g next) :
    l.Blocked (text :: rest) := by
  rintro _ _ ⟨⟩
  exact h

/-- Two spellings that go as far as they can go equally far, and give the same. -/
theorem Spells.unique {next : Option Parameter} {front front' tail tail' : List String}
    {g g' : Given} (h : l.Spells next front g) (h' : l.Spells next front' g')
    (htail : l.Blocked tail) (htail' : l.Blocked tail') (heq : front ++ tail = front' ++ tail') :
    g = g' ∧ tail = tail' := by
  induction h generalizing front' g' with
  | nil =>
    cases h' with
    | nil => exact ⟨rfl, heq⟩
    | piece hp _ => exact absurd hp (htail _ _ heq _ _)
  | value _ _ ih =>
    cases h' with
    | value _ h' =>
      obtain ⟨rfl, hrest⟩ := List.cons.inj heq
      obtain ⟨rfl, htails⟩ := ih h' hrest
      exact ⟨rfl, htails⟩
  | piece hp _ ih =>
    cases h' with
    | nil => exact absurd hp (htail' _ _ heq.symm _ _)
    | piece hp' h' =>
      obtain ⟨rfl, hrest⟩ := List.cons.inj heq
      obtain ⟨rfl, rfl⟩ := hp.unique hp'
      obtain ⟨rfl, htails⟩ := ih h' hrest
      exact ⟨rfl, htails⟩

/-- Operands are told by their values. -/
theorem operands_eq_of_values {operands operands' : Given}
    (h : ∀ o ∈ operands, l.operand = some o.parameter)
    (h' : ∀ o ∈ operands', l.operand = some o.parameter)
    (hvalues : operands.map (·.value) = operands'.map (·.value)) : operands = operands' := by
  induction operands generalizing operands' with
  | nil => simpa using hvalues
  | cons o operands ih =>
    cases operands' with
    | nil => simp at hvalues
    | cons o' operands' =>
      obtain ⟨hvalue, hrest⟩ := List.cons.inj hvalues
      rw [List.forall_mem_cons] at h h'
      have hparameter : o.parameter = o'.parameter := Option.some.inj (h.1.symm.trans h'.1)
      obtain ⟨p, value⟩ := o
      obtain ⟨p', value'⟩ := o'
      obtain rfl : p = p' := hparameter
      obtain rfl : value = value' := hvalue
      rw [ih h.2 h'.2 hrest]

theorem SpellsAll.unique {next : Option Parameter} {arguments : List String} {g g' : Given}
    (h : l.SpellsAll next arguments g) (h' : l.SpellsAll next arguments g') : g = g' := by
  have hmark : ∀ rest, l.Blocked ("--" :: rest) := fun rest =>
    blocked_cons fun _ _ => not_piece_separator
  cases h with
  | unmarked h =>
    cases h' with
    | unmarked h' => exact (h.unique h' blocked_nil blocked_nil rfl).1
    | marked operands h' _ =>
      cases (h.unique h' blocked_nil (hmark _) (by rw [List.append_nil])).2
  | @marked front g operands h hp =>
    generalize harguments : front ++ "--" :: operands.map (·.value) = arguments at h'
    cases h' with
    | unmarked h' =>
      cases (h.unique h' (hmark _) blocked_nil (by rw [harguments, List.append_nil])).2
    | @marked front' g' operands' h' hp' =>
      obtain ⟨rfl, htail⟩ := h.unique h' (hmark _) (hmark _) harguments
      rw [operands_eq_of_values hp hp' (List.cons.inj htail).2]

/-- What short names give are options, and so is the one that awaits a value. -/
theorem Letters.mem {letters : List Char} {g : Given} {next : Option Parameter}
    (h : l.Letters letters g next) :
    (∀ o ∈ g, o.parameter ∈ l.options) ∧ ∀ p ∈ next, p ∈ l.options := by
  induction h with
  | nil => simp
  | flag hp _ _ _ ih => exact ⟨List.forall_mem_cons.2 ⟨hp, ih.1⟩, ih.2⟩
  | equals _ hp _ _ => simpa using hp
  | attached _ hp _ _ _ => simpa using hp
  | apart hp _ _ => simpa using hp

theorem Piece.mem {text : String} {g : Given} {next : Option Parameter}
    (h : l.Piece text g next) :
    (∀ o ∈ g, o.parameter ∈ l.options ∨ l.operand = some o.parameter) ∧
      ∀ p ∈ next, p ∈ l.options := by
  cases h with
  | flag hp _ => simpa using .inl hp
  | equals _ hp _ => simpa using .inl hp
  | apart hp _ => simpa using hp
  | letters _ h => exact ⟨fun o ho => .inl (h.mem.1 o ho), h.mem.2⟩
  | operand _ hp => simpa using .inr hp

/-- What a spelling gives are options and operands of its level. -/
theorem Spells.mem {next : Option Parameter} {arguments : List String} {g : Given}
    (h : l.Spells next arguments g) (hnext : ∀ p ∈ next, p ∈ l.options) :
    ∀ o ∈ g, o.parameter ∈ l.options ∨ l.operand = some o.parameter := by
  induction h with
  | nil => simp
  | value _ _ ih => exact List.forall_mem_cons.2 ⟨.inl (hnext _ rfl), ih (by simp)⟩
  | piece hp _ ih => exact List.forall_mem_append.2 ⟨hp.mem.1, ih hp.mem.2⟩

end Level

end ScopedRetrieval.CommandLine
