/-
Texts that are cut: white space from their ends, or at a separator. A text is blank when trimming
leaves nothing of it (`isBlank_iff`), and what is left of any text is the one trimmed text that it
is with white space around it (`trim_eq_iff`). A text that joins pieces tells them when none of them
is empty or has the separator in it, provided that the separator cannot overlap itself
(`intercalate_inj`).
-/
import ScopedRetrieval.Text.Blank
import Mathlib.Data.List.DropRight
import Mathlib.Data.List.Infix
import Mathlib.Data.List.TakeWhile

namespace ScopedRetrieval.Text

/-! ## Blank texts -/

/-- A text is blank when trimming leaves nothing of it. -/
theorem isBlank_iff (s : String) : isBlank s = true ↔ trim s = "" := by
  unfold isBlank trim trimChars trimEndChars
  rw [String.ofList_eq_empty_iff, List.reverse_eq_nil_iff, List.dropWhile_eq_nil_iff,
    List.all_eq_true]
  simp only [List.mem_reverse]
  constructor
  · intro hall c hc
    exact hall c ((List.dropWhile_sublist _).subset hc)
  · intro hrest c hc
    rw [← List.takeWhile_append_dropWhile (p := isBlankChar) (l := s.toList)] at hc
    rcases List.mem_append.1 hc with hc | hc
    · exact List.mem_takeWhile_imp hc
    · exact hrest c hc

theorem isBlank_eq_false_of_mem {s : String} {c : Char} (hc : c ∈ s.toList)
    (hblank : isBlankChar c = false) : isBlank s = false := by
  rw [Bool.eq_false_iff]
  intro hall
  rw [List.all_eq_true.1 hall c hc] at hblank
  cases hblank

/-! ## Trimmed texts -/

/-- A text without white space at its ends. -/
structure Trimmed (s : String) : Prop where
  head : ∀ c ∈ s.toList.head?, isBlankChar c = false
  last : ∀ c ∈ s.toList.getLast?, isBlankChar c = false

theorem trimmed_iff (s : String) : Trimmed s ↔
    s.toList.head?.all (!isBlankChar ·) = true ∧ s.toList.getLast?.all (!isBlankChar ·) = true := by
  simp only [Option.all_eq_true, Bool.not_eq_true']
  exact ⟨fun h => ⟨h.head, h.last⟩, fun h => ⟨h.1, h.2⟩⟩

instance (s : String) : Decidable (Trimmed s) := decidable_of_iff' _ (trimmed_iff s)

theorem trimEndChars_begins (cs : List Char) : trimEndChars cs <+: cs :=
  List.rdropWhile_prefix isBlankChar cs

/-- Only characters of a text are left of it. -/
theorem mem_of_mem_trim {s : String} {c : Char} (hc : c ∈ (trim s).toList) : c ∈ s.toList := by
  unfold trim at hc
  rw [String.toList_ofList] at hc
  exact (List.dropWhile_sublist _).subset ((trimEndChars_begins _).subset hc)

theorem trimmed_trim (s : String) : Trimmed (trim s) := by
  unfold trim trimChars
  constructor
  case head =>
    rw [String.toList_ofList]
    intro c hc
    -- cutting at the end leaves the first character, or nothing
    obtain ⟨cut, hcut⟩ := trimEndChars_begins (s.toList.dropWhile isBlankChar)
    have hhead := List.head?_dropWhile_not isBlankChar s.toList
    rw [← hcut, List.head?_append, hc] at hhead
    exact hhead
  case last =>
    rw [String.toList_ofList]
    unfold trimEndChars
    rw [List.getLast?_reverse]
    intro c hc
    have hhead := List.head?_dropWhile_not isBlankChar (s.toList.dropWhile isBlankChar).reverse
    rw [hc] at hhead
    exact hhead

/-! ## White space around a text -/

theorem dropWhile_blank_append {blank rest : List Char} (hblank : ∀ c ∈ blank, isBlankChar c = true)
    (hrest : ∀ c ∈ rest.head?, isBlankChar c = false) :
    (blank ++ rest).dropWhile isBlankChar = rest := by
  rw [List.dropWhile_append_of_pos hblank]
  cases rest with
  | nil => rfl
  | cons c cs => exact List.dropWhile_cons_of_neg (by simp [hrest c rfl])

theorem trim_of_surrounded {t before after : String} (ht : Trimmed t)
    (hbefore : isBlank before = true) (hafter : isBlank after = true) :
    trim (before ++ t ++ after) = t := by
  by_cases hempty : t = ""
  · rw [hempty, ← isBlank_iff]
    unfold isBlank at hbefore hafter ⊢
    simp [hbefore, hafter]
  have hne : t.toList ≠ [] := fun h => hempty (String.toList_eq_nil_iff.1 h)
  have hfront : (before.toList ++ (t.toList ++ after.toList)).dropWhile isBlankChar =
      t.toList ++ after.toList :=
    dropWhile_blank_append (List.all_eq_true.1 hbefore) fun c hc =>
      ht.head c (by rwa [List.head?_append_of_ne_nil _ hne] at hc)
  have hback : (after.toList.reverse ++ t.toList.reverse).dropWhile isBlankChar =
      t.toList.reverse :=
    dropWhile_blank_append (fun c hc => List.all_eq_true.1 hafter c (List.mem_reverse.1 hc))
      fun c hc => ht.last c (by rwa [List.head?_reverse] at hc)
  unfold trim trimChars trimEndChars
  rw [String.toList_append, String.toList_append, List.append_assoc, hfront, List.reverse_append,
    hback, List.reverse_reverse, String.ofList_toList]

theorem exists_surrounds_trim (s : String) :
    ∃ before after, isBlank before = true ∧ isBlank after = true ∧
      s = before ++ trim s ++ after := by
  let rest := s.toList.dropWhile isBlankChar
  refine ⟨.ofList (s.toList.takeWhile isBlankChar), .ofList (rest.rtakeWhile isBlankChar), ?_, ?_,
    ?_⟩
  · unfold isBlank
    rw [String.toList_ofList, List.all_eq_true]
    exact fun c hc => List.mem_takeWhile_imp hc
  · unfold isBlank
    rw [String.toList_ofList, List.all_eq_true]
    exact fun c hc => List.mem_rtakeWhile_imp hc
  · have hrest : trimEndChars rest ++ rest.rtakeWhile isBlankChar = rest :=
      List.rdropWhile_append_rtakeWhile
    rw [← String.toList_inj]
    unfold trim trimChars
    simp only [String.toList_append, String.toList_ofList]
    rw [List.append_assoc, hrest, List.takeWhile_append_dropWhile]

/-- Trimming leaves the trimmed text that has nothing but white space around it. -/
theorem trim_eq_iff (s t : String) : trim s = t ↔ Trimmed t ∧
    ∃ before after, isBlank before = true ∧ isBlank after = true ∧ s = before ++ t ++ after := by
  constructor
  · rintro rfl
    exact ⟨trimmed_trim s, exists_surrounds_trim s⟩
  · rintro ⟨ht, before, after, hbefore, hafter, rfl⟩
    exact trim_of_surrounded ht hbefore hafter

/-! ## Between separators -/

theorem notMem_of_mem_splitOn {sep : Char} {cs part : List Char} (h : part ∈ cs.splitOn sep) :
    sep ∉ part := by
  induction cs generalizing part with
  | nil =>
    rw [List.splitOn_nil, List.mem_singleton] at h
    rw [h]
    exact List.not_mem_nil
  | cons c rest ih =>
    rw [List.splitOn_cons_eq_if_modifyHead] at h
    split at h
    · rcases List.mem_cons.1 h with rfl | h
      · exact List.not_mem_nil
      · exact ih h
    · rename_i hc
      -- the character goes to the first part of the rest
      cases hsplit : rest.splitOn sep with
      | nil => exact absurd hsplit (List.splitOn_ne_nil _ _)
      | cons first others =>
        rw [hsplit] at h ih
        rcases List.mem_cons.1 h with rfl | h
        · intro hmem
          rcases List.mem_cons.1 hmem with rfl | hmem
          · exact hc (beq_self_eq_true _)
          · exact ih List.mem_cons_self hmem
        · exact ih (List.mem_cons_of_mem _ h)

/-! ## Joined pieces -/

section

variable {α : Type} {sep : List α}

/-- No end of the separator begins it, so two separators in a text do not overlap. -/
structure Unbordered (sep : List α) : Prop where
  ne_nil : sep ≠ []
  border : ∀ part, part <:+ sep → part <+: sep → part = [] ∨ part = sep

theorem unbordered_iff (sep : List α) :
    Unbordered sep ↔ sep ≠ [] ∧ ∀ part ∈ sep.tails, part <+: sep → part = [] ∨ part = sep := by
  simp only [List.mem_tails]
  exact ⟨fun h => ⟨h.ne_nil, h.border⟩, fun h => ⟨h.1, h.2⟩⟩

instance [DecidableEq α] (sep : List α) : Decidable (Unbordered sep) :=
  decidable_of_iff' _ (unbordered_iff sep)

/-- What does not have a character in it lies on one side of that character. -/
theorem infix_of_infix_append_cons {c : α} (hc : c ∉ sep) {before after : List α}
    (h : sep <:+: before ++ c :: after) : sep <:+: before ∨ sep <:+: after := by
  rcases List.infix_append_iff.1 h with h | h | ⟨start, reach, rfl, hstart, hreach⟩
  · exact .inl h
  · rcases List.infix_cons_iff.1 h with h | h
    · cases sep with
      | nil => exact .inl (List.nil_infix)
      | cons d sep =>
        rw [(List.cons_prefix_cons.1 h).1] at hc
        exact absurd List.mem_cons_self hc
    · exact .inr h
  · cases reach with
    | nil =>
      rw [List.append_nil]
      exact .inl hstart.isInfix
    | cons d reach =>
      rw [(List.cons_prefix_cons.1 hreach).1] at hc
      exact absurd (List.mem_append_right _ List.mem_cons_self) hc

/-- What may stand behind a piece: nothing, or a separator with anything behind it. -/
def IsRest (sep rest : List α) : Prop := rest = [] ∨ sep <+: rest

/-- A separator that stands behind the first part of a text does not begin in a later part. -/
theorem Unbordered.eq_nil_of_isRest (hsep : Unbordered sep) {piece part rest : List α}
    (hpiece : ¬sep <:+: piece ++ part) (hrest : IsRest sep rest) (h : IsRest sep (part ++ rest)) :
    part = [] := by
  rcases h with h | ⟨behind, h⟩
  · exact (List.append_eq_nil_iff.1 h).1
  rcases List.append_eq_append_iff.1 h with ⟨more, rfl, -⟩ | ⟨reach, hreach, rfl⟩
  · -- the separator ends within the part
    refine absurd ?_ hpiece
    rw [← List.append_assoc]
    exact List.infix_append piece sep more
  · -- the separator goes on into the rest, which begins with what it has there
    have hborder : reach <+: sep := by
      rcases hrest with hnil | hnext
      · rw [(List.append_eq_nil_iff.1 hnil).1]
        exact List.nil_prefix
      · refine List.prefix_of_prefix_length_le (List.prefix_append reach behind) hnext ?_
        rw [hreach, List.length_append]
        exact Nat.le_add_left _ _
    rcases hsep.border reach ⟨part, hreach.symm⟩ hborder with rfl | rfl
    · rw [List.append_nil] at hreach
      rw [hreach] at hpiece
      exact absurd (List.suffix_append piece part).isInfix hpiece
    · exact List.self_eq_append_left.1 hreach

/-- Where a piece ends can be seen. -/
theorem Unbordered.append_inj (hsep : Unbordered sep) {piece piece' rest rest' : List α}
    (hpiece : ¬sep <:+: piece) (hpiece' : ¬sep <:+: piece') (hrest : IsRest sep rest)
    (hrest' : IsRest sep rest') (h : piece ++ rest = piece' ++ rest') :
    piece = piece' ∧ rest = rest' := by
  rcases List.append_eq_append_iff.1 h with ⟨part, rfl, rfl⟩ | ⟨part, rfl, rfl⟩
  · rw [hsep.eq_nil_of_isRest hpiece' hrest' hrest, List.append_nil]
    exact ⟨rfl, rfl⟩
  · rw [hsep.eq_nil_of_isRest hpiece hrest hrest', List.append_nil]
    exact ⟨rfl, rfl⟩

theorem isRest_flatMap (pieces : List (List α)) : IsRest sep (pieces.flatMap (sep ++ ·)) := by
  cases pieces with
  | nil => exact .inl rfl
  | cons piece pieces =>
    rw [List.flatMap_cons, List.append_assoc]
    exact .inr (List.prefix_append _ _)

/-- Pieces with a separator before each can be told. -/
theorem Unbordered.flatMap_inj (hsep : Unbordered sep) {pieces pieces' : List (List α)}
    (hpieces : ∀ piece ∈ pieces, ¬sep <:+: piece) (hpieces' : ∀ piece ∈ pieces', ¬sep <:+: piece)
    (h : pieces.flatMap (sep ++ ·) = pieces'.flatMap (sep ++ ·)) : pieces = pieces' := by
  induction pieces generalizing pieces' with
  | nil =>
    cases pieces' with
    | nil => rfl
    | cons piece' pieces' => simp [hsep.ne_nil] at h
  | cons piece pieces ih =>
    cases pieces' with
    | nil => simp [hsep.ne_nil] at h
    | cons piece' pieces' =>
      obtain ⟨hpiece, hothers⟩ := List.forall_mem_cons.1 hpieces
      obtain ⟨hpiece', hothers'⟩ := List.forall_mem_cons.1 hpieces'
      simp only [List.flatMap_cons, List.append_assoc, List.append_cancel_left_eq] at h
      obtain ⟨rfl, hrest⟩ :=
        hsep.append_inj hpiece hpiece' (isRest_flatMap pieces) (isRest_flatMap pieces') h
      rw [ih hothers hothers' hrest]

theorem intercalate_cons (sep piece : List α) (pieces : List (List α)) :
    sep.intercalate (piece :: pieces) = piece ++ pieces.flatMap (sep ++ ·) := by
  induction pieces generalizing piece with
  | nil => rw [List.intercalate_singleton, List.flatMap_nil, List.append_nil]
  | cons next pieces ih =>
    rw [List.intercalate_cons_cons, ih, List.flatMap_cons]
    simp only [List.append_assoc]

end

/-- A text that joins pieces tells them, in their order. -/
theorem intercalate_inj {sep : String} (hsep : Unbordered sep.toList) {pieces pieces' : List String}
    (hpieces : ∀ piece ∈ pieces, piece ≠ "" ∧ ¬sep.toList <:+: piece.toList)
    (hpieces' : ∀ piece ∈ pieces', piece ≠ "" ∧ ¬sep.toList <:+: piece.toList)
    (h : String.intercalate sep pieces = String.intercalate sep pieces') : pieces = pieces' := by
  have hchars := congrArg String.toList h
  rw [String.toList_intercalate, String.toList_intercalate] at hchars
  cases pieces with
  | nil =>
    cases pieces' with
    | nil => rfl
    | cons piece' pieces' =>
      simp [intercalate_cons, (hpieces' piece' List.mem_cons_self).1] at hchars
  | cons piece pieces =>
    cases pieces' with
    | nil => simp [intercalate_cons, (hpieces piece List.mem_cons_self).1] at hchars
    | cons piece' pieces' =>
      rw [List.map_cons, List.map_cons, intercalate_cons, intercalate_cons] at hchars
      refine List.map_injective_iff.2 (fun _ _ => String.toList_inj.1) (hsep.flatMap_inj ?_ ?_ ?_)
      · exact List.forall_mem_map.2 fun p hp => (hpieces p hp).2
      · exact List.forall_mem_map.2 fun p hp => (hpieces' p hp).2
      · -- one more separator, in front, gives every piece its own
        simp only [List.map_cons, List.flatMap_cons, List.append_assoc, hchars]

end ScopedRetrieval.Text
