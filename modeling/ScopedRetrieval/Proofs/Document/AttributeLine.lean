/-
The line of attributes and the text that is embedded with a content. The line names each attribute
once, in ascending order of the bytes of the names, so it is the same in whatever order they were
stored (`isLine_iff`, `exists_line_ofList`). Attributes can be told from it where no name has an `=`
in it and no name or value the `, ` that stands between attributes; then the text that is embedded
tells them too (`line_identifies_attributes`).
-/
import ScopedRetrieval.Document
import ScopedRetrieval.Proofs.KeyMap.Enumeration
import ScopedRetrieval.Proofs.Text.ByteOrder
import ScopedRetrieval.Proofs.Text.Cutting
import Mathlib.Data.List.Nodup

namespace ScopedRetrieval

namespace Attributes

/-! ## What the line lists -/

/-- The line names each attribute once with its value, in ascending order of the names. -/
def IsLine (attributes : Attributes) (line : String) : Prop :=
  ∃ pairs : List (String × String),
    (∀ name value, (name, value) ∈ pairs ↔ attributes.find? name = some value) ∧
    pairs.Pairwise (fun a b => Text.utf8 a.1 < Text.utf8 b.1) ∧
    line = String.intercalate ", " (pairs.map fun e => e.1 ++ "=" ++ e.2)

theorem isLine_line (attributes : Attributes) : attributes.IsLine attributes.line :=
  ⟨attributes.toList, attributes.mem_entries_iff,
    attributes.ascending.imp fun h => (Text.utf8_lt_utf8_iff _ _).2 h, rfl⟩

/-- There is one such line. -/
theorem isLine_iff (attributes : Attributes) (line : String) :
    attributes.IsLine line ↔ line = attributes.line := by
  constructor
  · rintro ⟨pairs, hmem, hascending, rfl⟩
    have hpairs : pairs = attributes.toList := by
      refine KeyMap.entries_ext ?_ attributes.ascending fun e => ?_
      · exact hascending.imp fun h => (Text.utf8_lt_utf8_iff _ _).1 h
      · exact (hmem e.1 e.2).trans (attributes.mem_entries_iff e.1 e.2).symm
    rw [hpairs, line]
  · rintro rfl
    exact attributes.isLine_line

/-- The value is the one given last for the name. -/
def LastGiven (given : List (String × String)) (name value : String) : Prop :=
  ∃ before after, given = before ++ (name, value) :: after ∧ ∀ e ∈ after, e.1 ≠ name

/-- Of pairs that are stored one after the other the last ones for their names are listed. -/
theorem exists_line_ofList (given : List (String × String)) :
    ∃ pairs : List (String × String),
      (∀ name value, (name, value) ∈ pairs ↔ LastGiven given name value) ∧
      pairs.Pairwise (fun a b => Text.utf8 a.1 < Text.utf8 b.1) ∧
      line (.ofList given) = String.intercalate ", " (pairs.map fun e => e.1 ++ "=" ++ e.2) := by
  obtain ⟨pairs, hmem, hascending, hline⟩ := isLine_line (.ofList given)
  refine ⟨pairs, fun name value => ?_, hascending, hline⟩
  rw [hmem, KeyMap.find?_ofList_eq_some_iff_last, LastGiven]

/-- Where no name is given twice, nothing of what is given is superseded. -/
theorem lastGiven_iff_mem {given : List (String × String)} (h : (given.map (·.1)).Nodup)
    (name value : String) : LastGiven given name value ↔ (name, value) ∈ given := by
  constructor
  · rintro ⟨before, after, rfl, -⟩
    exact List.mem_append_right _ List.mem_cons_self
  · exact fun hmem => KeyMap.exists_last_of_nodup h hmem

theorem perm_of_mem_iff_lastGiven {given pairs : List (String × String)}
    (h : (given.map (·.1)).Nodup)
    (hmem : ∀ name value, (name, value) ∈ pairs ↔ LastGiven given name value)
    (hascending : pairs.Pairwise (fun a b => Text.utf8 a.1 < Text.utf8 b.1)) :
    pairs.Perm given := by
  have hnodup : pairs.Nodup := by
    refine hascending.imp ?_
    rintro e _ hlt rfl
    exact List.lt_irrefl _ hlt
  refine (List.perm_ext_iff_of_nodup hnodup h.of_map).2 fun e => ?_
  rw [hmem e.1 e.2, lastGiven_iff_mem h]

/-! ## Attributes that the line tells apart -/

/-- No name has an `=` in it, and no name or value a separator. -/
structure Separable (attributes : Attributes) : Prop where
  name : ∀ name value, attributes.find? name = some value →
    '=' ∉ name.toList ∧ ¬[',', ' '] <:+: name.toList
  value : ∀ name value, attributes.find? name = some value → ¬[',', ' '] <:+: value.toList

theorem separable_iff (attributes : Attributes) : attributes.Separable ↔
    ∀ e ∈ attributes.toList, ('=' ∉ e.1.toList ∧ ¬[',', ' '] <:+: e.1.toList) ∧
      ¬[',', ' '] <:+: e.2.toList := by
  rw [KeyMap.forall_mem_toList_iff]
  constructor
  · exact fun h name value hvalue => ⟨h.name name value hvalue, h.value name value hvalue⟩
  · exact fun h => ⟨fun name value hvalue => (h name value hvalue).1,
      fun name value hvalue => (h name value hvalue).2⟩

instance (attributes : Attributes) : Decidable attributes.Separable :=
  decidable_of_iff' _ (separable_iff attributes)

theorem toList_assignment (name value : String) :
    (name ++ "=" ++ value).toList = name.toList ++ '=' :: value.toList := by
  simp

/-- The first `=` ends the name. -/
theorem assignment_inj {name name' value value' : String} (hname : '=' ∉ name.toList)
    (hname' : '=' ∉ name'.toList) (h : name ++ "=" ++ value = name' ++ "=" ++ value') :
    name = name' ∧ value = value' := by
  have hchars := congrArg String.toList h
  rw [toList_assignment, toList_assignment] at hchars
  have hrest : ∀ cs, Text.IsRest ['='] ('=' :: cs) := fun cs => .inr (List.prefix_append ['='] cs)
  have hfirst : Text.Unbordered ['='] := by decide
  rw [← List.singleton_infix_iff] at hname hname'
  obtain ⟨hnames, hvalues⟩ := hfirst.append_inj hname hname' (hrest _) (hrest _) hchars
  exact ⟨String.toList_inj.1 hnames, String.toList_inj.1 (List.cons.inj hvalues).2⟩

/-- The parts that the line joins. -/
def pieces (attributes : Attributes) : List String :=
  attributes.toList.map fun e => e.1 ++ "=" ++ e.2

theorem mem_pieces_iff (attributes : Attributes) (piece : String) :
    piece ∈ attributes.pieces ↔
      ∃ name value, attributes.find? name = some value ∧ name ++ "=" ++ value = piece :=
  attributes.mem_map_toList_iff _ piece

section

variable {a b : Attributes} (ha : a.Separable) (hb : b.Separable)

include ha

theorem Separable.of_mem_pieces {piece : String} (hpiece : piece ∈ a.pieces) :
    piece ≠ "" ∧ ¬", ".toList <:+: piece.toList := by
  obtain ⟨name, value, hvalue, rfl⟩ := (a.mem_pieces_iff piece).1 hpiece
  constructor
  · intro hempty
    have hchars := congrArg String.toList hempty
    rw [toList_assignment] at hchars
    exact List.append_ne_nil_of_right_ne_nil _ (List.cons_ne_nil _ _) hchars
  · rw [toList_assignment]
    intro hinfix
    rcases Text.infix_of_infix_append_cons (by decide) hinfix with hinfix | hinfix
    · exact (ha.name name value hvalue).2 hinfix
    · exact ha.value name value hvalue hinfix

include hb

/-- An attribute is read off its part of the line. -/
theorem Separable.find?_of_pieces (h : a.pieces = b.pieces) {name value : String}
    (hvalue : a.find? name = some value) : b.find? name = some value := by
  have hmem : name ++ "=" ++ value ∈ b.pieces := by
    rw [← h, mem_pieces_iff]
    exact ⟨name, value, hvalue, rfl⟩
  obtain ⟨name', value', hvalue', hpiece⟩ := (b.mem_pieces_iff _).1 hmem
  have hname := (ha.name name value hvalue).1
  have hname' := (hb.name name' value' hvalue').1
  obtain ⟨rfl, rfl⟩ := assignment_inj hname' hname hpiece
  exact hvalue'

theorem Separable.eq_of_line_eq (h : a.line = b.line) : a = b := by
  have hunbordered : Text.Unbordered ", ".toList := by decide
  have hpieces : a.pieces = b.pieces :=
    Text.intercalate_inj hunbordered (fun _ => ha.of_mem_pieces) (fun _ => hb.of_mem_pieces) h
  refine KeyMap.ext_find? fun name => Option.ext fun value => ?_
  exact ⟨ha.find?_of_pieces hb hpieces, hb.find?_of_pieces ha hpieces.symm⟩

end

end Attributes

/-! ## The text that is embedded -/

theorem embeddingText_of_ne_empty (content : String) {attributes : Attributes}
    (h : attributes ≠ .empty) :
    embeddingText content attributes =
      content ++ ("\n\nExtended Attributes: " ++ attributes.line) := by
  have hentries : attributes.isEmpty = false := by
    rw [Bool.eq_false_iff]
    intro hempty
    obtain ⟨entries, _⟩ := attributes
    cases List.isEmpty_iff.1 hempty
    exact h rfl
  unfold embeddingText
  rw [hentries, if_neg Bool.false_ne_true, String.append_assoc]

theorem embeddingText_eq_content_iff (content : String) (attributes : Attributes) :
    embeddingText content attributes = content ↔ attributes = .empty := by
  constructor
  · intro h
    by_contra hne
    have hlength := congrArg String.length h
    rw [embeddingText_of_ne_empty content hne] at hlength
    simp at hlength
  · rintro rfl
    rfl

theorem Attributes.Separable.eq_of_embeddingText_eq {content : String} {a b : Attributes}
    (ha : a.Separable) (hb : b.Separable) (h : embeddingText content a = embeddingText content b) :
    a = b := by
  by_cases hempty : a = .empty ∨ b = .empty
  · rcases hempty with rfl | rfl
    · exact ((embeddingText_eq_content_iff content b).1 h.symm).symm
    · exact (embeddingText_eq_content_iff content a).1 h
  · obtain ⟨hane, hbne⟩ := not_or.1 hempty
    rw [embeddingText_of_ne_empty content hane, embeddingText_of_ne_empty content hbne] at h
    exact ha.eq_of_line_eq hb (by simpa using h)

/-- The line tells the attributes that can be told apart, and the text that is embedded with a
content tells them as well, none at all included. Whatever the attributes, their line is the one
that names each of them once, in ascending order of the bytes of the names; so of pairs that were
stored in any order it lists the last ones for their names in that order, and where no name was
given twice just the pairs. -/
theorem line_identifies_attributes :
    (∀ a b : Attributes, a.Separable → b.Separable → a.line = b.line → a = b) ∧
    (∀ (content : String) (a b : Attributes), a.Separable → b.Separable →
      embeddingText content a = embeddingText content b → a = b) ∧
    (∀ (attributes : Attributes) (line : String),
      attributes.IsLine line ↔ line = attributes.line) ∧
    ∀ given : List (String × String), ∃ pairs : List (String × String),
      (∀ name value, (name, value) ∈ pairs ↔ Attributes.LastGiven given name value) ∧
      ((given.map (·.1)).Nodup → pairs.Perm given) ∧
      pairs.Pairwise (fun a b => Text.utf8 a.1 < Text.utf8 b.1) ∧
      Attributes.line (.ofList given) =
        String.intercalate ", " (pairs.map fun e => e.1 ++ "=" ++ e.2) := by
  refine ⟨fun a b ha hb => ha.eq_of_line_eq hb, fun content a b ha hb =>
    ha.eq_of_embeddingText_eq hb, Attributes.isLine_iff, fun given => ?_⟩
  obtain ⟨pairs, hmem, hascending, hline⟩ := Attributes.exists_line_ofList given
  exact ⟨pairs, hmem, fun h => Attributes.perm_of_mem_iff_lastGiven h hmem hascending, hascending,
    hline⟩

/-- An empty name with an empty value, a name that begins with a space and values that end with a
comma. In whatever order they are given the line is the same; with the comma at the other end of a
value there is another line and another text to embed, and so there is without attributes. -/
theorem line_identifies_attributes_half_separators :
    let given := [("k", "v,"), (" k", "x=y,"), ("", "")]
    let a : Attributes := .ofList given
    let b : Attributes := .ofList [("", ""), (" k", "x=y,"), ("k", ",v")]
    let same : Attributes := .ofList given.reverse
    a.Separable ∧ b.Separable ∧ a.line = "=,  k=x=y,, k=v," ∧ b.line = "=,  k=x=y,, k=,v" ∧
      same.line = a.line ∧ same = a ∧ b.line ≠ a.line ∧
      embeddingText "c" b ≠ embeddingText "c" a ∧ embeddingText "c" .empty ≠ embeddingText "c" a ∧
      ∃ pairs : List (String × String), pairs.Perm given ∧
        a.line = String.intercalate ", " (pairs.map fun e => e.1 ++ "=" ++ e.2) := by
  intro given a b same
  have ha : a.Separable := by decide +kernel
  have hb : b.Separable := by decide +kernel
  have hsame : same.Separable := by decide +kernel
  have hnone : Attributes.Separable .empty := by decide
  have hline : same.line = a.line := by decide +kernel
  have hne : b ≠ a := by decide +kernel
  have hsome : .empty ≠ a := by decide +kernel
  have hnames : (given.map (·.1)).Nodup := by decide +kernel
  obtain ⟨hlines, htexts, -, hlisted⟩ := line_identifies_attributes
  obtain ⟨pairs, -, hperm, -, hpairs⟩ := hlisted given
  exact ⟨ha, hb, by decide +kernel, by decide +kernel, hline, hlines same a hsame ha hline,
    fun h => hne (hlines b a hb ha h), fun h => hne (htexts "c" b a hb ha h),
    fun h => hsome (htexts "c" .empty a hnone ha h), pairs, hperm hnames, hpairs⟩

end ScopedRetrieval
