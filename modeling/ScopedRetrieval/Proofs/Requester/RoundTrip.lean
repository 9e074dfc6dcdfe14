/-
Claims in a text and back. The claims of a requester can be written in any order, with white space
around keys and values, and are read as what they are when no key and no value has a character in it
that cuts it off (`parse_of_written`). The requesters that are read from texts are just those whose
claims can be written so (`expressible_of_parse`).
-/
import ScopedRetrieval.Proofs.Requester.Reading

namespace ScopedRetrieval.Requester

/-! ## Writing -/

/-- The text is the key and the value with an `=` between them and white space around each. -/
def Padded (key value text : String) : Prop :=
  ∃ a b c d, Text.isBlank a = true ∧ Text.isBlank b = true ∧ Text.isBlank c = true ∧
    Text.isBlank d = true ∧ text = (a ++ key ++ b) ++ "=" ++ (c ++ value ++ d)

/-- The text joins the claims of a requester with commas, in some order. -/
def Written (r : Requester) (text : String) : Prop :=
  ∃ claims pieces, claims.Perm r.claims.toList ∧
    List.Forall₂ (fun (e : String × String) piece => Padded e.1 e.2 piece) claims pieces ∧
    text = String.intercalate "," pieces

/-- The claims with commas between them, in the order of their keys. -/
def write (r : Requester) : String :=
  String.intercalate "," (r.claims.toList.map fun e => e.1 ++ "=" ++ e.2)

theorem written_write (r : Requester) : r.Written r.write := by
  refine ⟨r.claims.toList, _, .rfl, ?_, rfl⟩
  rw [List.forall₂_map_right_iff, List.forall₂_same]
  intro e _
  exact ⟨"", "", "", "", rfl, rfl, rfl, rfl, by simp⟩

/-- A text without a comma, and without white space at its ends. -/
structure Plain (text : String) : Prop where
  trimmed : Text.Trimmed text
  noComma : ',' ∉ text.toList

/-- The claims can be told apart in a text. -/
structure Expressible (r : Requester) : Prop where
  key : ∀ key value, r.claim? key = some value → key ≠ "" ∧ '=' ∉ key.toList ∧ Plain key
  value : ∀ key value, r.claim? key = some value → Plain value

/-! ## Reading what was written -/

theorem notMem_of_isBlank {text : String} (h : Text.isBlank text = true) {c : Char}
    (hc : Text.isBlankChar c = false) : c ∉ text.toList := by
  intro hmem
  rw [Text.isBlank_eq_false_of_mem hmem hc] at h
  cases h

/-- What is written for a claim is that claim. -/
theorem claims_iff_padded (text key value : String) :
    Claims text key value ↔ IsKey key ∧ Text.Trimmed value ∧ Padded key value text := by
  constructor
  · intro h
    refine ⟨h.isKey, ?_⟩
    obtain ⟨before, after, ⟨rfl, -⟩, -, hkey, hvalue⟩ := h
    obtain ⟨-, a, b, ha, hb, rfl⟩ := (Text.trim_eq_iff before key).1 hkey
    obtain ⟨htrimmed, c, d, hc, hd, rfl⟩ := (Text.trim_eq_iff after value).1 hvalue
    exact ⟨htrimmed, a, b, c, d, ha, hb, hc, hd, rfl⟩
  · rintro ⟨hkey, hvalue, a, b, c, d, ha, hb, hc, hd, rfl⟩
    have htrim : Text.trim (a ++ key ++ b) = key :=
      (Text.trim_eq_iff ..).2 ⟨hkey.trimmed, a, b, ha, hb, rfl⟩
    refine ⟨_, _, ⟨rfl, ?_⟩, ?_, htrim, (Text.trim_eq_iff ..).2 ⟨hvalue, c, d, hc, hd, rfl⟩⟩
    · have ha := notMem_of_isBlank ha (c := '=') (by decide)
      have hb := notMem_of_isBlank hb (c := '=') (by decide)
      simp [ha, hb, hkey.noSeparator]
    · rw [Bool.eq_false_iff, Ne, Text.isBlank_iff, htrim]
      exact hkey.ne_empty

theorem noComma_of_padded {key value text : String} (hkey : Plain key) (hvalue : Plain value)
    (h : Padded key value text) : ',' ∉ text.toList := by
  obtain ⟨a, b, c, d, ha, hb, hc, hd, rfl⟩ := h
  have hblank : ∀ s, Text.isBlank s = true → ',' ∉ s.toList := fun s hs =>
    notMem_of_isBlank hs (by decide)
  simp [hblank a ha, hblank b hb, hblank c hc, hblank d hd, hkey.noComma, hvalue.noComma]

theorem isBlank_intercalate {piece : String} (hpiece : '=' ∈ piece.toList) (rest : List String) :
    Text.isBlank (String.intercalate "," (piece :: rest)) = false := by
  refine Text.isBlank_eq_false_of_mem (c := '=') ?_ (by decide)
  cases rest with
  | nil => rwa [String.intercalate_singleton]
  | cons next rest =>
    rw [String.intercalate_cons_cons]
    simp [hpiece]

section

variable {r : Requester} (h : r.Expressible) {claims : List (String × String)}
  {pieces : List String} (hmem : ∀ e ∈ claims, r.claim? e.1 = some e.2)
  (hpadded : List.Forall₂ (fun (e : String × String) piece => Padded e.1 e.2 piece) claims pieces)

include h hmem hpadded

theorem noComma_of_mem_pieces : ∀ piece ∈ pieces, ',' ∉ piece.toList := by
  intro piece hpiece
  obtain ⟨e, he, hepiece⟩ := exists_of_mem_forall₂ hpadded.flip hpiece
  have hclaim := hmem e he
  exact noComma_of_padded (h.key _ _ hclaim).2.2 (h.value _ _ hclaim) hepiece

theorem claims_pieces : List.Forall₂ (fun text e => Claims text e.1 e.2) pieces claims := by
  induction hpadded with
  | nil => exact .nil
  | @cons e piece claims pieces hpiece hrest ih =>
    obtain ⟨he, hclaims⟩ := List.forall_mem_cons.1 hmem
    obtain ⟨hempty, hseparator, hplain⟩ := h.key _ _ he
    refine .cons ((claims_iff_padded ..).2 ⟨?_, (h.value _ _ he).trimmed, hpiece⟩) (ih hclaims)
    exact ⟨hempty, hplain.trimmed, hseparator⟩

end

/-- Whatever the order of the claims and the white space around keys and values, they are read. -/
theorem parse_of_written {r : Requester} (h : r.Expressible) {text : String}
    (htext : r.Written text) : parse text = .ok r := by
  obtain ⟨claims, pieces, hperm, hpadded, rfl⟩ := htext
  have hr : ofList claims = r := congrArg Requester.mk (KeyMap.ofList_eq_of_perm hperm)
  have hmem : ∀ e ∈ claims, r.claim? e.1 = some e.2 := fun e he =>
    (r.claims.mem_entries_iff e.1 e.2).1 (hperm.mem_iff.1 he)
  have hclaims := claims_pieces h hmem hpadded
  cases pieces with
  | nil =>
    cases hclaims
    rw [← hr]
    rfl
  | cons piece rest =>
    -- there is no comma in any of the pieces, so these are the ones that the text is cut into
    have hpieces : splitAtCommas (String.intercalate "," (piece :: rest)) = piece :: rest :=
      (splitAtCommas_eq_iff ..).2
        ⟨List.cons_ne_nil _ _, noComma_of_mem_pieces h hmem hpadded, rfl⟩
    obtain ⟨e, -, before, after, ⟨hjoined, -⟩, -⟩ :=
      exists_of_mem_forall₂ hclaims (List.mem_cons_self (a := piece))
    have hseparator : '=' ∈ piece.toList := by simp [hjoined]
    unfold parse
    rw [isBlank_intercalate hseparator, if_neg Bool.false_ne_true, hpieces]
    exact (readClaims_eq_ok_iff ..).2 ⟨claims, hclaims, hr⟩

/-! ## Writing what was read -/

theorem plain_trim {text piece : String} (hpiece : ',' ∉ piece.toList)
    (hmem : ∀ c ∈ text.toList, c ∈ piece.toList) : Plain (Text.trim text) :=
  ⟨Text.trimmed_trim text, fun hcomma => hpiece (hmem _ (Text.mem_of_mem_trim hcomma))⟩

/-- Only claims that can be told apart are read from a text. -/
theorem expressible_of_parse {text : String} {r : Requester} (h : parse text = .ok r) :
    r.Expressible := by
  unfold parse at h
  split at h
  · cases h
    exact ⟨nofun, nofun⟩
  have hclaim : ∀ key value, r.claim? key = some value →
      ∃ piece, ',' ∉ piece.toList ∧ Claims piece key value := by
    intro key value hvalue
    obtain ⟨claims, hclaims, rfl⟩ := (readClaims_eq_ok_iff ..).1 h
    obtain ⟨_, piece, _, hpieces, hpiece, -⟩ := (claim?_ofList_iff hclaims key value).1 hvalue
    refine ⟨piece, (pieces_splitAtCommas text).noComma piece ?_, hpiece⟩
    rw [hpieces]
    exact List.mem_append_right _ List.mem_cons_self
  constructor
  case key =>
    intro key value hvalue
    obtain ⟨piece, hcomma, hpiece⟩ := hclaim key value hvalue
    obtain ⟨hempty, -, hseparator⟩ := hpiece.isKey
    obtain ⟨before, after, ⟨hjoined, -⟩, -, rfl, -⟩ := hpiece
    exact ⟨hempty, hseparator, plain_trim hcomma fun c hc => by simp [hjoined, hc]⟩
  case value =>
    intro key value hvalue
    obtain ⟨piece, hcomma, before, after, ⟨hjoined, -⟩, -, -, rfl⟩ := hclaim key value hvalue
    exact plain_trim hcomma fun c hc => by simp [hjoined, hc]

/-- Claims whose keys and values can be told apart are read back from every text that joins them,
in whatever order and with whatever white space; without claims that is the empty text. They are the
only claims that are read from texts, so what was read from one can be written and is read again. -/
theorem written_claims_read_back (r : Requester) :
    (r.Expressible → ∀ text, r.Written text → parse text = .ok r) ∧
    (∀ text, parse text = .ok r →
      r.Expressible ∧ r.Written r.write ∧ parse r.write = .ok r) ∧
    (r.Expressible ↔ ∃ text, parse text = .ok r) := by
  refine ⟨fun h text => parse_of_written h, fun text htext => ?_, fun h => ?_, ?_⟩
  · have h := expressible_of_parse htext
    exact ⟨h, r.written_write, parse_of_written h r.written_write⟩
  · exact ⟨r.write, parse_of_written h r.written_write⟩
  · rintro ⟨text, htext⟩
    exact expressible_of_parse htext

/-- Two claims, one of them with an empty value and the other with separators in its value, in
descending order of their keys and with tabs and wide spaces between them; the text is read, and
what was read is written in ascending order and read again. -/
theorem written_claims_read_back_padded :
    let r : Requester := .ofList [("a b", ""), ("k", "=x= y")]
    let text := "\tk\u3000= =x= y ,\u00A0a b="
    r.Written text ∧ r.Expressible ∧ parse text = .ok r ∧ r.write = "a b=,k==x= y" ∧
      parse r.write = .ok r ∧ anonymous.Written "" ∧ parse "" = .ok anonymous := by
  intro r text
  have hperm : [("k", "=x= y"), ("a b", "")].Perm r.claims.toList := by decide +kernel
  have hwritten : r.Written text :=
    ⟨_, ["\tk\u3000= =x= y ", "\u00A0a b="], hperm,
      .cons ⟨"\t", "\u3000", " ", " ", by decide +kernel⟩
        (.cons ⟨"\u00A0", "", "", "", by decide +kernel⟩ .nil), by decide +kernel⟩
  obtain ⟨hread, hagain, hexpressible⟩ := written_claims_read_back r
  have hr : r.Expressible := hexpressible.2 ⟨"k==x= y,a b=", by decide +kernel⟩
  have hparse := hread hr text hwritten
  obtain ⟨hnobody, -⟩ := written_claims_read_back anonymous
  exact ⟨hwritten, hr, hparse, by decide +kernel, (hagain text hparse).2.2,
    anonymous.written_write, hnobody ⟨nofun, nofun⟩ "" anonymous.written_write⟩

end ScopedRetrieval.Requester
