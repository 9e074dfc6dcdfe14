/-
How claims are read. A text is a claim when something that is not blank stands before its first `=`
(`readClaim_eq_ok_iff`), and a list of texts is read when each of them is one; of two claims with
one key the later one counts (`claim?_ofList_iff`). Otherwise the first text that is none is
reported (`readClaims_eq_error`). A text with commas is read as the list of its pieces
(`splitAtCommas_eq_iff`), so it must not have an empty one.
-/
import ScopedRetrieval.Requester
import ScopedRetrieval.Proofs.KeyMap.Enumeration
import ScopedRetrieval.Proofs.Text.Cutting
import Mathlib.Data.List.Forall2

namespace ScopedRetrieval

/-! ## Reading one after the other -/

section

variable {α β ε : Type}

/-- A list is read when each of its elements is. -/
theorem mapM_eq_ok_iff (f : α → Except ε β) (l : List α) (r : List β) :
    l.mapM f = .ok r ↔ List.Forall₂ (fun a b => f a = .ok b) l r := by
  induction l generalizing r with
  | nil => cases r <;> simp [pure, Except.pure]
  | cons a l ih =>
    rw [List.mapM_cons]
    cases ha : f a with
    | error e => cases r <;> simp [bind, Except.bind, ha]
    | ok b =>
      cases hl : l.mapM f with
      | error e => cases r <;> simp [bind, Except.bind, ← ih, hl]
      | ok bs => cases r <;> simp [bind, Except.bind, pure, Except.pure, ← ih, hl, ha]

/-- The first element that cannot be read ends the reading. -/
theorem mapM_eq_error_iff (f : α → Except ε β) (l : List α) (e : ε) :
    l.mapM f = .error e ↔ ∃ before a after, l = before ++ a :: after ∧
      (∀ b ∈ before, ∃ y, f b = .ok y) ∧ f a = .error e := by
  induction l with
  | nil => simp [pure, Except.pure]
  | cons x l ih =>
    have hstep : (x :: l).mapM f = .error e ↔
        f x = .error e ∨ (∃ y, f x = .ok y) ∧ l.mapM f = .error e := by
      rw [List.mapM_cons]
      cases f x with
      | error e' => simp [bind, Except.bind]
      | ok y => cases l.mapM f <;> simp [bind, Except.bind, pure, Except.pure]
    rw [hstep, ih]
    constructor
    · rintro (hx | ⟨hx, before, a, after, rfl, hbefore, ha⟩)
      · exact ⟨[], x, l, rfl, by simp, hx⟩
      · exact ⟨x :: before, a, after, rfl, List.forall_mem_cons.2 ⟨hx, hbefore⟩, ha⟩
    · rintro ⟨before, a, after, hl, hbefore, ha⟩
      cases before with
      | nil =>
        cases hl
        exact .inl ha
      | cons x' before =>
        cases hl
        obtain ⟨hx, hbefore⟩ := List.forall_mem_cons.1 hbefore
        exact .inr ⟨hx, before, a, after, rfl, hbefore, ha⟩

theorem exists_of_mem_forall₂ {R : α → β → Prop} {l : List α} {r : List β}
    (h : List.Forall₂ R l r) {a : α} (ha : a ∈ l) : ∃ b ∈ r, R a b := by
  induction h with
  | nil => cases ha
  | cons hab _ ih =>
    rcases List.mem_cons.1 ha with rfl | ha
    · exact ⟨_, List.mem_cons_self, hab⟩
    · obtain ⟨b, hb, hR⟩ := ih ha
      exact ⟨b, List.mem_cons_of_mem _ hb, hR⟩

theorem split_of_forall₂ {R : α → β → Prop} {l : List α} {before after : List β} {b : β}
    (h : List.Forall₂ R l (before ++ b :: after)) :
    ∃ l₁ a l₂, l = l₁ ++ a :: l₂ ∧ R a b ∧ List.Forall₂ R l₂ after := by
  obtain ⟨a, l₂, hab, hafter, hdrop⟩ :=
    List.forall₂_cons_right_iff.1 (List.forall₂_drop_append l before (b :: after) h)
  refine ⟨l.take before.length, a, l₂, ?_, hab, hafter⟩
  rw [← hdrop, List.take_append_drop]

end

namespace Requester

/-! ## One claim -/

/-- The first `=` of a text stands between the other two. -/
structure Divides (text before after : String) : Prop where
  joined : text = before ++ "=" ++ after
  first : '=' ∉ before.toList

/-- The text gives the key and the value, which white space may surround; the key is not blank. -/
def Claims (text key value : String) : Prop :=
  ∃ before after, Divides text before after ∧ Text.isBlank before = false ∧
    Text.trim before = key ∧ Text.trim after = value

/-- Something that is not blank stands before the first `=` of the text. -/
def IsClaim (text : String) : Prop :=
  ∃ before after, Divides text before after ∧ Text.isBlank before = false

theorem isClaim_iff (text : String) : IsClaim text ↔ ∃ key value, Claims text key value := by
  constructor
  · rintro ⟨before, after, hdivides, hblank⟩
    exact ⟨_, _, before, after, hdivides, hblank, rfl, rfl⟩
  · rintro ⟨_, _, before, after, hdivides, hblank, -⟩
    exact ⟨before, after, hdivides, hblank⟩

theorem splitClaim_eq_none_iff (text : String) :
    splitClaim text.toList = none ↔ '=' ∉ text.toList := by
  unfold splitClaim
  cases hrest : text.toList.dropWhile (· ≠ '=') with
  | nil =>
    rw [List.dropWhile_eq_nil_iff] at hrest
    refine iff_of_true rfl fun hmem => ?_
    simpa using hrest '=' hmem
  | cons c rest =>
    refine iff_of_false nofun (not_not_intro ?_)
    have hc := List.head?_dropWhile_not (fun c : Char => decide (c ≠ '=')) text.toList
    rw [hrest] at hc
    have hc : c = '=' := by simpa using hc
    have hmem : c ∈ text.toList.dropWhile (· ≠ '=') := by
      rw [hrest]
      exact List.mem_cons_self
    exact hc ▸ (List.dropWhile_sublist _).subset hmem

theorem splitClaim_eq_some_iff (text before after : String) :
    splitClaim text.toList = some (before.toList, after.toList) ↔ Divides text before after := by
  have hjoined : (before ++ "=" ++ after).toList = before.toList ++ '=' :: after.toList := by
    simp
  constructor
  · intro h
    have hparts := List.takeWhile_append_dropWhile (p := (· ≠ '=')) (l := text.toList)
    have hhead := List.head?_dropWhile_not (fun c : Char => decide (c ≠ '=')) text.toList
    unfold splitClaim at h
    cases hrest : text.toList.dropWhile (· ≠ '=') with
    | nil =>
      rw [hrest] at h
      cases h
    | cons c rest =>
      rw [hrest] at h hparts hhead
      obtain ⟨hbefore, hafter⟩ := Prod.mk.inj (Option.some.inj h)
      have hc : c = '=' := by simpa using hhead
      constructor
      case joined =>
        rw [← String.toList_inj, hjoined, ← hbefore, ← hafter]
        rw [hc] at hparts
        exact hparts.symm
      case first =>
        rw [← hbefore]
        intro hmem
        simpa using List.mem_takeWhile_imp hmem
  · rintro ⟨rfl, hfirst⟩
    have hbefore : ∀ c ∈ before.toList, decide (c ≠ '=') = true := by
      intro c hc
      rw [decide_eq_true_eq]
      rintro rfl
      exact hfirst hc
    unfold splitClaim
    rw [hjoined, List.dropWhile_append_of_pos hbefore, List.takeWhile_append_of_pos hbefore]
    simp

theorem readClaim_eq_ok_iff (text key value : String) :
    readClaim text = .ok (key, value) ↔ Claims text key value := by
  unfold readClaim Claims
  constructor
  · intro h
    split at h
    · cases h
    rename_i before after hsplit
    split at h
    · cases h
    rename_i hblank
    cases h
    refine ⟨.ofList before, .ofList after, (splitClaim_eq_some_iff ..).1 ?_, ?_, ?_, ?_⟩
    · rw [hsplit, String.toList_ofList, String.toList_ofList]
    · unfold Text.isBlank
      rw [String.toList_ofList, Bool.eq_false_iff]
      exact hblank
    all_goals
      unfold Text.trim
      rw [String.toList_ofList]
  · rintro ⟨before, after, hdivides, hblank, rfl, rfl⟩
    rw [(splitClaim_eq_some_iff ..).2 hdivides]
    exact if_neg (Bool.eq_false_iff.1 hblank)

/-- Why a text is no claim, as it is told. -/
def Faulty (text message : String) : Prop :=
  '=' ∉ text.toList ∧ message = "Expected key=value, got '" ++ text ++ "'" ∨
    ∃ before after, Divides text before after ∧ Text.isBlank before = true ∧
      message = "Empty key in '" ++ text ++ "'"

theorem faulty_of_readClaim {text : String} {fault : ClaimFault}
    (h : readClaim text = .error fault) : Faulty text fault.message := by
  unfold readClaim at h
  split at h
  · rename_i hsplit
    cases h
    exact .inl ⟨(splitClaim_eq_none_iff text).1 hsplit, rfl⟩
  rename_i before after hsplit
  split at h
  · rename_i hblank
    cases h
    refine .inr ⟨.ofList before, .ofList after, (splitClaim_eq_some_iff ..).1 ?_, ?_, rfl⟩
    · rw [hsplit, String.toList_ofList, String.toList_ofList]
    · unfold Text.isBlank
      rw [String.toList_ofList]
      exact hblank
  · cases h

/-! ## A list of claims -/

theorem readClaims_eq_ok_iff (texts : List String) (r : Requester) :
    readClaims texts = .ok r ↔ ∃ claims : List (String × String),
      List.Forall₂ (fun text e => Claims text e.1 e.2) texts claims ∧ ofList claims = r := by
  have hread : ∀ claims, texts.mapM readClaim = .ok claims ↔
      List.Forall₂ (fun text e => Claims text e.1 e.2) texts claims := by
    intro claims
    simp only [mapM_eq_ok_iff, ← readClaim_eq_ok_iff]
  unfold readClaims
  cases h : texts.mapM readClaim with
  | error fault =>
    refine iff_of_false nofun ?_
    rintro ⟨claims, hclaims, -⟩
    rw [(hread claims).2 hclaims] at h
    cases h
  | ok claims =>
    constructor
    · intro heq
      exact ⟨claims, (hread claims).1 h, Except.ok.inj heq⟩
    · rintro ⟨claims', hclaims, rfl⟩
      rw [(hread claims').2 hclaims] at h
      rw [← Except.ok.inj h]
      rfl

theorem exists_readClaims_eq_ok_iff (texts : List String) :
    (∃ r, readClaims texts = .ok r) ↔ ∀ text ∈ texts, IsClaim text := by
  simp only [readClaims_eq_ok_iff, isClaim_iff]
  constructor
  · rintro ⟨r, claims, hclaims, -⟩ text htext
    obtain ⟨e, -, he⟩ := exists_of_mem_forall₂ hclaims htext
    exact ⟨e.1, e.2, he⟩
  · intro hall
    suffices h : ∃ claims : List (String × String),
        List.Forall₂ (fun text e => Claims text e.1 e.2) texts claims by
      obtain ⟨claims, hclaims⟩ := h
      exact ⟨_, claims, hclaims, rfl⟩
    induction texts with
    | nil => exact ⟨[], .nil⟩
    | cons text rest ih =>
      obtain ⟨⟨key, value, htext⟩, hrest⟩ := List.forall_mem_cons.1 hall
      obtain ⟨claims, hclaims⟩ := ih hrest
      exact ⟨(key, value) :: claims, .cons htext hclaims⟩

/-- The text is the first one that is no claim. -/
theorem readClaims_eq_error {texts : List String} {fault : ClaimFault}
    (h : readClaims texts = .error fault) : ∃ before text after, texts = before ++ text :: after ∧
      (∀ t ∈ before, IsClaim t) ∧ Faulty text fault.message := by
  have hread : texts.mapM readClaim = .error fault := by
    unfold readClaims at h
    cases hmap : texts.mapM readClaim with
    | error fault' =>
      rw [hmap] at h
      exact congrArg Except.error (Except.error.inj h)
    | ok claims =>
      rw [hmap] at h
      cases h
  obtain ⟨before, text, after, htexts, hbefore, htext⟩ := (mapM_eq_error_iff _ _ _).1 hread
  refine ⟨before, text, after, htexts, fun t ht => ?_, faulty_of_readClaim htext⟩
  obtain ⟨⟨key, value⟩, hclaim⟩ := hbefore t ht
  exact (isClaim_iff t).2 ⟨key, value, (readClaim_eq_ok_iff ..).1 hclaim⟩

theorem Claims.unique {text key value key' value' : String} (h : Claims text key value)
    (h' : Claims text key' value') : key = key' ∧ value = value' := by
  rw [← readClaim_eq_ok_iff] at h h'
  exact Prod.mk.inj (Except.ok.inj (h.symm.trans h'))

/-- The last of the texts that gives the key gives it the value. -/
def LastClaim (texts : List String) (key value : String) : Prop :=
  ∃ before text after, texts = before ++ text :: after ∧ Claims text key value ∧
    ∀ other ∈ after, ∀ value', ¬Claims other key value'

theorem claim?_ofList_iff {texts : List String} {claims : List (String × String)}
    (h : List.Forall₂ (fun text e => Claims text e.1 e.2) texts claims) (key value : String) :
    (ofList claims).claim? key = some value ↔ LastClaim texts key value := by
  show (KeyMap.ofList claims).find? key = some value ↔ _
  rw [KeyMap.find?_ofList_eq_some_iff_last]
  constructor
  · rintro ⟨before, after, rfl, hlast⟩
    obtain ⟨front, text, back, rfl, htext, hback⟩ := split_of_forall₂ h
    refine ⟨front, text, back, rfl, htext, fun other hother value' hclaims => ?_⟩
    obtain ⟨e, he, heother⟩ := exists_of_mem_forall₂ hback hother
    exact hlast e he (heother.unique hclaims).1
  · rintro ⟨front, text, back, rfl, htext, hlast⟩
    obtain ⟨before, e, after, rfl, he, hafter⟩ := split_of_forall₂ h.flip
    obtain ⟨rfl, rfl⟩ := Claims.unique he htext
    refine ⟨before, after, rfl, fun e' he' heq => ?_⟩
    obtain ⟨other, hother, hclaims⟩ := exists_of_mem_forall₂ hafter he'
    exact hlast other hother e'.2 (heq ▸ hclaims)

/-- The keys of the claims that are read are those that some text gives. -/
theorem presents_ofList_iff {texts : List String} {claims : List (String × String)}
    (h : List.Forall₂ (fun text e => Claims text e.1 e.2) texts claims) (key : String) :
    (ofList claims).presents key = true ↔ ∃ text ∈ texts, ∃ value, Claims text key value := by
  show ((KeyMap.ofList claims).find? key).isSome = true ↔ _
  rw [Option.isSome_iff_exists, ← KeyMap.mem_keys_iff, KeyMap.mem_keys_ofList_iff, List.mem_map]
  constructor
  · rintro ⟨e, he, rfl⟩
    obtain ⟨text, htext, hclaims⟩ := exists_of_mem_forall₂ h.flip he
    exact ⟨text, htext, e.2, hclaims⟩
  · rintro ⟨text, htext, value, hclaims⟩
    obtain ⟨e, he, heclaims⟩ := exists_of_mem_forall₂ h htext
    exact ⟨e, he, (Claims.unique heclaims hclaims).1⟩

/-- What can stand as the key of a claim. -/
structure IsKey (key : String) : Prop where
  ne_empty : key ≠ ""
  trimmed : Text.Trimmed key
  noSeparator : '=' ∉ key.toList

theorem Claims.isKey {text key value : String} (h : Claims text key value) : IsKey key := by
  obtain ⟨before, after, hdivides, hblank, rfl, -⟩ := h
  constructor
  case ne_empty =>
    intro hempty
    rw [(Text.isBlank_iff before).2 hempty] at hblank
    cases hblank
  case trimmed => exact Text.trimmed_trim before
  case noSeparator => exact fun hmem => hdivides.first (Text.mem_of_mem_trim hmem)

/-! ## Claims between commas -/

/-- The pieces of a text between its commas. -/
structure Pieces (text : String) (pieces : List String) : Prop where
  ne_nil : pieces ≠ []
  noComma : ∀ piece ∈ pieces, ',' ∉ piece.toList
  joined : String.intercalate "," pieces = text

theorem splitAtCommas_append (s t : String) :
    splitAtCommas (s ++ "," ++ t) = splitAtCommas s ++ splitAtCommas t := by
  have hjoined : (s ++ "," ++ t).toList = s.toList ++ ',' :: t.toList := by simp
  unfold splitAtCommas
  rw [hjoined, List.splitOn_append_cons_self, List.map_append]

theorem pieces_splitAtCommas (text : String) : Pieces text (splitAtCommas text) := by
  unfold splitAtCommas
  constructor
  case ne_nil => exact fun h => List.splitOn_ne_nil _ _ (List.map_eq_nil_iff.1 h)
  case noComma =>
    intro piece hpiece
    obtain ⟨cs, hcs, rfl⟩ := List.mem_map.1 hpiece
    rw [String.toList_ofList]
    exact Text.notMem_of_mem_splitOn hcs
  case joined =>
    rw [← String.toList_inj, String.toList_intercalate, List.map_map]
    have hchars : ((text.toList.splitOn ',').map (String.toList ∘ String.ofList)) =
        text.toList.splitOn ',' := by
      simp [Function.comp_def]
    rw [hchars]
    exact List.intercalate_splitOn ','

theorem splitAtCommas_eq_iff (text : String) (pieces : List String) :
    splitAtCommas text = pieces ↔ Pieces text pieces := by
  constructor
  · rintro rfl
    exact pieces_splitAtCommas text
  · rintro ⟨hne, hcomma, rfl⟩
    unfold splitAtCommas
    rw [String.toList_intercalate]
    have hsplit : List.splitOn ',' ([','].intercalate (pieces.map String.toList)) =
        pieces.map String.toList := by
      refine List.splitOn_intercalate ',' (fun cs hcs => ?_) (by simpa using hne)
      obtain ⟨piece, hpiece, rfl⟩ := List.mem_map.1 hcs
      exact hcomma piece hpiece
    show (List.splitOn ',' ([','].intercalate _)).map _ = _
    rw [hsplit, List.map_map]
    simp [Function.comp_def]

/-- A comma with nothing before it, behind it or between it and another one makes an empty piece. -/
theorem empty_mem_splitAtCommas {text before after : String}
    (h : text = "," ++ after ∨ text = before ++ "," ∨ text = before ++ ",," ++ after) :
    "" ∈ splitAtCommas text := by
  have hempty : splitAtCommas "" = [""] := rfl
  rcases h with rfl | rfl | rfl
  · have hsplit := splitAtCommas_append "" after
    rw [String.empty_append, hempty] at hsplit
    rw [hsplit]
    exact List.mem_append_left _ (List.mem_singleton_self _)
  · have hsplit := splitAtCommas_append before ""
    rw [String.append_empty, hempty] at hsplit
    rw [hsplit]
    exact List.mem_append_right _ (List.mem_singleton_self _)
  · have hjoined : before ++ ",," ++ after = before ++ "," ++ ("" ++ "," ++ after) := by
      rw [← String.toList_inj]
      simp
    rw [hjoined, splitAtCommas_append, splitAtCommas_append, hempty]
    exact List.mem_append_right _ (List.mem_append_left _ (List.mem_singleton_self _))

/-- A text with an empty piece beside others holds a text that is no claim. -/
theorem exists_parse_eq_error {text : String} (hcomma : ',' ∈ text.toList)
    (hempty : "" ∈ splitAtCommas text) : ∃ fault, parse text = .error fault := by
  have hblank : Text.isBlank text = false :=
    Text.isBlank_eq_false_of_mem hcomma (by decide)
  unfold parse
  rw [hblank, if_neg Bool.false_ne_true]
  cases hread : readClaims (splitAtCommas text) with
  | error fault => exact ⟨fault, rfl⟩
  | ok r =>
    obtain ⟨before, after, ⟨hjoined, -⟩, -⟩ :=
      (exists_readClaims_eq_ok_iff _).1 ⟨r, hread⟩ "" hempty
    have := congrArg String.toList hjoined
    simp at this

/-! ## The grammar of claims -/

/-- Texts are read exactly when each has something that is not blank before its first `=`. What is
read then has the keys that the texts give, each with what the last text with that key gives it, and
otherwise the first text that is no claim is reported. A text with commas is read as the list of its
pieces, a blank one as no claims at all; so a comma at either end and two of them in a row are
refused. -/
theorem claims_read_by_grammar (texts : List String) (text : String) :
    ((∃ r, readClaims texts = .ok r) ↔
      ∀ t ∈ texts, ∃ before after, Divides t before after ∧ Text.isBlank before = false) ∧
    (∀ r, readClaims texts = .ok r →
      (∀ key, r.presents key = true ↔ ∃ t ∈ texts, ∃ value, Claims t key value) ∧
      (∀ key value, r.claim? key = some value ↔ LastClaim texts key value) ∧
      ∀ key, r.presents key = true → IsKey key) ∧
    (∀ fault, readClaims texts = .error fault → ∃ before t after, texts = before ++ t :: after ∧
      (∀ t' ∈ before, IsClaim t') ∧ Faulty t fault.message) ∧
    (∃ pieces, (∀ other, Pieces text other ↔ pieces = other) ∧
      parse text = if Text.isBlank text then .ok anonymous else readClaims pieces) ∧
    ∀ before after, text = "," ++ after ∨ text = before ++ "," ∨ text = before ++ ",," ++ after →
      ∃ fault, parse text = .error fault := by
  refine ⟨exists_readClaims_eq_ok_iff texts, fun r hr => ?_, fun fault => readClaims_eq_error,
    ⟨splitAtCommas text, fun other => (splitAtCommas_eq_iff text other).symm, rfl⟩,
    fun before after h => ?_⟩
  · obtain ⟨claims, hclaims, rfl⟩ := (readClaims_eq_ok_iff texts r).1 hr
    refine ⟨presents_ofList_iff hclaims, claim?_ofList_iff hclaims, fun key hkey => ?_⟩
    obtain ⟨t, -, value, ht⟩ := (presents_ofList_iff hclaims key).1 hkey
    exact ht.isKey
  · have hcomma : ',' ∈ text.toList := by
      rcases h with rfl | rfl | rfl <;> simp
    exact exists_parse_eq_error hcomma (empty_mem_splitAtCommas h)

/-- A key that is given twice, once behind an em space, and a value with a separator in it; a list
whose second text has a blank key; and a text with two commas in a row. -/
theorem claims_read_by_grammar_given_twice :
    let texts := ["user = 7=8 ", "team=", "\u2003user=9\t"]
    let r : Requester := .ofList [("team", ""), ("user", "9")]
    readClaims texts = .ok r ∧ LastClaim texts "user" "9" ∧ IsKey "user" ∧
      (∃ before t after, ["a=1", " =2", "b"] = before ++ t :: after ∧
        (∀ t' ∈ before, IsClaim t') ∧ Faulty t "Empty key in ' =2'") ∧
      ∃ fault, parse "a=1,,b=2" = .error fault := by
  intro texts r
  have hr : readClaims texts = .ok r := by decide +kernel
  obtain ⟨-, hread, -⟩ := claims_read_by_grammar texts ""
  obtain ⟨-, -, hfault, -, hcommas⟩ := claims_read_by_grammar ["a=1", " =2", "b"] "a=1,,b=2"
  obtain ⟨-, hlast, hkeys⟩ := hread r hr
  exact ⟨hr, (hlast "user" "9").1 (by decide +kernel), hkeys "user" (by decide +kernel),
    hfault (.emptyKey " =2") (by decide +kernel), hcommas "a=1" "b=2" (by decide)⟩

end Requester

end ScopedRetrieval
