/-
Keys and paths are read back as they were written: a bare key up to the first character that is not
bare, a quoted one up to its quote (`readKey_writeKey`), and a path key by key
(`readPath_writePath`).
-/
import ScopedRetrieval.Toml.Key
import ScopedRetrieval.Proofs.Toml.Quoted

namespace ScopedRetrieval.Toml

/-- What follows a key: its first character is not a bare one. -/
def EndsKey (rest : List Char) : Prop := ∀ c ∈ rest.head?, isBare c = false

/-- The characters that keys begin with. -/
def startsKey (c : Char) : Bool := isBare c || c = '"' || c = '\''

/-! ## Keys -/

theorem readKey_bare {cs rest : List Char} (hne : cs ≠ []) (hbare : ∀ c ∈ cs, isBare c = true)
    (hrest : EndsKey rest) : readKey (cs ++ rest) = some (.ofList cs, rest) := by
  obtain ⟨c, cs, rfl⟩ := List.exists_cons_of_ne_nil hne
  rw [List.forall_mem_cons] at hbare
  have htake : rest.takeWhile isBare = [] := by
    cases rest with
    | nil => rfl
    | cons d rest => rw [List.takeWhile_cons, hrest d rfl]; rfl
  have hdrop : rest.dropWhile isBare = rest := by
    cases rest with
    | nil => rfl
    | cons d rest => rw [List.dropWhile_cons, hrest d rfl]; rfl
  show (if isBare c then some (String.ofList (c :: (cs ++ rest).takeWhile isBare),
    (cs ++ rest).dropWhile isBare) else _) = _
  rw [if_pos hbare.1, List.takeWhile_append_of_pos hbare.2, List.dropWhile_append_of_pos hbare.2,
    htake, hdrop, List.append_nil]

theorem readKey_quote {quote : Char} (hquote : isBare quote = false) (cs : List Char) :
    readKey (quote :: cs) = readQuotedLine (quote :: cs) :=
  if_neg (by simp [hquote])

/-- A key reads back as it was written. -/
theorem readKey_writeKey (s : String) {rest : List Char} (hrest : EndsKey rest) :
    readKey ((writeKey s).toList ++ rest) = some (s, rest) := by
  have hs : String.ofList s.toList = s := String.ofList_toList
  have hbasic : readKey (basicLine s.toList ++ rest) = some (s, rest) := by
    rw [← hs]
    exact (readKey_quote (by decide) _).trans (by
      rw [String.toList_ofList]; exact readQuotedLine_basicLine _ _)
  unfold writeKey
  rw [String.toList_ofList]
  split
  · rename_i hbare
    rw [List.all_eq_true] at hbare
    rw [readKey_bare (by simpa using hbare.1) hbare.2 hrest, hs]
  split
  · exact hbasic
  split
  · rename_i hfits
    obtain ⟨htext, hquote⟩ := fits_of_fitsLine hfits
    refine (readKey_quote (by decide) _).trans ?_
    rw [← hs, String.toList_ofList]
    exact readQuotedLine_literalLine htext hquote _
  · exact hbasic

theorem writeKey_eq_cons (s : String) :
    ∃ c tail, (writeKey s).toList = c :: tail ∧ startsKey c = true := by
  unfold writeKey
  rw [String.toList_ofList]
  split
  · rename_i hbare
    obtain ⟨c, cs, hcs⟩ := List.exists_cons_of_ne_nil (l := s.toList) (by simpa using hbare.1)
    rw [hcs, List.all_eq_true] at hbare
    exact ⟨c, cs, hcs, by simp [startsKey, hbare.2 c List.mem_cons_self]⟩
  split
  · exact ⟨_, _, rfl, by decide⟩
  split
  · exact ⟨_, _, rfl, by decide⟩
  · exact ⟨_, _, rfl, by decide⟩

theorem skipSpaces_cons {c : Char} (h : isSpace c = false) (cs : List Char) :
    skipSpaces (c :: cs) = c :: cs := by
  unfold skipSpaces
  rw [List.dropWhile_cons, h]
  rfl

theorem isSpace_eq_false_of_startsKey {c : Char} (h : startsKey c = true) : isSpace c = false := by
  rw [isSpace, Bool.or_eq_false_iff, decide_eq_false_iff_not, decide_eq_false_iff_not]
  constructor
  all_goals
    rintro rfl
    exact absurd h (by decide)

theorem skipSpaces_writeKey (s : String) (rest : List Char) :
    skipSpaces ((writeKey s).toList ++ rest) = (writeKey s).toList ++ rest := by
  obtain ⟨c, tail, hkey, hc⟩ := writeKey_eq_cons s
  rw [hkey]
  exact skipSpaces_cons (isSpace_eq_false_of_startsKey hc) _

/-! ## Paths -/

theorem toList_writePath_cons_cons (key next : String) (path : List String) :
    (writePath (key :: next :: path)).toList =
      (writeKey key).toList ++ '.' :: (writePath (next :: path)).toList := by
  unfold writePath
  rw [List.map_cons, List.map_cons, String.intercalate_cons_cons, String.toList_append,
    String.toList_append, List.append_assoc, ← List.map_cons]
  rfl

theorem toList_writePath_singleton (key : String) :
    (writePath [key]).toList = (writeKey key).toList := by
  unfold writePath
  rw [List.map_singleton, String.intercalate_singleton]

theorem writePath_eq_cons {path : List String} (hne : path ≠ []) :
    ∃ c tail, (writePath path).toList = c :: tail ∧ startsKey c = true := by
  obtain ⟨key, path, rfl⟩ := List.exists_cons_of_ne_nil hne
  obtain ⟨c, tail, hkey, hc⟩ := writeKey_eq_cons key
  cases path with
  | nil => exact ⟨c, tail, by rw [toList_writePath_singleton, hkey], hc⟩
  | cons next path => exact ⟨c, _, by rw [toList_writePath_cons_cons, hkey]; rfl, hc⟩

theorem readPathWithin_last {fuel : Nat} {cs rest : List Char} {key : String}
    (hkey : readKey (skipSpaces cs) = some (key, rest))
    (hdot : ∀ tail, skipSpaces rest ≠ '.' :: tail) :
    readPathWithin (fuel + 1) cs = some ([key], skipSpaces rest) := by
  unfold readPathWithin
  simp only [hkey, Option.bind_eq_bind, Option.bind_some]
  rfl

theorem readPathWithin_dot {fuel : Nat} {cs rest tail : List Char} {key : String}
    (hkey : readKey (skipSpaces cs) = some (key, rest)) (hdot : skipSpaces rest = '.' :: tail) :
    readPathWithin (fuel + 1) cs =
      (readPathWithin fuel tail).map fun r => (key :: r.1, r.2) := by
  rw [readPathWithin]
  simp only [hkey, Option.bind_eq_bind, Option.bind_some, hdot]
  cases readPathWithin fuel tail <;> rfl

/-- A path of not too many keys reads back, and the spaces behind it are passed over. -/
theorem readPathWithin_writePath {path : List String} (hne : path ≠ []) {rest : List Char}
    (hrest : EndsKey rest) (hdot : ∀ tail, skipSpaces rest ≠ '.' :: tail) :
    ∀ fuel, path.length ≤ fuel →
      readPathWithin fuel ((writePath path).toList ++ rest) = some (path, skipSpaces rest) := by
  induction path with
  | nil => exact absurd rfl hne
  | cons key path ih =>
    rintro (_ | fuel) hfuel
    · exact absurd hfuel (Nat.not_succ_le_zero _)
    cases path with
    | nil =>
      rw [toList_writePath_singleton]
      refine readPathWithin_last ?_ hdot
      rw [skipSpaces_writeKey, readKey_writeKey key hrest]
    | cons next path =>
      have hends : EndsKey ('.' :: ((writePath (next :: path)).toList ++ rest)) := by
        rintro c ⟨⟩
        decide
      rw [toList_writePath_cons_cons, List.append_assoc, List.cons_append,
        readPathWithin_dot _ (skipSpaces_cons (by decide) _),
        ih (List.cons_ne_nil _ _) fuel (Nat.le_of_succ_le_succ hfuel)]
      · rfl
      · rw [skipSpaces_writeKey, readKey_writeKey key hends]

/-- A path reads back as the keys that lead to its last key. -/
theorem readPath_writePath {path : List String} {key : String}
    (hlength : path.length + 1 < pathLimit)
    {rest : List Char} (hrest : EndsKey rest) (hdot : ∀ tail, skipSpaces rest ≠ '.' :: tail) :
    readPath ((writePath (path ++ [key])).toList ++ rest) =
      some ((path, key), skipSpaces rest) := by
  have hfuel : (path ++ [key]).length ≤ pathLimit - 1 := by
    rw [List.length_append, List.length_singleton]
    omega
  unfold readPath
  rw [readPathWithin_writePath (by simp) hrest hdot _ hfuel]
  simp

end ScopedRetrieval.Toml
