/-
The lines of a document. What a line says is read back from its text (`readStatement_text`), and a
text of such lines, with an empty line between groups of them, adds what they say one after another
to the document (`readLines_groups`).
-/
import ScopedRetrieval.Proofs.Toml.Scalar

namespace ScopedRetrieval.Toml

namespace Statement

/-- The text of a line. -/
def text : Statement → String
  | field _ key v => writeKey key ++ " = " ++ writeValue v
  | header path key => "[" ++ writePath (path ++ [key]) ++ "]"
  | row path key => "[[" ++ writePath (path ++ [key]) ++ "]]"

/-- What a line can say: a field has a key of its own and a value that stands on its line, and the
path of a header is not too long. -/
def Readable : Statement → Prop
  | field path _ v => path = [] ∧ v.IsLine
  | header path _ => path.length + 1 < pathLimit
  | row path _ => path.length + 1 < pathLimit

/-- The characters that lines begin with. -/
theorem text_eq_cons (s : Statement) :
    ∃ c tail, s.text.toList = c :: tail ∧ (startsKey c = true ∨ c = '[') := by
  cases s with
  | field path key v =>
    obtain ⟨c, tail, hkey, hc⟩ := writeKey_eq_cons key
    refine ⟨c, tail ++ " = ".toList ++ (writeValue v).toList, ?_, .inl hc⟩
    rw [text, String.toList_append, String.toList_append, hkey]
    rfl
  | header path key =>
    refine ⟨'[', (writePath (path ++ [key])).toList ++ "]".toList, ?_, .inr rfl⟩
    rw [text, String.toList_append, String.toList_append]
    rfl
  | row path key =>
    refine ⟨'[', '[' :: (writePath (path ++ [key])).toList ++ "]]".toList, ?_, .inr rfl⟩
    rw [text, String.toList_append, String.toList_append]
    rfl

end Statement

/-! ## One line -/

theorem readHeader_writePath {path : List String} (key : String)
    (hlength : path.length + 1 < pathLimit) (brackets : Nat)
    (build : List String → String → Statement) (rest : List Char) :
    readHeader (brackets + 1) build
      ((writePath (path ++ [key])).toList ++ (List.replicate (brackets + 1) ']' ++ rest)) =
        some (build path key, rest) := by
  have hends : EndsKey (List.replicate (brackets + 1) ']' ++ rest) := by
    rintro c ⟨⟩
    decide
  have hspaces : skipSpaces (List.replicate (brackets + 1) ']' ++ rest) =
      List.replicate (brackets + 1) ']' ++ rest :=
    skipSpaces_cons (by decide) _
  have hdot : ∀ tail, skipSpaces (List.replicate (brackets + 1) ']' ++ rest) ≠ '.' :: tail := by
    intro tail heq
    rw [hspaces] at heq
    exact absurd (List.cons.inj heq).1 (by decide)
  unfold readHeader
  rw [readPath_writePath hlength hends hdot, hspaces]
  simp only [Option.bind_eq_bind, Option.bind_some]
  rw [List.take_left' (List.length_replicate ..), List.drop_left' (List.length_replicate ..)]
  exact if_pos rfl

theorem readField_text (key : String) {v : Value} (hv : v.IsLine) {rest : List Char}
    (hrest : EndsValue rest) :
    readField readValue ((Statement.field [] key v).text.toList ++ rest) =
      some ((([], key), v), rest) := by
  have hends : EndsKey (' ' :: '=' :: ' ' :: ((writeValue v).toList ++ rest)) := by
    rintro c ⟨⟩
    decide
  have hdot : ∀ tail, skipSpaces (' ' :: '=' :: ' ' :: ((writeValue v).toList ++ rest)) ≠
      '.' :: tail := by
    rintro tail ⟨⟩
  have htext : (Statement.field [] key v).text.toList ++ rest =
      (writePath ([] ++ [key])).toList ++ ' ' :: '=' :: ' ' :: ((writeValue v).toList ++ rest) := by
    rw [List.nil_append, toList_writePath_singleton, Statement.text, String.toList_append,
      String.toList_append, List.append_assoc, List.append_assoc]
    rfl
  have hvalue : skipSpaces (' ' :: ((writeValue v).toList ++ rest)) =
      (writeValue v).toList ++ rest :=
    skipSpaces_writeValue hv rest
  rw [readField, htext, readPath_writePath (by decide) hends hdot]
  show (readValue (skipSpaces (' ' :: ((writeValue v).toList ++ rest)))).bind _ = _
  rw [hvalue, readValue_writeValue hv hrest]
  rfl

/-- What a line says reads back as it was written. -/
theorem readStatement_text {s : Statement} (hs : s.Readable) (rest : List Char) :
    readStatement (s.text.toList ++ '\n' :: rest) = some (some s, '\n' :: rest) := by
  have hends : EndsValue ('\n' :: rest) := ⟨_, _, rfl, .inl rfl⟩
  cases s with
  | field path key v =>
    obtain ⟨rfl, hv⟩ := hs
    have hread := readField_text key hv hends
    obtain ⟨c, tail, hkey, hc⟩ := writeKey_eq_cons key
    have htext : (Statement.field [] key v).text.toList =
        c :: (tail ++ " = ".toList ++ (writeValue v).toList) := by
      rw [Statement.text, String.toList_append, String.toList_append, hkey]
      rfl
    have hne : ∀ d, startsKey d = false → c ≠ d := by
      rintro d hd rfl
      rw [hd] at hc
      cases hc
    rw [htext, List.cons_append] at hread ⊢
    unfold readStatement
    split
    · rename_i heq
      cases heq
    · rename_i heq
      exact absurd (List.cons.inj heq).1 (hne _ (by decide))
    · rename_i heq
      exact absurd (List.cons.inj heq).1 (hne _ (by decide))
    · rename_i d cs _ _ heq
      obtain ⟨rfl, rfl⟩ := List.cons.inj heq
      have hnewline : skipNewline? (c :: (tail ++ " = ".toList ++ (writeValue v).toList ++
          '\n' :: rest)) = none := by
        unfold skipNewline?
        split
        · rename_i heq
          exact absurd (List.cons.inj heq).1 (hne _ (by decide))
        · rename_i heq
          exact absurd (List.cons.inj heq).1 (hne _ (by decide))
        · rfl
      rw [hnewline, if_neg (by simpa using hne '#' (by decide)), hread]
      rfl
  | header path key =>
    have hread := readHeader_writePath key hs 0 .header ('\n' :: rest)
    obtain ⟨c, tail, hpath, hc⟩ := writePath_eq_cons (show path ++ [key] ≠ [] by simp)
    have htext : (Statement.header path key).text.toList ++ '\n' :: rest =
        '[' :: c :: (tail ++ ']' :: '\n' :: rest) := by
      rw [Statement.text, String.toList_append, String.toList_append, hpath]
      simp
    rw [hpath, List.cons_append] at hread
    rw [htext, readStatement]
    · exact congrArg (Option.map _) hread
    · rintro tail heq
      rw [(List.cons.inj heq).1] at hc
      exact absurd hc (by decide)
  | row path key =>
    have htext : (Statement.row path key).text.toList ++ '\n' :: rest =
        '[' :: '[' :: ((writePath (path ++ [key])).toList ++
          (List.replicate 2 ']' ++ '\n' :: rest)) := by
      rw [Statement.text, String.toList_append, String.toList_append]
      simp
    rw [htext, readStatement, readHeader_writePath key hs 1 .row]
    rfl

/-! ## Many lines -/

/-- A line that says something, or an empty one. -/
def lineText (l : Option Statement) : List Char := l.elim [] (·.text.toList) ++ ['\n']

/-- Adds what a line says, if it says anything. -/
def Draft.addLine (d : Draft) (l : Option Statement) : Option Draft := l.elim (some d) d.add

theorem readStatement_lineText {l : Option Statement} (hl : ∀ s ∈ l, s.Readable)
    (rest : List Char) :
    readStatement (skipSpaces (lineText l ++ rest)) = some (l, '\n' :: rest) := by
  cases l with
  | none => rfl
  | some s =>
    obtain ⟨c, tail, htext, hc⟩ := s.text_eq_cons
    have hspace : isSpace c = false := by
      rcases hc with hc | rfl
      · exact isSpace_eq_false_of_startsKey hc
      · decide
    have hread := readStatement_text (hl s rfl) rest
    show readStatement (skipSpaces (s.text.toList ++ ['\n'] ++ rest)) = _
    rw [List.append_assoc, List.singleton_append]
    rw [htext, List.cons_append] at hread ⊢
    rw [skipSpaces_cons hspace, hread]

theorem readLines_cons (lineOf : List Char → Nat) {d d' : Draft} {l : Option Statement}
    (hl : ∀ s ∈ l, s.Readable) (hadd : d.addLine l = some d') (fuel : Nat) (rest : List Char) :
    readLines lineOf d (fuel + 1) (lineText l ++ rest) = readLines lineOf d' fuel rest := by
  have hend : skipLineEnd? ('\n' :: rest) = some rest := rfl
  have hread := readStatement_lineText hl rest
  change l.elim (some d) d.add = some d' at hadd
  rw [readLines]
  · simp only [hread, hend, hadd]
  · intro h
    exact absurd h (by simp [lineText])

/-- Lines that can be added one after another are read with as much fuel as there are lines. -/
theorem readLines_lines (lineOf : List Char → Nat) {ls : List (Option Statement)}
    (hls : ∀ l ∈ ls, ∀ s ∈ l, s.Readable) {d d' : Draft}
    (hadd : ls.foldlM Draft.addLine d = some d') :
    ∀ fuel, ls.length ≤ fuel → readLines lineOf d fuel (ls.flatMap lineText) = .ok d' := by
  induction ls generalizing d with
  | nil =>
    obtain rfl := Option.some.inj hadd
    intro fuel _
    cases fuel <;> rfl
  | cons l ls ih =>
    rintro (_ | fuel) hfuel
    · exact absurd hfuel (Nat.not_succ_le_zero _)
    rw [List.forall_mem_cons] at hls
    obtain ⟨d₁, hone, hrest⟩ := Option.bind_eq_some_iff.1 hadd
    rw [List.flatMap_cons, readLines_cons lineOf hls.1 hone]
    exact ih hls.2 hrest fuel (Nat.le_of_succ_le_succ hfuel)

theorem length_le_length_flatMap_lineText (ls : List (Option Statement)) :
    ls.length ≤ (ls.flatMap lineText).length := by
  induction ls with
  | nil => exact Nat.le_refl _
  | cons l ls ih =>
    rw [List.flatMap_cons, List.length_append, lineText, List.length_append, List.length_cons,
      List.length_singleton]
    omega

/-! ## Groups of lines -/

/-- The text of lines that stand together. -/
def groupText (group : List Statement) : String := String.join (group.map (·.text ++ "\n"))

/-- The lines of groups, with an empty line between them. -/
def groupLines : List (List Statement) → List (Option Statement)
  | [] => []
  | [group] => group.map some
  | group :: next :: groups => group.map some ++ none :: groupLines (next :: groups)

theorem toList_groupText (group : List Statement) :
    (groupText group).toList = (group.map some).flatMap lineText := by
  rw [groupText, String.toList_join, List.flatMap_map, List.flatMap_map]
  refine List.flatMap_congr fun s _ => ?_
  rw [String.toList_append]
  rfl

theorem toList_intercalate_groupText (groups : List (List Statement)) :
    (String.intercalate "\n" (groups.map groupText)).toList =
      (groupLines groups).flatMap lineText := by
  induction groups with
  | nil => rfl
  | cons group groups ih =>
    cases groups with
    | nil => rw [List.map_singleton, String.intercalate_singleton, toList_groupText]; rfl
    | cons next groups =>
      rw [List.map_cons, List.map_cons, String.intercalate_cons_cons, ← List.map_cons,
        String.toList_append, String.toList_append, ih, toList_groupText, groupLines,
        List.flatMap_append, List.flatMap_cons, List.append_assoc]
      rfl

theorem mem_groupLines {groups : List (List Statement)} {s : Statement}
    (h : some s ∈ groupLines groups) : s ∈ groups.flatten := by
  induction groups with
  | nil => cases h
  | cons group groups ih =>
    rw [List.flatten_cons, List.mem_append]
    cases groups with
    | nil => exact .inl (by simpa [groupLines] using h)
    | cons next groups =>
      rw [groupLines, List.mem_append, List.mem_cons] at h
      rcases h with h | h | h
      · exact .inl (by simpa using h)
      · cases h
      · exact .inr (ih h)

theorem foldlM_addLine_map (group : List Statement) (d : Draft) :
    (group.map some).foldlM Draft.addLine d = group.foldlM Draft.add d := by
  rw [List.foldlM_map]
  rfl

/-- Empty lines add nothing. -/
theorem foldlM_addLine_groupLines (groups : List (List Statement)) (d : Draft) :
    (groupLines groups).foldlM Draft.addLine d = groups.flatten.foldlM Draft.add d := by
  induction groups generalizing d with
  | nil => rfl
  | cons group groups ih =>
    rw [List.flatten_cons, List.foldlM_append]
    cases groups with
    | nil =>
      rw [groupLines, foldlM_addLine_map]
      cases group.foldlM Draft.add d <;> rfl
    | cons next groups =>
      rw [groupLines, List.foldlM_append, foldlM_addLine_map]
      refine congrArg _ (funext fun d' => ?_)
      exact ih d'

/-- The text of groups of lines adds to a document what the lines say. -/
theorem readLines_groups (lineOf : List Char → Nat) {groups : List (List Statement)}
    (hreadable : ∀ s ∈ groups.flatten, s.Readable) {d d' : Draft}
    (hadd : groups.flatten.foldlM Draft.add d = some d') {cs : List Char}
    (hcs : cs = (String.intercalate "\n" (groups.map groupText)).toList) :
    readLines lineOf d (cs.length + 1) cs = .ok d' := by
  rw [hcs, toList_intercalate_groupText]
  have hfuel := length_le_length_flatMap_lineText (groupLines groups)
  refine readLines_lines lineOf ?_ ?_ _ (by omega)
  · rintro _ hl s rfl
    exact hreadable s (mem_groupLines hl)
  · rw [foldlM_addLine_groupLines, hadd]

end ScopedRetrieval.Toml
