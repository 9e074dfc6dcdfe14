/-
Places in a document that comes together. A path leads to a place when changes along it change the
table that stands there and nothing around it (`Place`). Headers and rows open tables at places one
key further on, and fields are added to the table at the place of the last header.
-/
import ScopedRetrieval.Toml.Parser
import ScopedRetrieval.Proofs.KeyMap.Enumeration

namespace ScopedRetrieval.Toml

namespace Node

/-- The node is a table that may still grow. -/
def IsOpen : Node → Prop
  | table _ _ => True
  | _ => False

/-- A change of what stands at the end of a path is one of what stands at the end of its part. -/
theorem descend_append (dotted : Bool) (change : Node → Option Node) (path path' : List String) :
    descend dotted change (path ++ path') = descend dotted (descend dotted change path') path := by
  induction path with
  | nil =>
    funext n
    rw [List.nil_append, descend.eq_def dotted _ [] n]
  | cons key path ih =>
    funext n
    cases n with
    | table origin fields => rw [List.cons_append, descend, descend, ih]
    | closed v => rfl
    | rows earlier last => rfl

/-! ## Fields -/

section

variable {key : String} {before : List (String × Node)} (hkey : key ∉ before.map (·.1))

include hkey

theorem lookup_append_of_notMem (rest : List (String × Node)) :
    (before ++ rest).lookup key = rest.lookup key := by
  rw [List.lookup_append, KeyMap.lookup_eq_none_of_notMem hkey, Option.none_or]

theorem setField_append_of_notMem (n : Node) (rest : List (String × Node)) :
    setField key n (before ++ rest) = before ++ setField key n rest := by
  induction before with
  | nil => rfl
  | cons e before ih =>
    rw [List.map_cons, List.mem_cons, not_or] at hkey
    rw [List.cons_append, setField, if_neg (Ne.symm hkey.1), ih hkey.2]
    rfl

theorem lookup_last (n : Node) : (before ++ [(key, n)]).lookup key = some n := by
  rw [lookup_append_of_notMem hkey]
  simp

theorem setField_last (n n' : Node) :
    setField key n' (before ++ [(key, n)]) = before ++ [(key, n')] := by
  rw [setField_append_of_notMem hkey, setField, if_pos rfl]

end

/-! ## Places -/

/-- A path leads to a place in a document. Around an open table that stands there is the rest of the
document, which a change along the path leaves as it is. -/
def Place (path : List String) (around : Node → Node) : Prop :=
  ∀ (change : Node → Option Node) (n : Node), n.IsOpen →
    descend false change path (around n) = (change n).map around

theorem place_root : Place [] id := by
  intro change n _
  rw [descend.eq_def]
  simp

theorem Place.descend_table {path : List String} {around : Node → Node} (hplace : Place path around)
    (change : Node → Option Node) (origin : Origin) (fields : List (String × Node)) :
    descend false change path (around (.table origin fields)) =
      (change (.table origin fields)).map around :=
  hplace change (.table origin fields) trivial

section

variable {path : List String} {around : Node → Node} (hplace : Place path around) {key : String}
  {origin : Origin} {before : List (String × Node)} (hkey : key ∉ before.map (·.1))

include hplace hkey

/-- The place of a table in another one. -/
theorem Place.table :
    Place (path ++ [key]) fun n => around (.table origin (before ++ [(key, n)])) := by
  intro change n hn
  rw [descend_append, hplace.descend_table, descend, lookup_last hkey]
  cases n with
  | closed v => cases hn
  | rows earlier last => cases hn
  | table o fields =>
    simp only [Option.getD_some, Bool.false_eq_true, false_and, if_false, descend]
    cases change (.table o fields) with
    | none => rfl
    | some n' => simp [setField_last hkey]

/-- The place of the last of a list of tables in another one. -/
theorem Place.rows (earlier : List Node) :
    Place (path ++ [key]) fun n =>
      around (.table origin (before ++ [(key, .rows earlier n)])) := by
  intro change n _
  rw [descend_append, hplace.descend_table, descend, lookup_last hkey]
  simp only [Option.getD_some, descend]
  cases change n with
  | none => rfl
  | some n' => simp [setField_last hkey]

end

/-! ## Rows -/

theorem rowValues_append (earlier : List Node) (values values' : List Value) :
    rowValues earlier (values ++ values') = rowValues earlier values ++ values' := by
  induction earlier generalizing values with
  | nil => rfl
  | cons n earlier ih =>
    rw [rowValues, rowValues, ← List.cons_append, ih]

/-- The values of rows with one more row. -/
theorem rowValues_cons (earlier : List Node) (last : Node) (v : Value) :
    rowValues (last :: earlier) [v] = rowValues earlier [last.toValue] ++ [v] :=
  rowValues_append earlier [last.toValue] [v]

theorem fieldValues_append (fields fields' : List (String × Node)) :
    fieldValues (fields ++ fields') = fieldValues fields ++ fieldValues fields' := by
  induction fields with
  | nil => rfl
  | cons e fields ih => rw [List.cons_append, fieldValues, fieldValues, ih]; rfl

end Node

/-! ## What lines add -/

namespace Draft

open Node

section

variable {path : List String} {around : Node → Node} (hplace : Place path around) {key : String}
  {before : List (String × Node)} (hkey : key ∉ before.map (·.1))

include hplace hkey

theorem add_field (v : Value) :
    add ⟨around (.table .header before), path⟩ (.field [] key v) =
      some ⟨around (.table .header (before ++ [(key, .closed v)])), path⟩ := by
  have hnone := KeyMap.lookup_eq_none_of_notMem hkey
  show (descend false (·.addAt [] key v) path (around (.table .header before))).map _ = _
  rw [hplace.descend_table]
  simp [addAt, descend, addValue, hnone]

variable {origin : Origin}

theorem add_header (header : List String) :
    add ⟨around (.table origin before), header⟩ (.header path key) =
      some ⟨around (.table origin (before ++ [(key, .table .header [])])), path ++ [key]⟩ := by
  have hnone := KeyMap.lookup_eq_none_of_notMem hkey
  show (descend false (·.openTable key) path (around (.table origin before))).map _ = _
  rw [hplace.descend_table]
  simp [openTable, hnone]

theorem add_row_first (header : List String) :
    add ⟨around (.table origin before), header⟩ (.row path key) =
      some ⟨around (.table origin (before ++ [(key, .rows [] (.table .header []))])),
        path ++ [key]⟩ := by
  have hnone := KeyMap.lookup_eq_none_of_notMem hkey
  show (descend false (·.openRow key) path (around (.table origin before))).map _ = _
  rw [hplace.descend_table]
  simp [openRow, hnone]

theorem add_row_next (header : List String) (earlier : List Node) (last : Node) :
    add ⟨around (.table origin (before ++ [(key, .rows earlier last)])), header⟩ (.row path key) =
      some ⟨around (.table origin (before ++ [(key, .rows (last :: earlier) (.table .header []))])),
        path ++ [key]⟩ := by
  show (descend false (·.openRow key) path
    (around (.table origin (before ++ [(key, .rows earlier last)])))).map _ = _
  rw [hplace.descend_table]
  simp only [openRow, lookup_last hkey, setField_last hkey, Option.map_some]

end

/-- Fields under different keys are added one after another. -/
theorem foldlM_add_fields {path : List String} {around : Node → Node} (hplace : Place path around)
    (fields : Table) {before : List (String × Node)}
    (hkeys : (before.map (·.1) ++ fields.map (·.1)).Nodup) :
    (fields.map fun e => Statement.field [] e.1 e.2).foldlM add
        ⟨around (.table .header before), path⟩ =
      some ⟨around (.table .header (before ++ fields.map fun e => (e.1, .closed e.2))), path⟩ := by
  induction fields generalizing before with
  | nil => rw [List.map_nil, List.map_nil, List.append_nil]; rfl
  | cons e fields ih =>
    have hkey : e.1 ∉ before.map (·.1) := by
      intro h
      exact (List.nodup_append.1 hkeys).2.2 _ h _ (List.mem_cons_self) rfl
    rw [List.map_cons, List.foldlM_cons, add_field hplace hkey, Option.bind_eq_bind,
      Option.bind_some, ih]
    · simp
    · simpa using hkeys

end Draft

end ScopedRetrieval.Toml
