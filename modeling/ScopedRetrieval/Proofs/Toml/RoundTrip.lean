/-
Documents are read back as they were written (`parse_renderText`), for tables whose keys differ, in
which the fields that need no header come first and headers are nested less deep than paths may be
long (`Table.Nested`). The induction is on the depth. At each place the lines of the plain fields
come first, and every section behind them leads from one draft to another (`Builds`), which has one
more field with the value that was written.
-/
import ScopedRetrieval.Toml.Shape
import ScopedRetrieval.Proofs.Toml.Line
import ScopedRetrieval.Proofs.Toml.Place

namespace ScopedRetrieval.Toml

open Node (Place)

/-! ## Tables under headers -/

/-- A value that is written under headers: a table, or a list of tables that is not empty. -/
inductive Value.IsSection (inner : Table → Prop) : Value → Prop
  | table {fields : Table} (h : inner fields) : IsSection inner (.table fields)
  | rows {first : Table} {rest : List Table} (hfirst : inner first)
      (hrest : ∀ fields ∈ rest, inner fields) :
      IsSection inner (.array (.table first :: rest.map .table))

theorem Value.IsSection.mono {inner inner' : Table → Prop}
    (himp : ∀ fields, inner fields → inner' fields)
    {v : Value} (h : v.IsSection inner) : v.IsSection inner' := by
  cases h with
  | table h => exact .table (himp _ h)
  | rows hfirst hrest => exact .rows (himp _ hfirst) fun fields hmem => himp _ (hrest fields hmem)

/-- A table whose keys differ and in which the fields that need no header come first. -/
def Table.Arranged (inner : Table → Prop) (fields : Table) : Prop :=
  ∃ plain headed : Table, fields = plain ++ headed ∧ (fields.map (·.1)).Nodup ∧
    (∀ e ∈ plain, e.2.IsLine) ∧ ∀ e ∈ headed, e.2.IsSection inner

/-- Tables that are arranged so at every level, with headers nested at most so deep. -/
def Table.Nested : Nat → Table → Prop
  | 0 => Arranged fun _ => False
  | depth + 1 => Arranged (Nested depth)

theorem Table.Arranged.mono {inner inner' : Table → Prop}
    (himp : ∀ fields, inner fields → inner' fields) {fields : Table} (h : fields.Arranged inner) :
    fields.Arranged inner' := by
  obtain ⟨plain, headed, hfields, hkeys, hplain, hheaded⟩ := h
  exact ⟨plain, headed, hfields, hkeys, hplain, fun e he => (hheaded e he).mono himp⟩

theorem Table.Nested.succ {depth : Nat} {fields : Table} (h : fields.Nested depth) :
    fields.Nested (depth + 1) := by
  induction depth generalizing fields with
  | zero => exact Arranged.mono (fun _ => False.elim) h
  | succ depth ih => exact Arranged.mono (fun _ => ih) h

theorem Table.Nested.mono {depth depth' : Nat} (hle : depth ≤ depth') {fields : Table}
    (h : fields.Nested depth) : fields.Nested depth' := by
  induction hle with
  | refl => exact h
  | step _ ih => exact ih.succ

theorem Value.IsScalar.isTable {v : Value} (h : v.IsScalar) : v.isTable = false := by
  cases h <;> rfl

theorem Value.IsLine.hasHeader {v : Value} (h : v.IsLine) : v.hasHeader = false := by
  cases h with
  | scalar h => cases h <;> rfl
  | @array items h =>
    cases items with
    | nil => rfl
    | cons v items =>
      simp [Value.hasHeader, (h v List.mem_cons_self).isTable]

theorem all_isTable_map (rows : List Table) : (rows.map Value.table).all Value.isTable = true := by
  rw [List.all_map, List.all_eq_true]
  exact fun _ _ => rfl

theorem Value.IsSection.hasHeader {inner : Table → Prop} {v : Value} (h : v.IsSection inner) :
    v.hasHeader = true := by
  cases h with
  | table _ => rfl
  | rows _ _ =>
    rw [Value.hasHeader, List.all_cons, all_isTable_map]
    rfl

/-! ## What is written -/

theorem writeFields_eq_map (fields : Table) :
    writeFields fields = fields.map fun e => writeKey e.1 ++ " = " ++ writeValue e.2 := by
  induction fields with
  | nil => rfl
  | cons e fields ih => rw [writeFields, ih]; rfl

/-- The lines of the fields that need no header are those of the first fields. -/
theorem plainLines_append {plain headed : Table} (hplain : ∀ e ∈ plain, e.2.hasHeader = false)
    (hheaded : ∀ e ∈ headed, e.2.hasHeader = true) :
    plainLines (plain ++ headed) =
      groupText (plain.map fun e => Statement.field [] e.1 e.2) := by
  have hfilter : (plain ++ headed).filter (fun e => !e.2.hasHeader) = plain := by
    rw [List.filter_append, List.filter_eq_self.2 fun e he => by simp [hplain e he],
      List.filter_eq_nil_iff.2 fun e he => by simp [hheaded e he], List.append_nil]
  rw [plainLines, hfilter, writeFields_eq_map, groupText, List.map_map, List.map_map]
  rfl

theorem valueSections_of_isLine (path : List String) {v : Value} (h : v.IsLine) :
    valueSections path v = [] := by
  cases h with
  | scalar h => cases h <;> rfl
  | @array items h =>
    cases items with
    | nil => rfl
    | cons v items =>
      rw [valueSections, List.all_cons, (h v List.mem_cons_self).isTable]
      rfl

/-- Fields that need no header have no sections. -/
theorem fieldSections_append (path : List String) {plain : Table} (hplain : ∀ e ∈ plain, e.2.IsLine)
    (headed : Table) : fieldSections path (plain ++ headed) = fieldSections path headed := by
  induction plain with
  | nil => rfl
  | cons e plain ih =>
    rw [List.forall_mem_cons] at hplain
    rw [List.cons_append, fieldSections, valueSections_of_isLine _ hplain.1, ih hplain.2]
    rfl

theorem groupText_cons (s : Statement) (group : List Statement) :
    groupText (s :: group) = s.text ++ "\n" ++ groupText group := by
  rw [groupText, List.map_cons, String.join_cons]
  rfl

theorem text_header_newline (path : List String) (key : String) :
    (Statement.header path key).text ++ "\n" = "[" ++ writePath (path ++ [key]) ++ "]\n" := by
  rw [Statement.text, String.append_assoc]
  rfl

theorem text_row_newline (path : List String) (key : String) :
    (Statement.row path key).text ++ "\n" = "[[" ++ writePath (path ++ [key]) ++ "]]\n" := by
  rw [Statement.text, String.append_assoc]
  rfl

/-! ## What sections build -/

/-- Sections lead from one draft to another: they are texts of lines that can be read, and that add
to the one what makes the other. -/
def Builds (d : Draft) (sections : List String) (d' : Draft) : Prop :=
  ∃ groups : List (List Statement), sections = groups.map groupText ∧
    (∀ s ∈ groups.flatten, s.Readable) ∧ groups.flatten.foldlM Draft.add d = some d'

namespace Builds

variable {d d' d'' : Draft} {sections sections' : List String}

theorem nil (d : Draft) : Builds d [] d := ⟨[], rfl, by simp, rfl⟩

theorem append (h : Builds d sections d') (h' : Builds d' sections' d'') :
    Builds d (sections ++ sections') d'' := by
  obtain ⟨groups, rfl, hreadable, hadd⟩ := h
  obtain ⟨groups', rfl, hreadable', hadd'⟩ := h'
  refine ⟨groups ++ groups', List.map_append.symm, ?_, ?_⟩
  · rw [List.flatten_append]
    exact fun s hs => (List.mem_append.1 hs).elim (hreadable s) (hreadable' s)
  · rw [List.flatten_append, List.foldlM_append, hadd]
    exact hadd'

theorem cons {group : List Statement} (hreadable : ∀ s ∈ group, s.Readable)
    (hadd : group.foldlM Draft.add d = some d') (h : Builds d' sections d'') :
    Builds d (groupText group :: sections) d'' := by
  refine append ⟨[group], rfl, ?_, ?_⟩ h
  · rwa [List.flatten_cons, List.flatten_nil, List.append_nil]
  · rwa [List.flatten_cons, List.flatten_nil, List.append_nil]

end Builds

/-- A table reads back wherever its header has been read: its first lines and its sections build a
node of the same value. -/
def ReadsBack (depth : Nat) (fields : Table) : Prop :=
  ∃ lines : List Statement, plainLines fields = groupText lines ∧ (∀ s ∈ lines, s.Readable) ∧
    ∀ path around, Place path around → path.length + depth < pathLimit →
      ∃ d n header, lines.foldlM Draft.add ⟨around (.table .header []), path⟩ = some d ∧
        Builds d (fieldSections path fields) ⟨around n, header⟩ ∧ n.toValue = .table fields

/-- A header and what follows it, up to the next table beside it. -/
theorem builds_section {depth : Nat} {fields : Table} (h : ReadsBack depth fields)
    {path : List String}
    {around : Node → Node} (hplace : Place path around) (hlength : path.length + depth < pathLimit)
    {s : Statement} (hs : s.Readable) {d : Draft}
    (hadd : d.add s = some ⟨around (.table .header []), path⟩) :
    ∃ n header, Builds d ((s.text ++ "\n" ++ plainLines fields) :: fieldSections path fields)
      ⟨around n, header⟩ ∧ n.toValue = .table fields := by
  obtain ⟨lines, hlines, hreadable, hbuilds⟩ := h
  obtain ⟨d', n, header, hplain, hsections, hvalue⟩ := hbuilds path around hplace hlength
  refine ⟨n, header, ?_, hvalue⟩
  rw [hlines, ← groupText_cons]
  refine Builds.cons (List.forall_mem_cons.2 ⟨hs, hreadable⟩) ?_ hsections
  rw [List.foldlM_cons, hadd]
  exact hplain

section

variable {depth : Nat} {path : List String} {around : Node → Node} (hplace : Place path around)
  (hlength : path.length + 1 + depth < pathLimit) {origin : Origin}

include hplace hlength

section

variable {key : String} {before : List (String × Node)} (hkey : key ∉ before.map (·.1))

include hkey

/-- Further rows of a list of tables that has been begun. -/
theorem builds_rows {rows : List Table} (hrows : ∀ fields ∈ rows, ReadsBack depth fields)
    (earlier : List Node) (last : Node) (header : List String) :
    ∃ earlier' last' header',
      Builds ⟨around (.table origin (before ++ [(key, .rows earlier last)])), header⟩
        (rowSections (path ++ [key]) (rows.map .table))
        ⟨around (.table origin (before ++ [(key, .rows earlier' last')])), header'⟩ ∧
      Node.rowValues earlier' [last'.toValue] =
        Node.rowValues earlier [last.toValue] ++ rows.map .table := by
  induction rows generalizing earlier last header with
  | nil => exact ⟨earlier, last, header, Builds.nil _, by simp⟩
  | cons fields rows ih =>
    rw [List.forall_mem_cons] at hrows
    have hinner : (path ++ [key]).length + depth < pathLimit := by simpa using hlength
    have hs : (Statement.row path key).Readable := by
      show path.length + 1 < pathLimit
      omega
    obtain ⟨n, header₁, hone, hvalue⟩ := builds_section hrows.1
      (hplace.rows hkey (last :: earlier)) hinner hs
      (Draft.add_row_next hplace hkey header earlier last)
    obtain ⟨earlier', last', header', hmore, hvalues⟩ := ih hrows.2 (last :: earlier) n header₁
    refine ⟨earlier', last', header', ?_, ?_⟩
    · rw [List.map_cons, rowSections, ← text_row_newline]
      exact Builds.append hone hmore
    · rw [hvalues, hvalue, Node.rowValues_cons, List.append_assoc]
      rfl

/-- The sections of a value add one field. -/
theorem builds_value {v : Value} (hv : v.IsSection (ReadsBack depth)) (header : List String) :
    ∃ n header', Builds ⟨around (.table origin before), header⟩ (valueSections (path ++ [key]) v)
      ⟨around (.table origin (before ++ [(key, n)])), header'⟩ ∧ n.toValue = v := by
  have hinner : (path ++ [key]).length + depth < pathLimit := by simpa using hlength
  have hpath : path.length + 1 < pathLimit := by omega
  cases hv with
  | @table fields h =>
    obtain ⟨n, header', hone, hvalue⟩ := builds_section h (hplace.table hkey) hinner
      (show (Statement.header path key).Readable from hpath)
      (Draft.add_header hplace hkey header)
    rw [text_header_newline] at hone
    exact ⟨n, header', hone, hvalue⟩
  | @rows first rest hfirst hrest =>
    obtain ⟨n, header₁, hone, hvalue⟩ := builds_section hfirst (hplace.rows hkey []) hinner
      (show (Statement.row path key).Readable from hpath)
      (Draft.add_row_first hplace hkey header)
    obtain ⟨earlier, last, header', hmore, hvalues⟩ :=
      builds_rows hplace hlength hkey hrest [] n header₁
    refine ⟨.rows earlier last, header', ?_, ?_⟩
    · have hall : (Value.table first :: rest.map .table).all Value.isTable = true :=
        all_isTable_map (first :: rest)
      rw [valueSections, if_pos hall, rowSections, ← text_row_newline]
      exact Builds.append hone hmore
    · rw [Node.toValue, hvalues, hvalue]
      rfl

end

/-- The sections of fields under different keys add these fields. -/
theorem builds_fields {headed : Table}
    (hheaded : ∀ e ∈ headed, e.2.IsSection (ReadsBack depth)) {before : List (String × Node)}
    (hkeys : (before.map (·.1) ++ headed.map (·.1)).Nodup) (header : List String) :
    ∃ added header', Builds ⟨around (.table origin before), header⟩ (fieldSections path headed)
      ⟨around (.table origin (before ++ added)), header'⟩ ∧ Node.fieldValues added = headed := by
  induction headed generalizing before header with
  | nil => exact ⟨[], header, by rw [List.append_nil]; exact Builds.nil _, rfl⟩
  | cons e headed ih =>
    rw [List.forall_mem_cons] at hheaded
    have hkey : e.1 ∉ before.map (·.1) := by
      intro h
      exact (List.nodup_append.1 hkeys).2.2 _ h _ (List.mem_cons_self) rfl
    obtain ⟨n, header₁, hone, hvalue⟩ :=
      builds_value hplace hlength hkey hheaded.1 header
    have hkeys' : ((before ++ [(e.1, n)]).map (·.1) ++ headed.map (·.1)).Nodup := by
      simpa using hkeys
    obtain ⟨added, header', hmore, hvalues⟩ := ih hheaded.2 hkeys' header₁
    refine ⟨(e.1, n) :: added, header', ?_, ?_⟩
    · rw [List.append_cons]
      exact Builds.append hone hmore
    · rw [Node.fieldValues, hvalue, hvalues]

end

theorem fieldValues_closed (fields : Table) :
    Node.fieldValues (fields.map fun e => (e.1, .closed e.2)) = fields := by
  induction fields with
  | nil => rfl
  | cons e fields ih => rw [List.map_cons, Node.fieldValues, ih]; rfl

/-- An arranged table reads back when its sections add the fields that have headers. -/
theorem readsBack_of_sections {depth : Nat} {plain headed : Table}
    (hkeys : ((plain ++ headed).map (·.1)).Nodup) (hplain : ∀ e ∈ plain, e.2.IsLine)
    (hheaded : ∀ e ∈ headed, e.2.hasHeader = true)
    (hsections : ∀ path around, Place path around → path.length + depth < pathLimit →
      ∀ before : List (String × Node), (before.map (·.1) ++ headed.map (·.1)).Nodup → ∀ header,
        ∃ added header', Builds ⟨around (.table .header before), header⟩ (fieldSections path headed)
          ⟨around (.table .header (before ++ added)), header'⟩ ∧
          Node.fieldValues added = headed) :
    ReadsBack depth (plain ++ headed) := by
  rw [List.map_append] at hkeys
  refine ⟨plain.map fun e => .field [] e.1 e.2,
    plainLines_append (fun e he => (hplain e he).hasHeader) hheaded, ?_, ?_⟩
  · intro s hs
    obtain ⟨e, he, rfl⟩ := List.mem_map.1 hs
    exact ⟨rfl, hplain e he⟩
  · intro path around hplace hlength
    have hplainKeys : (([] : List (String × Node)).map (·.1) ++ plain.map (·.1)).Nodup :=
      (List.nodup_append.1 hkeys).1
    have hlines := Draft.foldlM_add_fields hplace plain hplainKeys
    rw [List.nil_append] at hlines
    obtain ⟨added, header', hbuilds, hvalues⟩ :=
      hsections path around hplace hlength (plain.map fun e => (e.1, .closed e.2))
        (by simpa [Function.comp_def] using hkeys) path
    refine ⟨_, .table .header ((plain.map fun e => (e.1, .closed e.2)) ++ added), header', hlines,
      ?_, ?_⟩
    · rw [fieldSections_append path hplain]
      exact hbuilds
    · rw [Node.toValue, Node.fieldValues_append, fieldValues_closed, hvalues]

/-- Tables that are not nested too deep read back. -/
theorem readsBack_of_nested {depth : Nat} {fields : Table} (h : fields.Nested depth) :
    ReadsBack depth fields := by
  induction depth generalizing fields with
  | zero =>
    obtain ⟨plain, headed, rfl, hkeys, hplain, hheaded⟩ := h
    -- no value stands under a header of an impossible table
    have hnone : headed = [] := by
      refine List.eq_nil_iff_forall_not_mem.2 fun e he => ?_
      generalize hv : e.2 = v
      have hsection := hheaded e he
      rw [hv] at hsection
      cases hsection with
      | table h => exact h
      | rows hfirst _ => exact hfirst
    subst hnone
    refine readsBack_of_sections hkeys hplain (by simp) fun path around _ _ before _ header => ?_
    exact ⟨[], header, by rw [List.append_nil]; exact Builds.nil _, rfl⟩
  | succ depth ih =>
    obtain ⟨plain, headed, rfl, hkeys, hplain, hheaded⟩ := h
    refine readsBack_of_sections hkeys hplain (fun e he => (hheaded e he).hasHeader) ?_
    intro path around hplace hlength before hkeys' header
    exact builds_fields hplace (by omega) (fun e he => (hheaded e he).mono fun fields => ih) hkeys'
      header

/-! ## Integers -/

theorem itemsFit_eq_all (items : List Value) : itemsFit items = items.all Value.fits := by
  induction items with
  | nil => rfl
  | cons v items ih => rw [itemsFit, ih, List.all_cons]

theorem fieldsFit_eq_all (fields : Table) : fieldsFit fields = fields.all (·.2.fits) := by
  induction fields with
  | nil => rfl
  | cons e fields ih => rw [fieldsFit, ih, List.all_cons]

theorem Value.IsScalar.fits {v : Value} (h : v.IsScalar) : v.fits = true := by
  cases h with
  | string s => rfl
  | integer hfits => exact hfits
  | boolean b => rfl

theorem Value.IsLine.fits {v : Value} (h : v.IsLine) : v.fits = true := by
  cases h with
  | scalar h => exact h.fits
  | array h =>
    rw [Value.fits, itemsFit_eq_all, List.all_eq_true]
    exact fun v hv => (h v hv).fits

theorem Value.IsSection.fits {inner : Table → Prop} (hinner : ∀ fields, inner fields →
    fieldsFit fields = true) {v : Value} (h : v.IsSection inner) : v.fits = true := by
  cases h with
  | table h => exact hinner _ h
  | rows hfirst hrest =>
    rw [Value.fits, itemsFit_eq_all, List.all_cons, List.all_map, Bool.and_eq_true,
      List.all_eq_true]
    exact ⟨hinner _ hfirst, fun fields hmem => hinner _ (hrest fields hmem)⟩

theorem Table.Arranged.fits {inner : Table → Prop} (hinner : ∀ fields, inner fields →
    fieldsFit fields = true) {fields : Table} (h : fields.Arranged inner) :
    fieldsFit fields = true := by
  obtain ⟨plain, headed, rfl, -, hplain, hheaded⟩ := h
  rw [fieldsFit_eq_all, List.all_append, Bool.and_eq_true, List.all_eq_true, List.all_eq_true]
  exact ⟨fun e he => (hplain e he).fits, fun e he => (hheaded e he).fits hinner⟩

/-- Every integer of a table that reads back can be written. -/
theorem Table.Nested.fits {depth : Nat} {fields : Table} (h : fields.Nested depth) :
    fieldsFit fields = true := by
  induction depth generalizing fields with
  | zero => exact Arranged.fits (fun _ => False.elim) h
  | succ depth ih => exact Arranged.fits (fun _ => ih) h

theorem render_of_nested {depth : Nat} {fields : Table} (h : fields.Nested depth) :
    render fields = some (renderText fields) :=
  if_pos h.fits

/-! ## Whole documents -/

theorem withoutMark_lines (ls : List (Option Statement)) :
    withoutMark (ls.flatMap lineText) = ls.flatMap lineText := by
  cases ls with
  | nil => rfl
  | cons l ls =>
    rw [List.flatMap_cons]
    cases l with
    | none => rfl
    | some s =>
      obtain ⟨c, tail, htext, hc⟩ := s.text_eq_cons
      show withoutMark (s.text.toList ++ ['\n'] ++ _) = s.text.toList ++ ['\n'] ++ _
      rw [htext]
      unfold withoutMark
      split
      · rename_i heq
        rw [(List.cons.inj heq).1] at hc
        exact absurd hc (by decide)
      · rfl

/-- A text of sections is read as the table that they build. -/
theorem parse_of_builds {sections : List String} {n : Node} {header : List String} {fields : Table}
    (h : Builds ⟨.root, []⟩ sections ⟨n, header⟩) (hvalue : n.toValue = .table fields) :
    parse (String.intercalate "\n" sections) = .ok fields := by
  obtain ⟨groups, rfl, hreadable, hadd⟩ := h
  have hmark : withoutMark (String.intercalate "\n" (groups.map groupText)).toList =
      (String.intercalate "\n" (groups.map groupText)).toList := by
    rw [toList_intercalate_groupText, withoutMark_lines]
  unfold parse
  simp only [hmark]
  rw [readLines_groups _ hreadable hadd rfl, Except.map, Draft.fields, hvalue]

/-- The text of a document is read back as the document. -/
theorem parse_renderText {fields : Table} (h : fields.Nested (pathLimit - 1)) :
    parse (renderText fields) = .ok fields := by
  obtain ⟨lines, hlines, hreadable, hbuilds⟩ := readsBack_of_nested h
  obtain ⟨d, n, header, hadd, hsections, hvalue⟩ := hbuilds [] id Node.place_root (by decide)
  suffices hall : Builds ⟨.root, []⟩ ((if (groupText lines).isEmpty then [] else [groupText lines]) ++
      fieldSections [] fields) ⟨n, header⟩ by
    rw [← hlines] at hall
    exact parse_of_builds hall hvalue
  cases lines with
  | nil =>
    -- no field stands before the first header
    obtain rfl := Option.some.inj hadd
    exact hsections
  | cons s lines =>
    have hne : (groupText (s :: lines)).isEmpty = false := by
      obtain ⟨c, tail, htext, -⟩ := s.text_eq_cons
      rw [groupText_cons, Bool.eq_false_iff]
      intro hempty
      rw [String.isEmpty_iff, ← String.toList_eq_nil_iff] at hempty
      simp [htext] at hempty
    rw [hne]
    exact Builds.cons hreadable hadd hsections

end ScopedRetrieval.Toml
