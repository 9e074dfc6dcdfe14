/-
Values of an expected shape that were made from what is read out of them: lists, maps and the fields
of records give back what they were made from. The tables that are made so read back as documents
when they hold plain fields, and behind them perhaps tables or a list of tables.
-/
import ScopedRetrieval.Toml.Shape
import ScopedRetrieval.Proofs.KeyMap.Enumeration
import ScopedRetrieval.Proofs.Toml.RoundTrip

namespace ScopedRetrieval.Toml

/-! ## Reading -/

/-- Reading each item of a list of written items gives the list. -/
theorem mapM_map_eq_pure {m : Type → Type} [Monad m] [LawfulMonad m] {α β : Type} {read : β → m α}
    {write : α → β} {l : List α} (h : ∀ a ∈ l, read (write a) = pure a) :
    (l.map write).mapM read = pure l := by
  induction l with
  | nil => rfl
  | cons a l ih =>
    rw [List.forall_mem_cons] at h
    rw [List.map_cons, List.mapM_cons, h.1, pure_bind, ih h.2, pure_bind]

theorem Value.list?_map {α : Type} {read : Value → Option α} {write : α → Value} {l : List α}
    (h : ∀ a ∈ l, read (write a) = some a) : Value.list? read (.array (l.map write)) = some l :=
  mapM_map_eq_pure h

/-- A field that was written is read, whatever its default. -/
theorem Table.needOr_of_lookup {α : Type} (t : Table) (name : String) {v : Value} {a : α}
    {read : Value → Option α} (hlookup : t.lookup name = some v) (hread : read v = some a)
    (default : α) : t.needOr name default read = .ok a := by
  rw [needOr, hlookup]
  show (read v).elim _ _ = _
  rw [hread]
  rfl

theorem Value.texts?_toList (m : KeyMap String) :
    Value.texts? (.table (m.toList.map fun e => (e.1, .string e.2))) = some m := by
  have hread : ((m.toList.map fun e => (e.1, Value.string e.2)).mapM
      fun e : String × Value => e.2.string?.map (e.1, ·)) = some m.toList :=
    mapM_map_eq_pure fun _ _ => rfl
  rw [texts?, hread, Option.map_some, KeyMap.ofList_toList]

/-! ## Tables that read back -/

/-- The fields of a table. -/
def Value.fields : Value → Table
  | .table fields => fields
  | _ => []

/-- A table of plain fields. -/
theorem Table.nested_of_lines {fields : Table} (hkeys : (fields.map (·.1)).Nodup)
    (hlines : ∀ e ∈ fields, e.2.IsLine) : fields.Nested 0 :=
  ⟨fields, [], (List.append_nil _).symm, hkeys, hlines, by simp⟩

/-- Plain fields before a list of records; without records the list is a plain field, too. -/
theorem Table.nested_of_records {α : Type} (plain : Table) (key : String) {write : α → Value}
    {items : List α} {depth : Nat} (hkeys : ((plain.map (·.1)) ++ [key]).Nodup)
    (hplain : ∀ e ∈ plain, e.2.IsLine) (hwrite : ∀ a, write a = .table (write a).fields)
    (hitems : ∀ a ∈ items, (write a).fields.Nested depth) :
    Table.Nested (depth + 1) (plain ++ [(key, .array (items.map write))]) := by
  have hkeys' : ((plain ++ [(key, Value.array (items.map write))]).map (·.1)).Nodup := by
    rw [List.map_append]
    exact hkeys
  cases items with
  | nil =>
    refine ⟨_, [], (List.append_nil _).symm, hkeys', ?_, by simp⟩
    intro e he
    rcases List.mem_append.1 he with he | he
    · exact hplain e he
    · rw [List.mem_singleton.1 he]
      exact .array (by simp)
  | cons a rest =>
    rw [List.forall_mem_cons] at hitems
    refine ⟨plain, _, rfl, hkeys', hplain, ?_⟩
    intro e he
    have hrest : rest.map write = (rest.map fun a => (write a).fields).map .table := by
      rw [List.map_map]
      exact List.map_congr_left fun a _ => hwrite a
    rw [List.mem_singleton.1 he, List.map_cons, hrest, hwrite a]
    refine .rows hitems.1 fun fields hmem => ?_
    obtain ⟨a', ha', rfl⟩ := List.mem_map.1 hmem
    exact hitems.2 a' ha'

end ScopedRetrieval.Toml
