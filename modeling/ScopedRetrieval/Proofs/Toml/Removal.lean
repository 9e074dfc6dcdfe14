/-
Documents from which parts are removed: any fields and tables, and items of arrays. A field that is
left is found with what is left of its value (`lookup_without`), so that reading it gives its
default where it is removed, and otherwise what its value reads as. What is left of a line is a line
again (`Value.IsLine.without`).
-/
import ScopedRetrieval.Proofs.Toml.Shape

namespace ScopedRetrieval.Toml

/-! ## Removals -/

/-- A step into a value. -/
inductive Step where
  | field (key : String)
  | item (position : Nat)
deriving DecidableEq

/-- What is removed from a value, by its places; with a place goes all that is in it. -/
abbrev Removal := List Step → Bool

namespace Removal

variable (removed : Removal)

/-- What is removed inside of a part. -/
def inside (step : Step) : Removal := fun place => removed (step :: place)

/-- What a field says, or its default where the field is removed. -/
def keepOr {α : Type} (key : String) (default kept : α) : α :=
  if removed [.field key] then default else kept

/-- The items that are left, each as what is left of it. -/
def keptItems {α β : Type} (left : Removal → α → β) : Nat → List α → List β
  | _, [] => []
  | position, a :: rest =>
    if removed [.item position] then keptItems left (position + 1) rest
    else left (removed.inside (.item position)) a :: keptItems left (position + 1) rest

section
variable {removed : Removal} {α β γ : Type} (left : Removal → α → β) (position : Nat)

theorem keptItems_map (f : γ → α) (l : List γ) :
    removed.keptItems left position (l.map f) =
      removed.keptItems (fun r c => left r (f c)) position l := by
  induction l generalizing position with
  | nil => rfl
  | cons c l ih => rw [List.map_cons, keptItems, keptItems, ih]

theorem map_keptItems (f : β → γ) (l : List α) :
    (removed.keptItems left position l).map f =
      removed.keptItems (fun r a => f (left r a)) position l := by
  induction l generalizing position with
  | nil => rfl
  | cons a l ih =>
    rw [keptItems, keptItems]
    split
    · exact ih _
    · rw [List.map_cons, ih]

theorem mem_keptItems {l : List α} {b : β} (h : b ∈ removed.keptItems left position l) :
    ∃ a ∈ l, ∃ r, b = left r a := by
  induction l generalizing position with
  | nil => simp [keptItems] at h
  | cons a l ih =>
    rw [keptItems] at h
    split at h
    · obtain ⟨a', ha', hleft⟩ := ih _ h
      exact ⟨a', List.mem_cons_of_mem _ ha', hleft⟩
    · rcases List.mem_cons.1 h with rfl | h
      · exact ⟨a, List.mem_cons_self, _, rfl⟩
      · obtain ⟨a', ha', hleft⟩ := ih _ h
        exact ⟨a', List.mem_cons_of_mem _ ha', hleft⟩

end

/-- The removal of nothing. -/
def nothing : Removal := fun _ => false

theorem keptItems_nothing {α : Type} {left : Removal → α → α} (h : ∀ a, left nothing a = a)
    (position : Nat) (l : List α) : nothing.keptItems left position l = l := by
  induction l generalizing position with
  | nil => rfl
  | cons a l ih =>
    show left nothing a :: nothing.keptItems left (position + 1) l = _
    rw [h, ih]

end Removal

mutual

/-- What is left of a value. -/
def Value.without (removed : Removal) : Value → Value
  | .array items => .array (itemsWithout removed 0 items)
  | .table fields => .table (fieldsWithout removed fields)
  | v => v

def itemsWithout (removed : Removal) : Nat → List Value → List Value
  | _, [] => []
  | position, v :: rest =>
    if removed [.item position] then itemsWithout removed (position + 1) rest
    else
      v.without (removed.inside (.item position)) :: itemsWithout removed (position + 1) rest

def fieldsWithout (removed : Removal) : List (String × Value) → List (String × Value)
  | [] => []
  | (key, v) :: rest =>
    if removed [.field key] then fieldsWithout removed rest
    else (key, v.without (removed.inside (.field key))) :: fieldsWithout removed rest

end

def Table.without (t : Table) (removed : Removal) : Table := fieldsWithout removed t

section
variable {removed : Removal} {α : Type}

@[simp] theorem without_table (t : Table) :
    (Value.table t).without removed = .table (t.without removed) := by
  rw [Value.without, Table.without]

@[simp] theorem without_string (s : String) : (Value.string s).without removed = .string s := rfl

theorem string?_without (s : String) : ((Value.string s).without removed).string? = some s := rfl

theorem boolean?_without (b : Bool) : ((Value.boolean b).without removed).boolean? = some b := rfl

@[simp] theorem without_integer (n : Int) : (Value.integer n).without removed = .integer n := rfl

@[simp] theorem without_boolean (b : Bool) : (Value.boolean b).without removed = .boolean b := rfl

theorem itemsWithout_eq_keptItems (position : Nat) (items : List Value) :
    itemsWithout removed position items =
      removed.keptItems (fun r v => v.without r) position items := by
  induction items generalizing position with
  | nil => rw [itemsWithout, Removal.keptItems]
  | cons v items ih => rw [itemsWithout, Removal.keptItems, ih]

mutual

theorem Value.without_nothing : (v : Value) → v.without .nothing = v
  | .array items => by rw [Value.without, itemsWithout_nothing]
  | .table fields => by rw [Value.without, fieldsWithout_nothing]
  | .string _ | .integer _ | .float _ | .boolean _ | .moment _ => rfl

theorem itemsWithout_nothing : (position : Nat) → (items : List Value) →
    itemsWithout .nothing position items = items
  | _, [] => rfl
  | position, v :: rest => by
    show v.without .nothing :: itemsWithout .nothing (position + 1) rest = _
    rw [v.without_nothing, itemsWithout_nothing]

theorem fieldsWithout_nothing : (fields : List (String × Value)) →
    fieldsWithout .nothing fields = fields
  | [] => rfl
  | (key, v) :: rest => by
    show (key, v.without .nothing) :: fieldsWithout .nothing rest = _
    rw [v.without_nothing, fieldsWithout_nothing]

end

theorem Table.without_nothing (t : Table) : t.without .nothing = t := fieldsWithout_nothing t

/-! ## Reading what is left -/

theorem lookup_without (t : Table) (key : String) :
    (t.without removed).lookup key =
      if removed [.field key] then none
      else (t.lookup key).map (Value.without (removed.inside (.field key))) := by
  unfold Table.without
  induction t with
  | nil => simp [fieldsWithout]
  | cons e t ih =>
    obtain ⟨key', v⟩ := e
    rw [fieldsWithout]
    by_cases hkey : key = key'
    · subst hkey
      split
      · rw [ih, if_pos ‹_›]
      · simp
    · have hne : (key == key') = false := by simpa using hkey
      split <;> simp [List.lookup_cons, hne, ih]

namespace Table

variable (removed : Removal) (t : Table) (name : String) {v : Value} {a : α}

/-- A field that must be there. -/
theorem need_without {read : Value → Option α} (hlookup : t.lookup name = some v)
    (hread : read (v.without (removed.inside (.field name))) = some a) :
    (t.without removed).need name read =
      if removed [.field name] then .error (.missing name) else .ok a := by
  rw [need, lookup_without, hlookup]
  cases removed [.field name] with
  | true => rfl
  | false =>
    show (read _).elim _ _ = _
    rw [hread]
    rfl

theorem needOr_without {read : Value → Option α} (hlookup : t.lookup name = some v)
    (hread : read (v.without (removed.inside (.field name))) = some a) (default : α) :
    (t.without removed).needOr name default read = .ok (removed.keepOr name default a) := by
  rw [needOr, lookup_without, hlookup, Removal.keepOr]
  cases removed [.field name] with
  | true => rfl
  | false =>
    show (read _).elim _ _ = _
    rw [hread]
    rfl

theorem text_without {s : String} (hlookup : t.lookup name = some (.string s)) (default : String) :
    (t.without removed).needOr name default Value.string? =
      .ok (removed.keepOr name default s) :=
  needOr_without removed t name hlookup (string?_without s) default

/-- A field that may be absent. -/
theorem need?_without {read : Value → Option α} {write : α → Value} {kept : Option α}
    (hlookup : t.lookup name = kept.map write)
    (hread : ∀ a, read ((write a).without (removed.inside (.field name))) = some a) :
    (t.without removed).need? name read = .ok (removed.keepOr name none kept) := by
  rw [need?, needOr, lookup_without, hlookup, Removal.keepOr]
  cases kept with
  | none => cases removed [.field name] <;> rfl
  | some a =>
    cases removed [.field name] with
    | true => rfl
    | false =>
      show ((read _).map some).elim _ _ = _
      rw [hread]
      rfl

theorem within_without (hlookup : t.lookup name = some v) (default : α)
    (read : Value → Except ShapeFault α) :
    (t.without removed).within name default read =
      if removed [.field name] then .ok default
      else read (v.without (removed.inside (.field name))) := by
  rw [within, lookup_without, hlookup]
  cases removed [.field name] <;> rfl

theorem within_without_eq_ok {read : Value → Except ShapeFault α}
    (hlookup : t.lookup name = some v)
    (hread : read (v.without (removed.inside (.field name))) = .ok a) (default : α) :
    (t.without removed).within name default read = .ok (removed.keepOr name default a) := by
  rw [within_without removed t name hlookup, hread, Removal.keepOr]
  split <;> rfl

end Table

/-! ## Writing what is left -/

theorem Value.IsScalar.without {v : Value} (h : v.IsScalar) : (v.without removed).IsScalar := by
  cases h with
  | string s => simpa using .string s
  | integer hfits => simpa using .integer hfits
  | boolean b => simpa using .boolean b

theorem Value.IsLine.without {v : Value} (h : v.IsLine) : (v.without removed).IsLine := by
  cases h with
  | scalar h => exact .scalar h.without
  | array h =>
    rw [Value.without, itemsWithout_eq_keptItems]
    refine .array fun v hv => ?_
    obtain ⟨u, hu, r, rfl⟩ := Removal.mem_keptItems _ _ hv
    exact (h u hu).without

theorem without_append (t t' : Table) :
    Table.without (t ++ t') removed = t.without removed ++ t'.without removed := by
  unfold Table.without
  induction t with
  | nil => simp [fieldsWithout]
  | cons e t ih =>
    rw [List.cons_append, fieldsWithout, fieldsWithout]
    split
    · exact ih
    · rw [ih, List.cons_append]

theorem without_singleton (key : String) (v : Value) :
    Table.without [(key, v)] removed =
      if removed [.field key] then [] else [(key, v.without (removed.inside (.field key)))] := by
  rw [Table.without, fieldsWithout, fieldsWithout]

theorem mem_without {t : Table} {e : String × Value} (h : e ∈ t.without removed) :
    ∃ u, (e.1, u) ∈ t ∧ e.2 = u.without (removed.inside (.field e.1)) := by
  unfold Table.without at h
  induction t with
  | nil => simp [fieldsWithout] at h
  | cons e' t ih =>
    rw [fieldsWithout] at h
    split at h
    · obtain ⟨u, hu, hleft⟩ := ih h
      exact ⟨u, List.mem_cons_of_mem _ hu, hleft⟩
    · rcases List.mem_cons.1 h with rfl | h
      · exact ⟨_, List.mem_cons_self, rfl⟩
      · obtain ⟨u, hu, hleft⟩ := ih h
        exact ⟨u, List.mem_cons_of_mem _ hu, hleft⟩

theorem lines_without {t : Table} (h : ∀ e ∈ t, e.2.IsLine) :
    ∀ e ∈ t.without removed, e.2.IsLine := by
  intro e he
  obtain ⟨u, hu, hleft⟩ := mem_without he
  exact hleft ▸ (h _ hu).without

theorem keys_without_sublist (t : Table) :
    ((t.without removed).map (·.1)).Sublist (t.map (·.1)) := by
  unfold Table.without
  induction t with
  | nil => simp [fieldsWithout]
  | cons e t ih =>
    rw [fieldsWithout]
    split
    · exact ih.cons _
    · exact ih.cons_cons _

/-- What is left of a table of plain fields is one. -/
theorem Table.Nested.without {t : Table} (h : t.Nested 0) : (t.without removed).Nested 0 := by
  obtain ⟨plain, headed, rfl, hkeys, hplain, hheaded⟩ := h
  obtain rfl : headed = [] := by
    refine List.eq_nil_iff_forall_not_mem.2 fun ⟨key, v⟩ he => ?_
    have hsection : v.IsSection fun _ => False := hheaded _ he
    cases hsection with
    | table h => exact h
    | rows hfirst _ => exact hfirst
  rw [List.append_nil] at hkeys ⊢
  exact Table.nested_of_lines (hkeys.sublist (keys_without_sublist plain)) (lines_without hplain)

end

end ScopedRetrieval.Toml
