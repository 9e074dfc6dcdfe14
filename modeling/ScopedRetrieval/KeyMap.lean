/-
Finite maps from text keys. The entries stand in strictly ascending order of their keys, so each
key occurs once, every enumeration is in key order and maps with the same lookups are equal
(`KeyMap.ext_find?`). Keys are ordered by code points, which is the order of their UTF-8 bytes.
-/

namespace ScopedRetrieval

/-- A finite map whose entries stand in strictly ascending order of their keys. -/
structure KeyMap (β : Type) where
  entries : List (String × β)
  ascending : entries.Pairwise (fun a b => a.1 < b.1)
deriving DecidableEq

namespace KeyMap

variable {β γ : Type}

/-! ## Entry lists -/

/-- Puts an entry in its place; an entry of the same key gives way. -/
def insertEntry (k : String) (v : β) : List (String × β) → List (String × β)
  | [] => [(k, v)]
  | e :: rest =>
    if k < e.1 then (k, v) :: e :: rest
    else if k = e.1 then (k, v) :: rest
    else e :: insertEntry k v rest

theorem mem_insertEntry {k : String} {v : β} {l : List (String × β)} {e : String × β}
    (h : e ∈ insertEntry k v l) : e = (k, v) ∨ e ∈ l := by
  induction l with
  | nil => simpa [insertEntry] using h
  | cons a rest ih =>
    unfold insertEntry at h
    split at h
    · simpa using h
    · split at h
      · rcases List.mem_cons.1 h with rfl | h
        · exact .inl rfl
        · exact .inr (List.mem_cons_of_mem _ h)
      · rcases List.mem_cons.1 h with rfl | h
        · exact .inr List.mem_cons_self
        · exact (ih h).imp id (List.mem_cons_of_mem _)

theorem key_lt_of_not {k k' : String} (h₁ : ¬k < k') (h₂ : k ≠ k') : k' < k := by
  rcases String.le_total k k' with h | h
  · exact absurd (String.le_antisymm h (String.not_lt.1 h₁)) h₂
  · exact String.not_le.1 fun h' => h₂ (String.le_antisymm h' h)

theorem ascending_insertEntry (k : String) (v : β) {l : List (String × β)}
    (h : l.Pairwise (fun a b => a.1 < b.1)) :
    (insertEntry k v l).Pairwise (fun a b => a.1 < b.1) := by
  induction l with
  | nil => simp [insertEntry]
  | cons a rest ih =>
    obtain ⟨ha, hr⟩ := List.pairwise_cons.1 h
    unfold insertEntry
    split
    · rename_i hk
      refine List.pairwise_cons.2 ⟨fun b hb => ?_, h⟩
      rcases List.mem_cons.1 hb with rfl | hb
      · exact hk
      · exact String.lt_trans hk (ha b hb)
    · rename_i hk
      split
      · rename_i he
        subst he
        exact List.pairwise_cons.2 ⟨ha, hr⟩
      · rename_i hne
        refine List.pairwise_cons.2 ⟨fun b hb => ?_, ih hr⟩
        rcases mem_insertEntry hb with rfl | hb
        · exact key_lt_of_not hk hne
        · exact ha b hb

/-! ## Operations -/

def empty : KeyMap β := ⟨[], .nil⟩

instance : EmptyCollection (KeyMap β) := ⟨empty⟩
instance : Inhabited (KeyMap β) := ⟨empty⟩

def find? (m : KeyMap β) (k : String) : Option β := m.entries.lookup k

def contains (m : KeyMap β) (k : String) : Bool := (m.find? k).isSome

/-- Stores a value under a key, in place of the one stored before. -/
def insert (m : KeyMap β) (k : String) (v : β) : KeyMap β :=
  ⟨insertEntry k v m.entries, ascending_insertEntry k v m.ascending⟩

def erase (m : KeyMap β) (k : String) : KeyMap β :=
  ⟨m.entries.filter (·.1 ≠ k), m.ascending.filter _⟩

/-- The map of a list of pairs; of two pairs with one key the later one counts. -/
def ofList (l : List (String × β)) : KeyMap β := l.foldl (fun m e => m.insert e.1 e.2) empty

/-- The pairs in ascending order of their keys. -/
def toList (m : KeyMap β) : List (String × β) := m.entries

/-- The keys in ascending order. -/
def keys (m : KeyMap β) : List String := m.entries.map (·.1)

/-- The values in ascending order of their keys. -/
def values (m : KeyMap β) : List β := m.entries.map (·.2)

def size (m : KeyMap β) : Nat := m.entries.length

def isEmpty (m : KeyMap β) : Bool := m.entries.isEmpty

/-! ## Lookups -/

theorem lookup_insertEntry (k k' : String) (v : β) (l : List (String × β)) :
    (insertEntry k v l).lookup k' = if k' = k then some v else l.lookup k' := by
  induction l with
  | nil => grind [insertEntry]
  | cons a rest ih =>
    unfold insertEntry
    split
    · grind
    · split <;> grind

theorem lookup_filter_ne (k k' : String) (l : List (String × β)) :
    (l.filter (·.1 ≠ k)).lookup k' = if k' = k then none else l.lookup k' := by
  induction l with
  | nil => simp
  | cons a rest ih => grind

@[simp] theorem find?_empty (k : String) : (empty : KeyMap β).find? k = none := rfl

/-- A key just stored has its new value; every other key keeps its own. -/
theorem find?_insert (m : KeyMap β) (k k' : String) (v : β) :
    (m.insert k v).find? k' = if k' = k then some v else m.find? k' :=
  lookup_insertEntry k k' v m.entries

/-- A key just forgotten has no value; every other key keeps its own. -/
theorem find?_erase (m : KeyMap β) (k k' : String) :
    (m.erase k).find? k' = if k' = k then none else m.find? k' :=
  lookup_filter_ne k k' m.entries

/-- A pair is an entry exactly when its key has its value. -/
theorem mem_entries_iff (m : KeyMap β) (k : String) (v : β) :
    (k, v) ∈ m.entries ↔ m.find? k = some v := by
  obtain ⟨l, hl⟩ := m
  unfold find?
  induction l with
  | nil => simp
  | cons a rest ih =>
    obtain ⟨ha, hr⟩ := List.pairwise_cons.1 hl
    have ih := ih hr
    simp only at ih ⊢
    rw [List.mem_cons, List.lookup_cons]
    by_cases hk : k = a.1
    · subst hk
      have hno : (a.1, v) ∉ rest := fun h => String.lt_irrefl _ (ha (a.1, v) h)
      simp [hno, Prod.ext_iff, eq_comm]
    · have hb : (k == a.1) = false := by simpa using hk
      simp [hb, ih, Prod.ext_iff, hk]

theorem entries_ext {l₁ l₂ : List (String × β)} (h₁ : l₁.Pairwise (fun a b => a.1 < b.1))
    (h₂ : l₂.Pairwise (fun a b => a.1 < b.1)) (h : ∀ e, e ∈ l₁ ↔ e ∈ l₂) : l₁ = l₂ := by
  induction l₁ generalizing l₂ with
  | nil =>
    cases l₂ with
    | nil => rfl
    | cons b _ => simpa using h b
  | cons a r₁ ih =>
    cases l₂ with
    | nil => simpa using h a
    | cons b r₂ =>
      obtain ⟨ha, hr₁⟩ := List.pairwise_cons.1 h₁
      obtain ⟨hb, hr₂⟩ := List.pairwise_cons.1 h₂
      have hab : a = b := by
        rcases List.mem_cons.1 ((h a).1 List.mem_cons_self) with rfl | h1
        · rfl
        rcases List.mem_cons.1 ((h b).2 List.mem_cons_self) with rfl | h2
        · rfl
        exact absurd (hb a h1) (String.lt_asymm (ha b h2))
      subst hab
      rw [ih hr₁ hr₂ fun e => ?_]
      have := h e
      simp only [List.mem_cons] at this
      constructor
      · intro he
        rcases this.1 (.inr he) with rfl | he'
        · exact absurd (ha _ he) (String.lt_irrefl _)
        · exact he'
      · intro he
        rcases this.2 (.inr he) with rfl | he'
        · exact absurd (hb _ he) (String.lt_irrefl _)
        · exact he'

/-- Maps in which every key has the same value are equal. -/
theorem ext_find? {m₁ m₂ : KeyMap β} (h : ∀ k, m₁.find? k = m₂.find? k) : m₁ = m₂ := by
  obtain ⟨l₁, h₁⟩ := m₁
  obtain ⟨l₂, h₂⟩ := m₂
  congr 1
  refine entries_ext h₁ h₂ fun e => ?_
  have e₁ := mem_entries_iff ⟨l₁, h₁⟩ e.1 e.2
  have e₂ := mem_entries_iff ⟨l₂, h₂⟩ e.1 e.2
  rw [e₁, e₂, h e.1]

end KeyMap

end ScopedRetrieval
