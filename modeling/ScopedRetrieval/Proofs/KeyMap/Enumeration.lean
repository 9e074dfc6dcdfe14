/-
What a finite map lists and how it is filled. The keys are listed in strictly ascending order; a
value is listed exactly when some key has it; and of the pairs that are stored one after the other
the last one with a key decides.
-/
import ScopedRetrieval.KeyMap
import Mathlib.Data.List.Basic

namespace ScopedRetrieval.KeyMap

variable {β γ : Type}

/-! ## Keys and values -/

theorem keys_ascending (m : KeyMap β) : m.keys.Pairwise (· < ·) :=
  List.pairwise_map.2 m.ascending

theorem keys_nodup (m : KeyMap β) : m.keys.Nodup := by
  refine m.keys_ascending.imp ?_
  rintro a _ h rfl
  exact String.lt_irrefl a h

/-- What is made of the listed pairs is made of some key and its value. -/
theorem mem_map_toList_iff (m : KeyMap β) (f : String × β → γ) (c : γ) :
    c ∈ m.toList.map f ↔ ∃ k v, m.find? k = some v ∧ f (k, v) = c := by
  rw [List.mem_map]
  constructor
  · rintro ⟨⟨k, v⟩, he, rfl⟩
    exact ⟨k, v, (m.mem_entries_iff k v).1 he, rfl⟩
  · rintro ⟨k, v, h, rfl⟩
    exact ⟨(k, v), (m.mem_entries_iff k v).2 h, rfl⟩

/-- What holds of the listed pairs holds of each key with its value. -/
theorem forall_mem_toList_iff (m : KeyMap β) (P : String × β → Prop) :
    (∀ e ∈ m.toList, P e) ↔ ∀ k v, m.find? k = some v → P (k, v) := by
  constructor
  · exact fun h k v hv => h (k, v) ((m.mem_entries_iff k v).2 hv)
  · exact fun h e he => h e.1 e.2 ((m.mem_entries_iff e.1 e.2).1 he)

theorem mem_keys_iff (m : KeyMap β) (k : String) : k ∈ m.keys ↔ ∃ v, m.find? k = some v := by
  refine (m.mem_map_toList_iff (·.1) k).trans ⟨?_, ?_⟩
  · rintro ⟨_, v, h, rfl⟩
    exact ⟨v, h⟩
  · rintro ⟨v, h⟩
    exact ⟨k, v, h, rfl⟩

theorem length_values (m : KeyMap β) : m.values.length = m.size := List.length_map _

/-- A value is listed exactly when some key has it. -/
theorem mem_values_iff (m : KeyMap β) (v : β) : v ∈ m.values ↔ ∃ k, m.find? k = some v := by
  refine (m.mem_map_toList_iff (·.2) v).trans ⟨?_, ?_⟩
  · rintro ⟨k, _, h, rfl⟩
    exact ⟨k, h⟩
  · rintro ⟨k, h⟩
    exact ⟨k, v, h, rfl⟩

/-- Where the key of a value can be read off the value, the listed values show the keys. -/
theorem map_values_eq_keys {m : KeyMap β} {key : β → String}
    (h : ∀ k v, m.find? k = some v → key v = k) : m.values.map key = m.keys := by
  unfold values keys
  rw [List.map_map]
  exact List.map_congr_left ((m.forall_mem_toList_iff fun e => key e.2 = e.1).2 h)

/-! ## Storing one after the other -/

/-- Under different keys it does not matter which value is stored first. -/
theorem insert_comm (m : KeyMap β) {k k' : String} (h : k ≠ k') (v v' : β) :
    (m.insert k v).insert k' v' = (m.insert k' v').insert k v := by
  refine ext_find? fun x => ?_
  rw [find?_insert, find?_insert, find?_insert, find?_insert]
  grind

/-- After some pairs were stored one after the other, the last one with a key decides; a key
without one keeps its value. -/
theorem find?_foldl_insert (l : List (String × β)) (m : KeyMap β) (k : String) :
    (l.foldl (fun m e => m.insert e.1 e.2) m).find? k = (l.reverse.lookup k).or (m.find? k) := by
  induction l generalizing m with
  | nil => simp
  | cons e rest ih =>
    obtain ⟨a, v⟩ := e
    -- what comes later is looked up first, so the first pair stands last
    rw [List.foldl_cons, ih, find?_insert, List.reverse_cons, List.lookup_append, Option.or_assoc]
    by_cases hk : k = a
    · subst hk
      simp
    · have hb : (k == a) = false := by simpa using hk
      simp [List.lookup_cons, hk, hb]

/-- The map of a list of pairs has under each key the last pair with that key. -/
theorem find?_ofList (l : List (String × β)) (k : String) :
    (ofList l).find? k = l.reverse.lookup k := by
  unfold ofList
  rw [find?_foldl_insert, find?_empty, Option.or_none]

theorem lookup_eq_none_of_notMem {l : List (String × β)} {k : String} (h : k ∉ l.map (·.1)) :
    l.lookup k = none := by
  rw [List.lookup_eq_none_iff]
  intro e he
  have hne : k ≠ e.1 := by
    rintro rfl
    exact h (List.mem_map_of_mem he)
  simpa using hne

/-- Where no two pairs with one key differ, the map of a list of pairs has just these. -/
theorem find?_ofList_eq_some_iff {l : List (String × β)}
    (h : ∀ k v v', (k, v) ∈ l → (k, v') ∈ l → v = v') (k : String) (v : β) :
    (ofList l).find? k = some v ↔ (k, v) ∈ l := by
  have hmem : ∀ v, l.reverse.lookup k = some v → (k, v) ∈ l := by
    intro v hv
    obtain ⟨l₁, l₂, hsplit, -⟩ := List.lookup_eq_some_iff.1 hv
    rw [← List.mem_reverse, hsplit]
    exact List.mem_append_right _ List.mem_cons_self
  rw [find?_ofList]
  constructor
  · exact hmem v
  · intro hv
    cases hfind : l.reverse.lookup k with
    | none =>
      rw [List.lookup_eq_none_iff] at hfind
      simpa using hfind (k, v) (List.mem_reverse.2 hv)
    | some v' => rw [h k v v' hv (hmem v' hfind)]

/-- A map is the map of its own pairs, in whatever order they are stored. -/
theorem ofList_eq_of_perm {l : List (String × β)} {m : KeyMap β} (h : l.Perm m.toList) :
    ofList l = m := by
  have huniq : ∀ k v v', (k, v) ∈ l → (k, v') ∈ l → v = v' := by
    intro k v v' hv hv'
    have hv := (m.mem_entries_iff k v).1 (h.mem_iff.1 hv)
    have hv' := (m.mem_entries_iff k v').1 (h.mem_iff.1 hv')
    exact Option.some.inj (hv.symm.trans hv')
  refine ext_find? fun k => Option.ext fun v => ?_
  rw [find?_ofList_eq_some_iff huniq, h.mem_iff]
  exact m.mem_entries_iff k v

theorem ofList_toList (m : KeyMap β) : ofList m.toList = m := ofList_eq_of_perm .rfl

/-- Where keys are renamed, no two to one name, each has its value under its new name. -/
theorem find?_ofList_map {name : String → String} (hname : ∀ k k', name k = name k' → k = k')
    (g : β → γ) (m : KeyMap β) (k : String) :
    (ofList (m.toList.map fun e => (name e.1, g e.2))).find? (name k) = (m.find? k).map g := by
  have hmem : ∀ k c, (name k, c) ∈ m.toList.map (fun e => (name e.1, g e.2)) ↔
      (m.find? k).map g = some c := by
    intro k c
    rw [mem_map_toList_iff, Option.map_eq_some_iff]
    constructor
    · rintro ⟨k', b, hb, heq⟩
      obtain ⟨hk, rfl⟩ := Prod.mk.injEq .. ▸ heq
      rw [← hname _ _ hk]
      exact ⟨b, hb, rfl⟩
    · rintro ⟨b, hb, rfl⟩
      exact ⟨k, b, hb, rfl⟩
  refine Option.ext fun c => ?_
  rw [find?_ofList_eq_some_iff _ (name k) c, hmem]
  intro x c c' h h'
  obtain ⟨⟨k', b⟩, he, heq⟩ := List.mem_map.1 h
  obtain ⟨rfl, -⟩ := Prod.mk.injEq .. ▸ heq
  exact Option.some.inj (((hmem k' c).1 h).symm.trans ((hmem k' c').1 h'))

/-- The last pair with a key is looked up from the end. -/
theorem lookup_reverse_eq_some_iff (l : List (String × β)) (k : String) (v : β) :
    l.reverse.lookup k = some v ↔
      ∃ before after, l = before ++ (k, v) :: after ∧ ∀ e ∈ after, e.1 ≠ k := by
  rw [List.lookup_eq_some_iff]
  constructor
  · rintro ⟨l₁, l₂, h, hne⟩
    refine ⟨l₂.reverse, l₁.reverse, ?_, fun e he => ?_⟩
    · rw [← List.reverse_inj, h]
      simp
    · exact (bne_iff_ne.1 (hne e (List.mem_reverse.1 he))).symm
  · rintro ⟨before, after, rfl, hne⟩
    refine ⟨after.reverse, before.reverse, by simp, fun e he => ?_⟩
    exact bne_iff_ne.2 (hne e (List.mem_reverse.1 he)).symm

/-- The map of a list of pairs has under a key what the last pair with that key has. -/
theorem find?_ofList_eq_some_iff_last (l : List (String × β)) (k : String) (v : β) :
    (ofList l).find? k = some v ↔
      ∃ before after, l = before ++ (k, v) :: after ∧ ∀ e ∈ after, e.1 ≠ k := by
  rw [find?_ofList, lookup_reverse_eq_some_iff]

/-- Of elements that are listed under keys of their own the last one with a key is looked up. -/
theorem lookup_reverse_map_eq_some_iff {α : Type} (key : α → String) (l : List α) (k : String)
    (a : α) :
    (l.map fun a => (key a, a)).reverse.lookup k = some a ↔
      ∃ before after, l = before ++ a :: after ∧ key a = k ∧ ∀ a' ∈ after, key a' ≠ k := by
  rw [lookup_reverse_eq_some_iff]
  constructor
  · rintro ⟨_, _, hsplit, hne⟩
    obtain ⟨before, rest, rfl, rfl, hrest⟩ := List.map_eq_append_iff.1 hsplit
    obtain ⟨a', after, rfl, ha, rfl⟩ := List.map_eq_cons_iff.1 hrest
    cases ha
    exact ⟨before, after, rfl, rfl, fun b hb => hne _ (List.mem_map_of_mem hb)⟩
  · rintro ⟨before, after, rfl, rfl, hne⟩
    refine ⟨before.map fun a => (key a, a), after.map fun a => (key a, a), by simp, fun p hp => ?_⟩
    obtain ⟨b, hb, rfl⟩ := List.mem_map.1 hp
    exact hne b hb

/-- Of elements that all have keys of their own each is the last one with its key. -/
theorem exists_last_of_nodup {α : Type} {key : α → String} {l : List α} (h : (l.map key).Nodup)
    {a : α} (ha : a ∈ l) :
    ∃ before after, l = before ++ a :: after ∧ ∀ a' ∈ after, key a' ≠ key a := by
  obtain ⟨before, after, rfl⟩ := List.append_of_mem ha
  refine ⟨before, after, rfl, fun a' ha' heq => ?_⟩
  rw [List.map_append, List.map_cons] at h
  obtain ⟨-, hafter, -⟩ := List.nodup_append.1 h
  exact (List.nodup_cons.1 hafter).1 (List.mem_map.2 ⟨a', ha', heq⟩)

/-- The keys of a list of pairs are the keys of its map. -/
theorem mem_keys_ofList_iff (l : List (String × β)) (k : String) :
    k ∈ (ofList l).keys ↔ k ∈ l.map (·.1) := by
  rw [mem_keys_iff, find?_ofList]
  cases h : l.reverse.lookup k with
  | none =>
    rw [List.lookup_eq_none_iff] at h
    constructor
    · rintro ⟨v, hv⟩
      cases hv
    · intro hk
      obtain ⟨e, he, rfl⟩ := List.mem_map.1 hk
      simpa using h e (List.mem_reverse.2 he)
  | some v =>
    obtain ⟨l₁, l₂, hsplit, -⟩ := List.lookup_eq_some_iff.1 h
    have hmem : (k, v) ∈ l.reverse := by
      rw [hsplit]
      exact List.mem_append_right _ List.mem_cons_self
    exact iff_of_true ⟨v, rfl⟩ (List.mem_map.2 ⟨_, List.mem_reverse.1 hmem, rfl⟩)

end ScopedRetrieval.KeyMap
