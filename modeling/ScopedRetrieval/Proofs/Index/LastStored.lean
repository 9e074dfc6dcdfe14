/-
What an index finds, told by its history alone. Under an identifier stands the entry that was stored
there last, if nothing has decided otherwise since: no entry of another time, no removal, no
replacement of all and no clearing (`get?_replay_eq_some_iff`). An index is thus a finite map of
its history, in which a replacement of all that lists a document twice keeps the last entry for it.
-/
import ScopedRetrieval.Proofs.Index.Change
import ScopedRetrieval.Proofs.Text.ByteOrder
import Mathlib.Data.List.Induction

namespace ScopedRetrieval.Index

/-! ## The last entry that was stored -/

namespace Change

/-- The change stores an entry under an identifier. Of the entries that take the place of all, the
last one for a document counts. -/
def Stores (c : Change) (id : String) (e : Entry) : Prop :=
  match c with
  | .put e' => e' = e ∧ e.document.id = id
  | .replaceAll entries => ∃ before after, entries = before ++ e :: after ∧ e.document.id = id ∧
      ∀ e' ∈ after, e'.document.id ≠ id
  | .remove _ | .clear | .markLoaded => False

/-- After the change it does not matter what stood under an identifier before. -/
def Decides (c : Change) (id : String) : Prop :=
  match c with
  | .put e => e.document.id = id
  | .remove id' => id' = id
  | .replaceAll _ | .clear => True
  | .markLoaded => False

theorem Stores.decides {c : Change} {id : String} {e : Entry} (h : c.Stores id e) :
    c.Decides id := by
  cases c with
  | put e' =>
    obtain ⟨rfl, hid⟩ := h
    exact hid
  | replaceAll | clear => trivial
  | remove | markLoaded => exact h.elim

theorem Stores.id_eq {c : Change} {id : String} {e : Entry} (h : c.Stores id e) :
    e.document.id = id := by
  cases c with
  | put e' => exact h.2
  | replaceAll entries =>
    obtain ⟨_, _, _, hid, _⟩ := h
    exact hid
  | remove | clear | markLoaded => exact h.elim

end Change

/-- Some change of the history stored the entry under the identifier, and none after it has decided
on that identifier again. -/
def LastStored (changes : List Change) (id : String) (e : Entry) : Prop :=
  ∃ before c after, changes = before ++ c :: after ∧ c.Stores id e ∧ ∀ c' ∈ after, ¬c'.Decides id

theorem not_lastStored_nil (id : String) (e : Entry) : ¬LastStored [] id e := by
  rintro ⟨before, c, after, h, -⟩
  simp at h

theorem lastStored_concat_iff (changes : List Change) (c : Change) (id : String) (e : Entry) :
    LastStored (changes ++ [c]) id e ↔
      c.Stores id e ∨ ¬c.Decides id ∧ LastStored changes id e := by
  constructor
  · rintro ⟨before, c', after, h, hstores, hafter⟩
    -- the change that stored the entry is the last one, or stands before it
    rcases List.eq_nil_or_concat after with rfl | ⟨after, last, rfl⟩
    · obtain ⟨-, hc⟩ := List.append_inj' h rfl
      obtain rfl : c = c' := by simpa using hc
      exact .inl hstores
    · rw [List.concat_eq_append, ← List.cons_append, ← List.append_assoc] at h
      obtain ⟨rfl, hc⟩ := List.append_inj' h rfl
      obtain rfl : c = last := by simpa using hc
      exact .inr ⟨hafter c (by simp),
        before, c', after, rfl, hstores, fun c'' h'' => hafter c'' (by simp [h''])⟩
  · rintro (hstores | ⟨hnot, before, c', after, rfl, hstores, hafter⟩)
    · exact ⟨changes, c, [], rfl, hstores, by simp⟩
    · refine ⟨before, c', after ++ [c], by simp, hstores, fun c'' h'' => ?_⟩
      rcases List.mem_append.1 h'' with h'' | h''
      · exact hafter c'' h''
      · obtain rfl := List.mem_singleton.1 h''
        exact hnot

/-! ## One change -/

theorem get?_apply_of_not_decides {c : Change} {id : String} (h : ¬c.Decides id) (i : Index) :
    (c.apply i).get? id = i.get? id := by
  cases c with
  | put e => exact (i.get?_put e id).trans (if_neg fun heq => h heq.symm)
  | remove id' => exact (i.get?_remove id' id).trans (if_neg fun heq => h heq.symm)
  | replaceAll | clear => exact absurd trivial h
  | markLoaded => rfl

theorem get?_apply_of_decides {c : Change} {id : String} (h : c.Decides id) (i : Index)
    (e : Entry) : (c.apply i).get? id = some e ↔ c.Stores id e := by
  cases c with
  | put e' =>
    obtain rfl : e'.document.id = id := h
    have := i.get?_put e' e'.document.id
    rw [if_pos rfl] at this
    show (i.put e').get? _ = some e ↔ e' = e ∧ _
    rw [this, Option.some.injEq]
    refine ⟨?_, And.left⟩
    rintro rfl
    exact ⟨rfl, rfl⟩
  | remove id' =>
    have := i.get?_remove id' id
    rw [if_pos (Eq.symm h)] at this
    show (i.remove id').2.get? id = some e ↔ False
    simp [this]
  | replaceAll entries =>
    show (i.replaceAll entries).get? id = some e ↔ _
    rw [get?_replaceAll, KeyMap.lookup_reverse_map_eq_some_iff]
    rfl
  | clear => exact ⟨fun hget => (by cases hget), False.elim⟩
  | markLoaded => exact h.elim

/-! ## The whole history -/

/-- A new index finds, after some changes, what they stored last. -/
theorem get?_replay_eq_some_iff (changes : List Change) (id : String) (e : Entry) :
    (replay .empty changes).get? id = some e ↔ LastStored changes id e := by
  induction changes using List.reverseRecOn generalizing e with
  | nil =>
    exact ⟨fun h => (by cases h), fun h => (not_lastStored_nil id e h).elim⟩
  | append_singleton changes c ih =>
    rw [replay_append, lastStored_concat_iff]
    show (c.apply (replay .empty changes)).get? id = some e ↔ _
    by_cases hc : c.Decides id
    · simp [get?_apply_of_decides hc, hc]
    · have hnot : ¬c.Stores id e := fun h => hc h.decides
      simp [get?_apply_of_not_decides hc, ih, hc, hnot]

/-- What an index shows after a history. -/
structure Reflects (i : Index) (changes : List Change) : Prop where
  get?_iff : ∀ id e, i.get? id = some e ↔ LastStored changes id e
  remove_iff : ∀ id, (i.remove id).1 = true ↔ ∃ e, LastStored changes id e
  remove_eq_self : ∀ id, (i.remove id).1 = false → (i.remove id).2 = i
  filed : i.Filed
  ids_ascending : i.snapshot.ids.Pairwise (fun a b => Text.utf8 a < Text.utf8 b)
  -- the entries of a snapshot stand in the order of its identifiers
  map_id_toList : i.snapshot.toList.map (·.document.id) = i.snapshot.ids
  size_eq : i.snapshot.size = i.snapshot.ids.length
  isEmpty_iff : i.snapshot.isEmpty = true ↔ i.snapshot.size = 0

theorem reflects_replay (changes : List Change) : (replay .empty changes).Reflects changes := by
  have hget := get?_replay_eq_some_iff changes
  have hfiled : (replay .empty changes).Filed := fun id e he => by
    obtain ⟨_, _, _, _, hstores, _⟩ := (hget id e).1 he
    exact hstores.id_eq
  constructor
  case get?_iff => exact hget
  case remove_iff =>
    intro id
    rw [remove_found_iff]
    exact exists_congr (hget id)
  case remove_eq_self => exact fun id => remove_of_not_found
  case filed => exact hfiled
  case ids_ascending =>
    exact (KeyMap.keys_ascending _).imp fun h => (Text.utf8_lt_utf8_iff _ _).2 h
  case map_id_toList => exact KeyMap.map_values_eq_keys hfiled
  case size_eq => exact (List.length_map _).symm
  case isEmpty_iff => exact List.isEmpty_iff.trans List.length_eq_zero_iff.symm

end ScopedRetrieval.Index
