/-
The orders in which jobs may be handed back when nothing is known of how long they take. With a
number of slots, a job begins when a slot is free, in the order given, and any job that runs may be
the next to complete. Each such order hands back every job once (`Interleaves.perm`), and the order
that follows from the durations of the jobs is one of them (`completions_interleaves`).
-/
import ScopedRetrieval.Proofs.Loader.Schedule

namespace ScopedRetrieval.Schedule

variable {α : Type}

/-- With so many slots, the jobs that run and then those that wait may be handed back in the given
order. Nothing is handed back while a slot is free for a job that waits. -/
inductive Interleaves (slots : Nat) : List α → List α → List α → Prop where
  | done : Interleaves slots [] [] []
  | start {running waiting order : List α} {a : α} :
    running.length < slots → Interleaves slots (running ++ [a]) waiting order →
    Interleaves slots running (a :: waiting) order
  | complete {before after waiting order : List α} {a : α} :
    waiting = [] ∨ slots ≤ (before ++ a :: after).length →
    Interleaves slots (before ++ after) waiting order →
    Interleaves slots (before ++ a :: after) waiting (a :: order)

variable {slots : Nat}

theorem Interleaves.perm {running waiting order : List α}
    (h : Interleaves slots running waiting order) : order.Perm (running ++ waiting) := by
  induction h with
  | done => exact .refl []
  | start _ _ ih => simpa using ih
  | complete _ _ ih =>
    refine (ih.cons _).trans ?_
    rw [List.append_assoc, List.append_assoc]
    exact List.perm_middle.symm

/-! ## Orders that may occur -/

/-- When none wait, the jobs that run may complete in any order. -/
theorem interleaves_of_perm {running order : List α} (h : order.Perm running) :
    Interleaves slots running [] order := by
  induction order generalizing running with
  | nil =>
    obtain rfl := h.nil_eq
    exact .done
  | cons a order ih =>
    obtain ⟨before, after, rfl⟩ := List.append_of_mem (h.subset List.mem_cons_self)
    exact .complete (.inl rfl) (ih (h.trans List.perm_middle).cons_inv)

/-- Jobs for which there are free slots begin at once. -/
theorem interleaves_of_fill {running begun waiting order : List α}
    (hslots : running.length + begun.length ≤ slots)
    (h : Interleaves slots (running ++ begun) waiting order) :
    Interleaves slots running (begun ++ waiting) order := by
  induction begun generalizing running with
  | nil => simpa using h
  | cons a begun ih =>
    rw [List.length_cons] at hslots
    refine .start (by omega) (ih ?_ ?_)
    · rw [List.length_append, List.length_singleton]
      omega
    · simpa using h

/-- The job that completes first stands somewhere among those that run. -/
theorem takeFirst_split (r : Running α) (running : List (Running α)) :
    ∃ before after, r :: running = before ++ (takeFirst r running).1 :: after ∧
      (takeFirst r running).2 = before ++ after := by
  induction running generalizing r with
  | nil => exact ⟨[], [], rfl, rfl⟩
  | cons s rest ih =>
    obtain ⟨before, after, hsplit, hothers⟩ := ih s
    unfold takeFirst
    dsimp only
    split
    · exact ⟨[], s :: rest, rfl, rfl⟩
    · exact ⟨r :: before, after, by rw [hsplit]; rfl, by rw [hothers]; rfl⟩

/-- While jobs wait all slots are taken, so the one that completes makes room for the next. -/
theorem run_interleaves (hpos : 0 < slots) (running : List (Running α)) (waiting : List (Job α))
    (hfull : waiting ≠ [] → running.length = slots) :
    Interleaves slots (running.map (·.value)) (waiting.map (·.value)) (run running waiting) := by
  induction waiting generalizing running with
  | nil =>
    unfold run
    exact interleaves_of_perm ((List.mergeSort_perm running _).map _)
  | cons j waiting ih =>
    have hlength := hfull (List.cons_ne_nil j waiting)
    cases running with
    | nil => simp at hlength; omega
    | cons r running =>
      obtain ⟨before, after, hsplit, hothers⟩ := takeFirst_split r running
      unfold run
      generalize takeFirst r running = taken at hsplit hothers ⊢
      obtain ⟨first, others⟩ := taken
      obtain rfl : others = before ++ after := hothers
      rw [hsplit] at hlength ⊢
      simp only [List.length_append, List.length_cons] at hlength
      have hnext := ih (before ++ after ++ [⟨j.value, first.finish + j.duration⟩]) fun _ => by
        simp only [List.length_append, List.length_cons, List.length_nil]
        omega
      simp only [List.map_append, List.map_cons, List.map_nil] at hnext ⊢
      refine .complete (.inr ?_) (.start ?_ hnext)
      · simp only [List.length_append, List.length_cons, List.length_map]
        omega
      · simp only [List.length_append, List.length_map]
        omega

/-- The order that the durations of the jobs bring about is one that may occur. -/
theorem completions_interleaves (slots : Nat) (jobs : List (Job α)) :
    Interleaves (max slots 1) [] (jobs.map (·.value)) (completions slots jobs) := by
  have hpos : 0 < max slots 1 := Nat.lt_of_lt_of_le Nat.one_pos (Nat.le_max_right slots 1)
  unfold completions
  generalize max slots 1 = n at hpos ⊢
  have hrun := run_interleaves hpos ((jobs.take n).map fun j => ⟨j.value, j.duration⟩)
    (jobs.drop n) fun hwait => by
      rw [List.length_map, List.length_take]
      have := List.length_pos_of_ne_nil hwait
      rw [List.length_drop] at this
      omega
  rw [List.map_map] at hrun
  have hsplit : jobs.map (·.value) =
      (jobs.take n).map (·.value) ++ (jobs.drop n).map (·.value) := by
    rw [← List.map_append, List.take_append_drop]
  rw [hsplit]
  refine interleaves_of_fill ?_ hrun
  rw [List.length_map, List.length_take, List.length_nil]
  omega

end ScopedRetrieval.Schedule
