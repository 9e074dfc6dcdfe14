/-
What a schedule hands back: every job that was given, once. The order is the schedule's own, so what
is proved of all permutations of the jobs holds whatever the slots and the durations are.
-/
import ScopedRetrieval.Loader.Schedule
import Mathlib.Data.List.Perm.Basic

namespace ScopedRetrieval.Schedule

variable {α : Type}

/-- Taking out the job that completes first leaves the others. -/
theorem takeFirst_perm (r : Running α) (running : List (Running α)) :
    ((takeFirst r running).1 :: (takeFirst r running).2).Perm (r :: running) := by
  induction running generalizing r with
  | nil => exact .refl _
  | cons s rest ih =>
    unfold takeFirst
    dsimp only
    split
    · exact .refl _
    · exact (List.Perm.swap ..).trans ((ih s).cons r)

/-- The jobs that run and the jobs that wait all complete. -/
theorem run_perm (running : List (Running α)) (waiting : List (Job α)) :
    (run running waiting).Perm (running.map (·.value) ++ waiting.map (·.value)) := by
  induction waiting generalizing running with
  | nil =>
    unfold run
    simpa using (List.mergeSort_perm running _).map (·.value)
  | cons j waiting ih =>
    cases running with
    | nil =>
      unfold run
      exact ih _
    | cons r running =>
      unfold run
      have hfirst := (takeFirst_perm r running).map (·.value)
      -- the job that completed and the one that takes its slot stand at the seam of the two lists
      refine ((ih _).cons _).trans ?_
      simpa using hfirst.append_right ((j :: waiting).map (·.value))

/-- Every job is handed back once. -/
theorem completions_perm (slots : Nat) (jobs : List (Job α)) :
    (completions slots jobs).Perm (jobs.map (·.value)) := by
  unfold completions
  refine (run_perm _ _).trans (List.Perm.of_eq ?_)
  rw [List.map_map]
  show (jobs.take _).map (·.value) ++ (jobs.drop _).map (·.value) = _
  rw [← List.map_append, List.take_append_drop]

end ScopedRetrieval.Schedule
