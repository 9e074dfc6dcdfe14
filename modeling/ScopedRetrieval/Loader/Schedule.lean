/-
Schedules: jobs that run side by side in a fixed number of slots. Each free slot takes the next job
in the order given, and the jobs are handed back in the order in which they complete.
-/

namespace ScopedRetrieval.Schedule

/-- Something to be done and the time it takes. -/
structure Job (α : Type) where
  value : α
  duration : Nat

/-- A job that has begun and the moment at which it completes. -/
structure Running (α : Type) where
  value : α
  finish : Nat

variable {α : Type}

/-- Takes out of the jobs that run the one that completes first, and of several the one that began
first. -/
def takeFirst (r : Running α) : List (Running α) → Running α × List (Running α)
  | [] => (r, [])
  | s :: rest =>
    let (first, others) := takeFirst s rest
    if r.finish ≤ first.finish then (r, s :: rest) else (first, r :: others)

/-- Lets the jobs that run complete; each leaves its slot to the next that waits. -/
def run : List (Running α) → List (Job α) → List α
  | running, [] => (running.mergeSort fun a b => a.finish ≤ b.finish).map (·.value)
  | [], j :: waiting => run [⟨j.value, j.duration⟩] waiting
  | r :: running, j :: waiting =>
    let (first, others) := takeFirst r running
    first.value :: run (others ++ [⟨j.value, first.finish + j.duration⟩]) waiting

/-- The values of the jobs in the order in which they complete; there is at least one slot. -/
def completions (slots : Nat) (jobs : List (Job α)) : List α :=
  let slots := max slots 1
  run ((jobs.take slots).map fun j => ⟨j.value, j.duration⟩) (jobs.drop slots)

/-- Two slots: the short second job completes first, and the third takes its slot. -/
example : completions 2 [⟨"a", 30⟩, ⟨"b", 10⟩, ⟨"c", 5⟩] = ["b", "c", "a"] := by
  cbv

end ScopedRetrieval.Schedule
