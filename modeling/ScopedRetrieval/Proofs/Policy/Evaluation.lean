/-
How a filter comes to its decision, whatever its checks look at. The denial on record is the first
veto in the order of the checks (`evaluate_deniedBy`), and the shortcut `admits` says the same as
the recorded decision (`isAdmitted_evaluate`). The trail beside it is the run of the checks up to
that veto (`evaluateChecks_records`).
-/
import ScopedRetrieval.Policy.Filter

namespace ScopedRetrieval

theorem Verdict.veto?_eq_none_iff (v : Verdict) : v.veto? = none ↔ v.isDeny = false := by
  cases v <;> simp [veto?, isDeny]

theorem Verdict.veto?_eq_some_iff (v : Verdict) (reason : String) :
    v.veto? = some reason ↔ v = .deny reason := by
  cases v <;> simp [veto?]

/-- The denial that a check by itself puts on record. -/
def Check.denial? (k : Check) (attributes : Attributes) (requester : Requester) : Option Denial :=
  (k.judge attributes requester).veto?.map (⟨k.name, ·⟩)

namespace Filter

theorem evaluateChecks_deniedBy (attributes : Attributes) (requester : Requester) :
    ∀ checks : List Check, (evaluateChecks attributes requester checks).deniedBy =
      checks.findSome? fun k => k.denial? attributes requester
  | [] => rfl
  | k :: rest => by
    unfold evaluateChecks
    rw [List.findSome?_cons]
    cases hv : (k.judge attributes requester).veto? with
    | some reason => simp [Check.denial?, hv]
    | none => simp [Check.denial?, hv, evaluateChecks_deniedBy attributes requester rest]

/-- The denial on record is that of the first check which denies. -/
theorem evaluate_deniedBy (f : Filter) (attributes : Attributes) (requester : Requester) :
    (f.evaluate attributes requester).deniedBy =
      f.checks.findSome? fun k => k.denial? attributes requester :=
  evaluateChecks_deniedBy attributes requester f.checks

theorem evaluateChecks_congr {attributes attributes' : Attributes}
    {requester requester' : Requester} : ∀ {checks : List Check},
    (∀ k ∈ checks, k.judge attributes requester = k.judge attributes' requester') →
      evaluateChecks attributes requester checks = evaluateChecks attributes' requester' checks
  | [], _ => rfl
  | k :: rest, h => by
    obtain ⟨hk, hrest⟩ := List.forall_mem_cons.1 h
    unfold evaluateChecks
    rw [hk, evaluateChecks_congr hrest]

/-- The decision is made of the verdicts of the checks and of nothing else. -/
theorem evaluate_congr {f : Filter} {attributes attributes' : Attributes}
    {requester requester' : Requester}
    (h : ∀ k ∈ f.checks, k.judge attributes requester = k.judge attributes' requester') :
    f.evaluate attributes requester = f.evaluate attributes' requester' :=
  evaluateChecks_congr h

/-- The recorded decision admits exactly when the shortcut does. -/
theorem isAdmitted_evaluate (f : Filter) (attributes : Attributes) (requester : Requester) :
    (f.evaluate attributes requester).isAdmitted = f.admits attributes requester := by
  rw [Bool.eq_iff_iff]
  unfold Decision.isAdmitted admits
  rw [evaluate_deniedBy, Option.isNone_iff_eq_none, List.findSome?_eq_none_iff, List.all_eq_true]
  refine forall₂_congr fun k _ => ?_
  rw [Check.denial?, Option.map_eq_none_iff, Verdict.veto?_eq_none_iff, Bool.not_eq_true']

end Filter

/-! ## The trail -/

/-- What a check by itself puts on the trail. -/
def Check.outcome (k : Check) (attributes : Attributes) (requester : Requester) : CheckOutcome :=
  ⟨k.name, k.judge attributes requester⟩

namespace Decision

/-- The decision records the run of these verdicts up to the first veto. -/
structure Records (d : Decision) (verdicts : List CheckOutcome) : Prop where
  /-- The verdicts before the first veto, and that one, if there is any. -/
  trail : d.outcomes = verdicts.takeWhile (fun o => !o.verdict.isDeny) ++
    (verdicts.find? fun o => o.verdict.isDeny).toList
  /-- The denial is the veto at the end of the trail. -/
  deniedBy_iff : ∀ denial, d.deniedBy = some denial ↔
    d.outcomes.getLast? = some ⟨denial.check, .deny denial.reason⟩
  no_earlier_veto : ∀ o ∈ d.outcomes.dropLast, o.verdict.isDeny = false

theorem records_nil : Records ⟨[], none⟩ [] := by
  constructor
  case trail => rfl
  case deniedBy_iff => simp
  case no_earlier_veto => simp

/-- A veto ends the trail, whatever was to come. -/
theorem records_veto (name reason : String) (rest : List CheckOutcome) :
    Records ⟨[⟨name, .deny reason⟩], some ⟨name, reason⟩⟩ (⟨name, .deny reason⟩ :: rest) := by
  constructor
  case trail => simp [Verdict.isDeny, Verdict.veto?]
  case deniedBy_iff =>
    rintro ⟨check, reason'⟩
    simp
  case no_earlier_veto => simp

/-- Another verdict comes before the trail of those behind it, and leaves the denial to them. -/
theorem Records.cons {d : Decision} {rest : List CheckOutcome} (h : d.Records rest)
    {o : CheckOutcome} (ho : o.verdict.isDeny = false) :
    Records { d with outcomes := o :: d.outcomes } (o :: rest) := by
  constructor
  case trail => simp [ho, h.trail]
  case deniedBy_iff =>
    intro denial
    rw [h.deniedBy_iff denial, List.getLast?_cons]
    cases hlast : d.outcomes.getLast? with
    | none =>
      -- the trail is this one verdict, which is no veto
      have hne : o ≠ ⟨denial.check, .deny denial.reason⟩ := by
        rintro rfl
        simp [Verdict.isDeny, Verdict.veto?] at ho
      simpa using hne
    | some last => simp
  case no_earlier_veto =>
    intro o' ho'
    cases houtcomes : d.outcomes with
    | nil => simp [houtcomes] at ho'
    | cons first others =>
      rw [houtcomes, List.dropLast_cons_of_ne_nil (List.cons_ne_nil _ _), ← houtcomes] at ho'
      rcases List.mem_cons.1 ho' with rfl | ho'
      · exact ho
      · exact h.no_earlier_veto o' ho'

end Decision

namespace Filter

/-- Along the checks, one case for each branch of the evaluation. -/
theorem evaluateChecks_records (attributes : Attributes) (requester : Requester) :
    ∀ checks : List Check, (evaluateChecks attributes requester checks).Records
      (checks.map (·.outcome attributes requester))
  | [] => Decision.records_nil
  | k :: rest => by
    rw [List.map_cons, evaluateChecks]
    cases hv : (k.judge attributes requester).veto? with
    | some reason =>
      have hjudge := (Verdict.veto?_eq_some_iff _ _).1 hv
      dsimp only [Check.outcome]
      rw [hjudge]
      exact Decision.records_veto k.name reason _
    | none =>
      exact (evaluateChecks_records attributes requester rest).cons
        ((Verdict.veto?_eq_none_iff _).1 hv)

/-- Checks are evaluated in the order in which they were registered. -/
theorem checks_foldl_register (checks : List Check) (f : Filter) :
    (checks.foldl register f).checks = f.checks ++ checks := by
  induction checks generalizing f with
  | nil => exact (List.append_nil _).symm
  | cons k rest ih =>
    rw [List.foldl_cons, ih, register, List.append_assoc, List.singleton_append]

/-- A filter with any checks, registered one after the other, records the verdicts in that order up
to the first veto, which alone is the denial on record; and the shortcut decides the same. -/
theorem evaluation_ends_at_first_veto (checks : List Check) (attributes : Attributes)
    (requester : Requester) :
    let f := checks.foldl register .empty
    (f.evaluate attributes requester).Records (checks.map (·.outcome attributes requester)) ∧
      (f.evaluate attributes requester).isAdmitted = f.admits attributes requester := by
  intro f
  refine ⟨?_, f.isAdmitted_evaluate attributes requester⟩
  have hchecks : f.checks = checks := checks_foldl_register checks .empty
  unfold evaluate
  rw [hchecks]
  exact evaluateChecks_records attributes requester checks

end Filter

end ScopedRetrieval
