/-
The order of checks counts for the denial on record and for nothing else. A filter admits what none
of its checks denies, so a change of order leaves what is admitted and what is withheld as it was
(`Filter.admits_eq_of_perm`), and one more check, at whatever position, withholds what it denies and
admits nothing new (`Filter.admits_insertAt`).
-/
import ScopedRetrieval.Proofs.Policy.Validity

namespace ScopedRetrieval

namespace Filter

/-- The filter with one more check at a position, or behind all others if there are fewer. -/
def insertAt (f : Filter) (n : Nat) (k : Check) : Filter :=
  ⟨f.checks.take n ++ k :: f.checks.drop n⟩

variable {f f' : Filter} {requester : Requester}

theorem insertAt_length (f : Filter) (k : Check) : f.insertAt f.checks.length k = f.register k := by
  unfold insertAt register
  rw [List.take_length, List.drop_length]

/-! ## Single decisions -/

theorem admits_eq_of_perm (h : f.checks.Perm f'.checks) (attributes : Attributes)
    (requester : Requester) : f.admits attributes requester = f'.admits attributes requester :=
  h.all_eq

/-- What is admitted with one more check was admitted before and is not denied by that check. -/
theorem admits_insertAt (f : Filter) (n : Nat) (k : Check) (attributes : Attributes)
    (requester : Requester) : (f.insertAt n k).admits attributes requester =
      (f.admits attributes requester && !(k.judge attributes requester).isDeny) := by
  have hperm : (f.insertAt n k).checks.Perm (k :: f.checks) := by
    have hmiddle : (f.checks.take n ++ k :: f.checks.drop n).Perm
        (k :: (f.checks.take n ++ f.checks.drop n)) := List.perm_middle
    rwa [List.take_append_drop] at hmiddle
  have hfirst : (f.insertAt n k).admits attributes requester =
      (Filter.mk (k :: f.checks)).admits attributes requester := admits_eq_of_perm hperm _ _
  rw [hfirst, Bool.and_comm]
  rfl

theorem admits_of_register {k : Check} {attributes : Attributes}
    (h : (f.register k).admits attributes requester = true) :
    f.admits attributes requester = true := by
  rw [← insertAt_length, admits_insertAt, Bool.and_eq_true] at h
  exact h.1

/-! ## Lists of documents -/

theorem admitted_eq_filter (f : Filter) (requester : Requester) (ds : List Document) :
    f.admitted requester ds = ds.filter fun d => f.admits d.attributes requester := by
  unfold admitted
  simp only [isNone_denial?]

/-- Filters that admit the same also withhold the same, with whatever denials. -/
theorem admitted_denied_eq_of_admits_eq
    (h : ∀ attributes, f.admits attributes requester = f'.admits attributes requester)
    (ds : List Document) : f.admitted requester ds = f'.admitted requester ds ∧
      (f.denied requester ds).map (·.id) = (f'.denied requester ds).map (·.id) := by
  rw [admitted_eq_filter, admitted_eq_filter, map_id_denied, map_id_denied]
  simp only [isNone_denial?, h, and_self]

theorem admitted_insertAt (f : Filter) (n : Nat) (k : Check) (requester : Requester)
    (ds : List Document) : (f.insertAt n k).admitted requester ds =
      (f.admitted requester ds).filter fun d => !(k.judge d.attributes requester).isDeny := by
  rw [admitted_eq_filter, admitted_eq_filter, List.filter_filter]
  simp only [admits_insertAt, Bool.and_comm]

end Filter

/-! ## Rules in another order -/

namespace PolicySettings

variable {s : PolicySettings} {rules : List Rule} (h : rules.Perm s.rules)

include h

theorem RulesFit.of_perm {taken : List String} (hfit : RulesFit taken s.rules) :
    RulesFit taken rules := by
  constructor
  case filledIn => exact fun r hr => hfit.filledIn r (h.mem_iff.1 hr)
  case distinct => exact (h.map _).nodup_iff.2 hfit.distinct
  case free => exact fun r hr => hfit.free r (h.mem_iff.1 hr)

/-- Settings stay valid when their rules change places. -/
theorem validate_of_perm (hs : s.validate = .ok ()) :
    ({ s with rules } : PolicySettings).validate = .ok () := by
  have hwell := s.validate_eq_ok_iff.1 hs
  exact (validate_eq_ok_iff _).2 { hwell with rules := hwell.rules.of_perm h }

theorem checks_perm : ({ s with rules } : PolicySettings).checks.Perm s.checks :=
  List.Perm.append_left _ (h.map _)

end PolicySettings

/-- Valid settings whose rules change places are valid, and from every loaded index a requester is
given the same documents under both and withheld the same ones, if with other denials. One more
check, wherever it is put among those of a filter, leaves a document admitted exactly if it was
admitted before and the check does not deny it; so registering a check admits nothing new. -/
theorem order_of_rules_changes_no_access :
    (∀ (s : PolicySettings) (rules : List Rule), s.validate = .ok () → rules.Perm s.rules →
      ∃ f f', Filter.ofSettings s = .ok f ∧ Filter.ofSettings { s with rules } = .ok f' ∧
        ∀ (i : Index) query requester, i.loaded = true →
          ∃ o o', i.retrieve f query requester = .ok o ∧ i.retrieve f' query requester = .ok o' ∧
            o'.admitted = o.admitted ∧ o'.denied.map (·.id) = o.denied.map (·.id)) ∧
    ∀ (f : Filter) (k : Check) (requester : Requester),
      (∀ n attributes, (f.insertAt n k).admits attributes requester = true ↔
        f.admits attributes requester = true ∧ (k.judge attributes requester).isDeny = false) ∧
      (∀ attributes, (f.register k).admits attributes requester = true →
        f.admits attributes requester = true) ∧
      ∀ (i : Index) n query, i.loaded = true →
        ∃ o o', i.retrieve f query requester = .ok o ∧
          i.retrieve (f.insertAt n k) query requester = .ok o' ∧
          o'.admitted = o.admitted.filter fun d => !(k.judge d.attributes requester).isDeny := by
  constructor
  · intro s rules hs hperm
    refine ⟨_, _, Filter.ofSettings_of_validate hs,
      Filter.ofSettings_of_validate (s.validate_of_perm hperm hs), ?_⟩
    intro i query requester hl
    have hchecks : (Filter.ofSettingsUnchecked { s with rules }).checks.Perm
        (Filter.ofSettingsUnchecked s).checks := s.checks_perm hperm
    obtain ⟨hadmitted, hdenied⟩ := Filter.admitted_denied_eq_of_admits_eq
      (fun attributes => Filter.admits_eq_of_perm hchecks attributes requester) i.documents
    exact ⟨_, _, Index.retrieve_of_loaded hl _ query requester,
      Index.retrieve_of_loaded hl _ query requester, hadmitted, hdenied⟩
  · intro f k requester
    refine ⟨fun n attributes => ?_, fun attributes => Filter.admits_of_register, ?_⟩
    · rw [f.admits_insertAt, Bool.and_eq_true, Bool.not_eq_true']
    · intro i n query hl
      exact ⟨_, _, Index.retrieve_of_loaded hl f query requester,
        Index.retrieve_of_loaded hl _ query requester, f.admitted_insertAt n k requester _⟩

/-- Two rules that both deny a document: which of them is on record depends on their order. One more
check in front of them withholds the other document as well. -/
theorem order_of_rules_changes_no_access_two_rules :
    let team : Rule := ⟨"team", "owner", some "team", none⟩
    let region : Rule := ⟨"region", "region", none, none⟩
    let s : PolicySettings := { rules := [team, region] }
    let i := Index.empty.replaceAll
      [⟨⟨"a", "plan", .ofList [("owner", "web"), ("region", "south")]⟩, ⟨[]⟩⟩,
        ⟨⟨"b", "news", .ofList [("draft", "yes")]⟩, ⟨[]⟩⟩]
    let requester : Requester := .ofList [("team", "infra"), ("region", "north")]
    let noDrafts : Check := ⟨"drafts", fun attributes _ =>
      if attributes.contains "draft" then .deny "not finished" else .noOpinion⟩
    s.validate = .ok () ∧ [region, team].Perm s.rules ∧ i.loaded = true ∧
      ∃ f f', Filter.ofSettings s = .ok f ∧
        Filter.ofSettings { s with rules := [region, team] } = .ok f' ∧
        ∃ o o', i.retrieve f "q" requester = .ok o ∧ i.retrieve f' "q" requester = .ok o' ∧
          o'.admitted = o.admitted ∧ o'.denied.map (·.id) = o.denied.map (·.id) ∧
          o.denied.map (·.denial.check) = ["team"] ∧
          o'.denied.map (·.denial.check) = ["region"] ∧
          ∃ p p', i.retrieve f "q" requester = .ok p ∧
            i.retrieve (f.insertAt 3 noDrafts) "q" requester = .ok p' ∧
            p.admitted.map (·.id) = ["b"] ∧ p'.admitted = [] := by
  intro team region s i requester noDrafts
  have hs : s.validate = .ok () := by decide
  have hperm : [region, team].Perm s.rules := .swap _ _ _
  obtain ⟨hrules, hchecks⟩ := order_of_rules_changes_no_access
  obtain ⟨f, f', hf, hf', hall⟩ := hrules s [region, team] hs hperm
  obtain rfl := Filter.eq_of_ofSettings hs hf
  obtain rfl := Filter.eq_of_ofSettings (s.validate_of_perm hperm hs) hf'
  obtain ⟨o, o', ho, ho', hadmitted, hdenied⟩ := hall i "q" requester rfl
  obtain ⟨p, p', hp, hp', hmore⟩ :=
    (hchecks (.ofSettingsUnchecked s) noDrafts requester).2.2 i 3 "q" rfl
  obtain rfl := Index.eq_record_of_retrieve ho
  obtain rfl := Index.eq_record_of_retrieve ho'
  obtain rfl := Index.eq_record_of_retrieve hp
  have hnone : p'.admitted = [] := by
    rw [hmore]
    decide
  exact ⟨hs, hperm, rfl, _, _, hf, hf', _, _, ho, ho', hadmitted, hdenied, by decide, by decide, _,
    p', hp, hp', by decide, hnone⟩

end ScopedRetrieval
