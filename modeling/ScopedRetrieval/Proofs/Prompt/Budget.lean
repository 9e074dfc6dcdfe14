/-
What a larger budget changes. Where two budgets part for the first time the larger one takes the
document (`FirstFit.parts_upward`), and from there on the smaller one has less left than that
document costs; so the larger budget never carries less (`totalTokens_select_mono`). It may well
carry other documents: unless the smaller budget is nothing, there are documents of which the larger
one leaves out one that the smaller one takes (`exists_lost_iff`).
-/
import ScopedRetrieval.Proofs.Prompt.Selection

namespace ScopedRetrieval.Prompt

/-! ## Totals under two budgets -/

/-- By induction along the documents: where only the larger room takes one, that one alone is more
than all that the smaller room can hold. -/
theorem totalTokens_select_mono {room room' : Nat} (h : room ≤ room') (documents : List Document) :
    totalTokens (select room documents) ≤ totalTokens (select room' documents) := by
  induction documents generalizing room room' with
  | nil => simp [select]
  | cons d rest ih =>
    rw [select, select]
    by_cases hfits : tokens d ≤ room
    · have hrest : totalTokens (select (room - tokens d) rest) ≤
          totalTokens (select (room' - tokens d) rest) := ih (by omega)
      simp [hfits, show tokens d ≤ room' by omega]
      omega
    · by_cases hfits' : tokens d ≤ room'
      · have := totalTokens_select_le room rest
        simp [hfits, hfits']
        omega
      · simp [hfits, hfits', ih h]

/-- Where the selections part for the first time the larger budget takes the document. -/
theorem FirstFit.parts_upward {budget budget' : Nat} (hle : budget ≤ budget')
    {documents : List Document} {marks marks' : List Bool} (h : FirstFit budget documents marks)
    (h' : FirstFit budget' documents marks') {i : Nat} (hbefore : marks.take i = marks'.take i)
    (hne : marks[i]? ≠ marks'[i]?) : marks[i]? = some false ∧ marks'[i]? = some true := by
  have hlength := h.length_eq
  have hlength' := h'.length_eq
  rcases hd : documents[i]? with _ | d
  · rw [List.getElem?_eq_none_iff] at hd
    rw [List.getElem?_eq_none (by omega), List.getElem?_eq_none (by omega)] at hne
    exact absurd rfl hne
  · have hi : i < documents.length := (List.getElem?_eq_some_iff.1 hd).1
    have htaken := h.taken_iff i d hd
    have htaken' := h'.taken_iff i d hd
    rw [← hbefore] at htaken'
    have hup : marks[i]? = some true → marks'[i]? = some true := by
      rw [htaken, htaken']
      omega
    rw [List.getElem?_eq_getElem (by omega), List.getElem?_eq_getElem (by omega)] at *
    cases hm : marks[i] <;> cases hm' : marks'[i] <;> simp_all

/-! ## Documents that a larger budget loses -/

theorem tokens_le_of_mem_select {room : Nat} {documents : List Document} {d : Document}
    (h : d ∈ select room documents) : tokens d ≤ room := by
  induction documents generalizing room with
  | nil => simp [select] at h
  | cons d' rest ih =>
    rw [select] at h
    split at h
    · rcases List.mem_cons.1 h with rfl | h
      · assumption
      · have := ih h
        omega
    · exact ih h

theorem mem_select_of_tokens_eq_zero {documents : List Document} {d : Document}
    (h : d ∈ documents) (hd : tokens d = 0) (room : Nat) : d ∈ select room documents := by
  induction documents generalizing room with
  | nil => cases h
  | cons d' rest ih =>
    rw [select]
    rcases List.mem_cons.1 h with rfl | h
    · simp [hd]
    · split
      · exact List.mem_cons_of_mem _ (ih h _)
      · exact ih h _

/-- A document that costs a given number of tokens. -/
def ofTokens (id : String) (n : Nat) : Document :=
  { id, content := String.join (List.replicate n "word") }

theorem tokens_ofTokens (id : String) (n : Nat) : tokens (ofTokens id n) = n := by
  have hbytes : (String.join (List.replicate n "word")).utf8ByteSize = 4 * n := by
    induction n with
    | zero => rfl
    | succ n ih =>
      rw [List.replicate_succ, String.join_cons, String.utf8ByteSize_append, ih]
      have : "word".utf8ByteSize = 4 := by decide
      omega
  show (String.join (List.replicate n "word")).utf8ByteSize / 4 = n
  omega

/-- A larger budget can lose a document exactly if the smaller one is not nothing: it takes a
document of its own size, and of those behind it none that costs anything. -/
theorem exists_lost_iff {room room' : Nat} (h : room ≤ room') :
    (∃ documents, ∃ id ∈ (select room documents).map (·.id),
      id ∉ (select room' documents).map (·.id)) ↔ 0 < room ∧ room < room' := by
  constructor
  · rintro ⟨documents, id, hid, hlost⟩
    obtain ⟨d, hd, rfl⟩ := List.mem_map.1 hid
    refine ⟨Nat.pos_of_ne_zero ?_, Nat.lt_of_le_of_ne h ?_⟩
    · rintro rfl
      have hfree : tokens d = 0 := Nat.le_zero.1 (tokens_le_of_mem_select hd)
      have hmem : d ∈ documents := by
        rw [select_eq_chosen] at hd
        exact (chosen_sublist _ documents).subset hd
      exact hlost (List.mem_map_of_mem (mem_select_of_tokens_eq_zero hmem hfree room'))
    · rintro rfl
      exact hlost hid
  · rintro ⟨hpos, hlt⟩
    have hsmaller : select room [ofTokens "large" room', ofTokens "small" 1] =
        [ofTokens "small" 1] := by
      simp [select, tokens_ofTokens, show ¬room' ≤ room by omega, show 1 ≤ room by omega]
    have hlarger : select room' [ofTokens "large" room', ofTokens "small" 1] =
        [ofTokens "large" room'] := by
      simp [select, tokens_ofTokens]
    refine ⟨[ofTokens "large" room', ofTokens "small" 1], "small", ?_, ?_⟩
    · rw [hsmaller]
      simp [ofTokens]
    · rw [hlarger]
      simp [ofTokens]

/-! ## Two prompts -/

/-- How the prompts of some documents under a smaller and under a larger budget stand to each
other, each of them made of the documents at its marked positions. -/
structure CarriesNoMore (p p' : Prompt) (documents : List Document) (marks marks' : List Bool) :
    Prop where
  documentIds : p.documentIds = (chosen marks documents).map (·.id)
  documentIds' : p'.documentIds = (chosen marks' documents).map (·.id)
  estimatedTokens_le : p.estimatedTokens ≤ p'.estimatedTokens
  /-- The first position at which they differ is one that the larger budget takes. -/
  parts_upward : ∀ i : Nat, marks.take i = marks'.take i → marks[i]? ≠ marks'[i]? →
    marks[i]? = some false ∧ marks'[i]? = some true

/-- Of the same documents the prompt under a larger budget carries at least as many tokens as that
under a smaller one, and takes the first document on which they differ. It need not take all that
the smaller one takes, unless the budgets are equal or the smaller one is nothing. -/
theorem larger_budget_carries_no_less {s s' : PromptSettings} (h : s.maxTokens ≤ s'.maxTokens)
    (query : String) :
    (∀ documents, (build s query documents).CarriesNoMore (build s' query documents) documents
      (taken s.maxTokens.toNat documents) (taken s'.maxTokens.toNat documents)) ∧
    ((∃ documents, ∃ id ∈ (build s query documents).documentIds,
      id ∉ (build s' query documents).documentIds) ↔
        0 < s.maxTokens ∧ s.maxTokens < s'.maxTokens) := by
  rw [UInt64.le_iff_toNat_le] at h
  constructor
  · intro documents
    have hfirst := firstFit_taken s.maxTokens.toNat documents
    have hfirst' := firstFit_taken s'.maxTokens.toNat documents
    constructor
    case documentIds => exact congrArg (List.map (·.id)) (select_eq_chosen _ documents)
    case documentIds' => exact congrArg (List.map (·.id)) (select_eq_chosen _ documents)
    case estimatedTokens_le => exact totalTokens_select_mono h documents
    case parts_upward => exact fun i => hfirst.parts_upward h hfirst'
  · rw [UInt64.lt_iff_toNat_lt, UInt64.lt_iff_toNat_lt]
    exact exists_lost_iff h

/-- One token more, and a document that uses up all of it takes the place of two smaller ones. -/
theorem larger_budget_carries_no_less_other_documents :
    let s : PromptSettings := { maxTokens := 4 }
    let s' : PromptSettings := { maxTokens := 5 }
    let documents := [ofTokens "a" 5, ofTokens "b" 3, ofTokens "c" 1]
    s.maxTokens ≤ s'.maxTokens ∧ (build s "q" documents).documentIds = ["b", "c"] ∧
      (build s' "q" documents).documentIds = ["a"] ∧
      (build s "q" documents).CarriesNoMore (build s' "q" documents) documents
        (taken s.maxTokens.toNat documents) (taken s'.maxTokens.toNat documents) := by
  intro s s' documents
  have h : s.maxTokens ≤ s'.maxTokens := by decide
  have hids : (build s "q" documents).documentIds = ["b", "c"] := by decide +kernel
  have hids' : (build s' "q" documents).documentIds = ["a"] := by decide +kernel
  exact ⟨h, hids, hids', (larger_budget_carries_no_less h "q").1 documents⟩

end ScopedRetrieval.Prompt
