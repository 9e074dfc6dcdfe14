/-
Which documents a prompt takes under its budget. They are found first fit, position by position: a
document is taken exactly if there is room for it beside those taken before it, and there is only
one such selection (`firstFit_iff`). The budget holds and is used to the end, no document that was
left out fits into the rest of it (`build_keeps_budget`), and the sums on the way fit into words of
64 bits (`selectInWords_eq`).
-/
import ScopedRetrieval.Prompt
import Mathlib.Algebra.GroupWithZero.Nat
import Mathlib.Data.List.Basic

namespace ScopedRetrieval.Prompt

/-! ## Totals -/

@[simp] theorem totalTokens_nil : totalTokens [] = 0 := rfl

@[simp] theorem totalTokens_cons (d : Document) (ds : List Document) :
    totalTokens (d :: ds) = tokens d + totalTokens ds := rfl

theorem totalTokens_append (ds ds' : List Document) :
    totalTokens (ds ++ ds') = totalTokens ds + totalTokens ds' := by
  induction ds with
  | nil => simp
  | cons d rest ih => simp [ih, Nat.add_assoc]

theorem totalTokens_le_of_sublist {ds ds' : List Document} (h : ds.Sublist ds') :
    totalTokens ds ≤ totalTokens ds' := by
  induction h with
  | slnil => simp
  | cons d _ ih => simp; omega
  | cons_cons d _ ih => simp; omega

/-! ## Positions -/

/-- The documents at the positions that are marked. -/
def chosen (marks : List Bool) (documents : List Document) : List Document :=
  ((documents.zip marks).filter (·.2)).map (·.1)

@[simp] theorem chosen_nil (marks : List Bool) : chosen marks [] = [] := by
  simp [chosen]

@[simp] theorem chosen_cons (m : Bool) (marks : List Bool) (d : Document) (ds : List Document) :
    chosen (m :: marks) (d :: ds) = if m then d :: chosen marks ds else chosen marks ds := by
  cases m <;> simp [chosen]

theorem chosen_sublist (marks : List Bool) (documents : List Document) :
    (chosen marks documents).Sublist documents := by
  induction documents generalizing marks with
  | nil => simp
  | cons d rest ih =>
    cases marks with
    | nil => simp [chosen]
    | cons m marks =>
      by_cases hm : m = true
      · simpa [hm] using (ih marks).cons_cons d
      · simpa [hm] using (ih marks).cons d

theorem chosen_append {marks : List Bool} {documents : List Document}
    (h : marks.length = documents.length) (marks' : List Bool) (more : List Document) :
    chosen (marks ++ marks') (documents ++ more) =
      chosen marks documents ++ chosen marks' more := by
  unfold chosen
  rw [List.zip_append h.symm, List.filter_append, List.map_append]

/-- What is chosen among the first documents stands before the rest of what is chosen. -/
theorem chosen_take_sublist (i : Nat) (marks : List Bool) (documents : List Document) :
    (chosen (marks.take i) (documents.take i)).Sublist (chosen marks documents) := by
  have hzip : (documents.take i).zip (marks.take i) = (documents.zip marks).take i :=
    List.take_zipWith.symm
  unfold chosen
  rw [hzip]
  exact ((List.take_sublist i _).filter _).map _

theorem totalTokens_chosen_take_le (i : Nat) (marks : List Bool) (documents : List Document) :
    totalTokens (chosen (marks.take i) (documents.take i)) ≤ totalTokens (chosen marks documents) :=
  totalTokens_le_of_sublist (chosen_take_sublist i marks documents)

/-- For each document whether it is taken. -/
def taken (room : Nat) : List Document → List Bool
  | [] => []
  | d :: rest =>
    if tokens d ≤ room then true :: taken (room - tokens d) rest else false :: taken room rest

theorem length_taken (room : Nat) (documents : List Document) :
    (taken room documents).length = documents.length := by
  induction documents generalizing room with
  | nil => rfl
  | cons d rest ih =>
    unfold taken
    split <;> simp [ih]

/-- What is selected are the documents at the positions taken. -/
theorem select_eq_chosen (room : Nat) (documents : List Document) :
    select room documents = chosen (taken room documents) documents := by
  induction documents generalizing room with
  | nil => simp [select]
  | cons d rest ih =>
    unfold select taken
    split <;> simp [ih]

theorem totalTokens_select_le (room : Nat) (documents : List Document) :
    totalTokens (select room documents) ≤ room := by
  induction documents generalizing room with
  | nil => simp [select]
  | cons d rest ih =>
    unfold select
    split
    · have := ih (room - tokens d)
      simp
      omega
    · exact ih room

/-! ## First fit -/

/-- The marks of documents that are taken first fit: each one exactly if there is room for it beside
those taken before it. -/
structure FirstFit (budget : Nat) (documents : List Document) (marks : List Bool) : Prop where
  length_eq : marks.length = documents.length
  taken_iff : ∀ (i : Nat) (d : Document), documents[i]? = some d → (marks[i]? = some true ↔
    totalTokens (chosen (marks.take i) (documents.take i)) + tokens d ≤ budget)

theorem firstFit_cons_iff (budget : Nat) (d : Document) (ds : List Document) (m : Bool)
    (marks : List Bool) : FirstFit budget (d :: ds) (m :: marks) ↔
      (m = true ↔ tokens d ≤ budget) ∧
        FirstFit (if m then budget - tokens d else budget) ds marks := by
  constructor
  · intro h
    have hfirst : m = true ↔ tokens d ≤ budget := by
      simpa using h.taken_iff 0 d rfl
    refine ⟨hfirst, by simpa using h.length_eq, fun i d' hd' => ?_⟩
    have hnext := h.taken_iff (i + 1) d' (by simpa using hd')
    by_cases hm : m = true
    · have hfits := hfirst.1 hm
      simp [hm] at hnext ⊢
      rw [hnext]
      omega
    · simpa [hm] using hnext
  · rintro ⟨hfirst, h⟩
    refine ⟨by simpa using h.length_eq, fun i d' hd' => ?_⟩
    cases i with
    | zero =>
      obtain rfl : d = d' := by simpa using hd'
      simpa using hfirst
    | succ i =>
      have hrest := h.taken_iff i d' (by simpa using hd')
      by_cases hm : m = true
      · have hfits := hfirst.1 hm
        simp [hm] at hrest ⊢
        rw [hrest]
        omega
      · simpa [hm] using hrest

/-- There is one selection first fit and no other. -/
theorem firstFit_iff (budget : Nat) (documents : List Document) (marks : List Bool) :
    FirstFit budget documents marks ↔ marks = taken budget documents := by
  induction documents generalizing budget marks with
  | nil =>
    constructor
    · intro h
      exact List.length_eq_zero_iff.1 h.length_eq
    · rintro rfl
      exact ⟨rfl, fun i d hd => by simp at hd⟩
  | cons d rest ih =>
    cases marks with
    | nil =>
      refine iff_of_false (fun h => ?_) (fun h => ?_)
      · simpa using h.length_eq
      · simpa [length_taken] using congrArg List.length h
    | cons m marks =>
      rw [firstFit_cons_iff, ih, taken]
      by_cases hfits : tokens d ≤ budget
      · cases m <;> simp [hfits]
      · cases m <;> simp [hfits]

theorem firstFit_taken (budget : Nat) (documents : List Document) :
    FirstFit budget documents (taken budget documents) :=
  (firstFit_iff budget documents _).2 rfl

section

variable {budget : Nat} {documents : List Document} {marks : List Bool}
  (h : FirstFit budget documents marks)

include h

/-- What was left out for want of room then has none at the end either. -/
theorem FirstFit.lt_of_left_out {i : Nat} {d : Document} (hd : documents[i]? = some d)
    (hmark : marks[i]? = some false) :
    budget < totalTokens (chosen marks documents) + tokens d := by
  have hno : ¬totalTokens (chosen (marks.take i) (documents.take i)) + tokens d ≤ budget := by
    rw [← h.taken_iff i d hd, hmark]
    simp
  have hbefore := totalTokens_chosen_take_le i marks documents
  omega

theorem FirstFit.taken_of_tokens_eq_zero (hle : totalTokens (chosen marks documents) ≤ budget)
    {i : Nat} {d : Document} (hd : documents[i]? = some d) (hfree : tokens d = 0) :
    marks[i]? = some true := by
  have hbefore := totalTokens_chosen_take_le i marks documents
  rw [h.taken_iff i d hd]
  omega

end

/-- Everything is selected exactly if all of it is within the budget. -/
theorem select_eq_self_iff (room : Nat) (documents : List Document) :
    select room documents = documents ↔ totalTokens documents ≤ room := by
  constructor
  · intro h
    have := totalTokens_select_le room documents
    rwa [h] at this
  · intro h
    induction documents generalizing room with
    | nil => rfl
    | cons d rest ih =>
      simp at h
      rw [select, if_pos (by omega), ih (room - tokens d) (by omega)]

/-! ## Sums in words -/

/-- The sum of two words of 64 bits, where it is one as well. -/
def addWords? (a b : UInt64) : Option UInt64 :=
  if a.toNat + b.toNat < UInt64.size then some (a + b) else none

/-- The selection with its sums in words, and the last of these: the tokens taken so far are summed
up, and a document that brings them above the budget is passed over. A sum that is not a word ends
it in nothing. -/
def selectInWords (budget : UInt64) : UInt64 → List Document → Option (List Document × UInt64)
  | total, [] => some ([], total)
  | total, d :: rest =>
    (addWords? total (.ofNat d.content.utf8ByteSize / 4)).bind fun sum =>
      if budget < sum then selectInWords budget total rest
      else (selectInWords budget sum rest).map fun r => (d :: r.1, r.2)

theorem addWords?_tokens {total : UInt64} {d : Document}
    (h : total.toNat + d.content.utf8ByteSize < UInt64.size) :
    addWords? total (.ofNat d.content.utf8ByteSize / 4) =
      some (.ofNat (total.toNat + tokens d)) := by
  have htokens : tokens d ≤ d.content.utf8ByteSize := Nat.div_le_self ..
  have hsum : total.toNat + tokens d < UInt64.size := by omega
  have hword : (UInt64.ofNat d.content.utf8ByteSize / 4).toNat = tokens d := by
    rw [UInt64.toNat_div, UInt64.toNat_ofNat_of_lt' (by omega)]
    rfl
  rw [addWords?, hword, if_pos hsum]
  congr 1
  apply UInt64.toNat.inj
  rw [UInt64.toNat_add, hword, UInt64.toNat_ofNat_of_lt' hsum]
  exact Nat.mod_eq_of_lt hsum

/-- In words the selection comes to the same documents, as long as all bytes together can be counted
in a word. -/
theorem selectInWords_eq {budget : UInt64} (documents : List Document) :
    ∀ total : UInt64, total ≤ budget →
      total.toNat + (documents.map (·.content.utf8ByteSize)).sum < UInt64.size →
      selectInWords budget total documents =
        some (select (budget.toNat - total.toNat) documents,
          .ofNat (total.toNat + totalTokens (select (budget.toNat - total.toNat) documents))) := by
  induction documents with
  | nil =>
    intro total _ _
    simp [selectInWords, select]
  | cons d rest ih =>
    intro total hle hbytes
    rw [UInt64.le_iff_toNat_le] at hle
    simp at hbytes
    have htokens : tokens d ≤ d.content.utf8ByteSize := Nat.div_le_self ..
    have hnat : (UInt64.ofNat (total.toNat + tokens d)).toNat = total.toNat + tokens d :=
      UInt64.toNat_ofNat_of_lt' (by omega)
    have hlt : budget < .ofNat (total.toNat + tokens d) ↔
        budget.toNat < total.toNat + tokens d := by
      rw [UInt64.lt_iff_toNat_lt, hnat]
    rw [selectInWords, addWords?_tokens (by omega), Option.bind_some, select]
    by_cases hfits : tokens d ≤ budget.toNat - total.toNat
    · have hle' : .ofNat (total.toNat + tokens d) ≤ budget := by
        rw [UInt64.le_iff_toNat_le, hnat]
        omega
      rw [if_neg (hlt.not.2 (by omega)), if_pos hfits, ih _ hle' (by omega), hnat, Nat.sub_add_eq]
      simp [Nat.add_assoc]
    · rw [if_pos (hlt.2 (by omega)), if_neg hfits, ih _ (UInt64.le_iff_toNat_le.2 hle) (by omega)]

/-! ## The budget of a prompt -/

/-- What a prompt that is made of the documents at the marked positions owes to its budget. -/
structure KeepsBudget (p : Prompt) (budget : UInt64) (documents : List Document)
    (marks : List Bool) : Prop where
  sublist : (chosen marks documents).Sublist documents
  documentIds : p.documentIds = (chosen marks documents).map (·.id)
  estimatedTokens :
    p.estimatedTokens = ((chosen marks documents).map fun d => d.content.utf8ByteSize / 4).sum
  le_budget : p.estimatedTokens ≤ budget.toNat
  /-- At every document the sum that is held against the budget is a word. -/
  sums_fit : ∀ (i : Nat) (d : Document), documents[i]? = some d →
    totalTokens (chosen (marks.take i) (documents.take i)) + tokens d < UInt64.size
  in_words :
    selectInWords budget 0 documents = some (chosen marks documents, .ofNat p.estimatedTokens)
  /-- A document that was left out has no place in what remains of the budget at the end. -/
  too_large : ∀ (i : Nat) (d : Document), documents[i]? = some d → marks[i]? = some false →
    budget.toNat < p.estimatedTokens + tokens d
  small_taken : ∀ (i : Nat) (d : Document), documents[i]? = some d →
    d.content.utf8ByteSize < 4 → marks[i]? = some true
  documentCount : p.documentCount = p.documentIds.length
  complete : p.documentCount + p.omitted = documents.length
  omitted_eq_zero_iff : p.omitted = 0 ↔ totalTokens documents ≤ budget.toNat

theorem totalTokens_eq_sum (ds : List Document) :
    totalTokens ds = (ds.map fun d => d.content.utf8ByteSize / 4).sum := by
  induction ds with
  | nil => rfl
  | cons d rest ih => simp [ih, tokens]

theorem totalTokens_le_bytes (ds : List Document) :
    totalTokens ds ≤ (ds.map (·.content.utf8ByteSize)).sum := by
  induction ds with
  | nil => simp
  | cons d rest ih =>
    simp [tokens]
    omega

/-- A document and those before it. -/
theorem totalTokens_take_add_le {documents : List Document} {i : Nat} {d : Document}
    (h : documents[i]? = some d) :
    totalTokens (documents.take i) + tokens d ≤ totalTokens documents := by
  have hle := totalTokens_le_of_sublist (List.take_sublist (i + 1) documents)
  rw [List.take_add_one, h, totalTokens_append] at hle
  simpa using hle

theorem length_select_le (room : Nat) (documents : List Document) :
    (select room documents).length ≤ documents.length := by
  rw [select_eq_chosen]
  exact (chosen_sublist _ documents).length_le

theorem omitted_eq_zero_iff (s : PromptSettings) (query : String) (documents : List Document) :
    (build s query documents).omitted = 0 ↔ totalTokens documents ≤ s.maxTokens.toNat := by
  have hle := length_select_le s.maxTokens.toNat documents
  show documents.length - (select s.maxTokens.toNat documents).length = 0 ↔ _
  rw [← select_eq_self_iff]
  constructor
  · intro hzero
    rw [select_eq_chosen] at hle hzero ⊢
    exact (chosen_sublist _ documents).eq_of_length (by omega)
  · intro hall
    rw [hall]
    omega

/-- A prompt takes its documents first fit and in no other way, and so it keeps to its budget. -/
theorem build_keeps_budget (s : PromptSettings) (query : String) (documents : List Document)
    (h : (documents.map (·.content.utf8ByteSize)).sum < UInt64.size) :
    (∀ marks, FirstFit s.maxTokens.toNat documents marks ↔
      marks = taken s.maxTokens.toNat documents) ∧
    (build s query documents).KeepsBudget s.maxTokens documents
      (taken s.maxTokens.toNat documents) := by
  refine ⟨firstFit_iff s.maxTokens.toNat documents, ?_⟩
  have hfirst := firstFit_taken s.maxTokens.toNat documents
  have hselect := select_eq_chosen s.maxTokens.toNat documents
  have hle := totalTokens_select_le s.maxTokens.toNat documents
  have htokens : (build s query documents).estimatedTokens =
      totalTokens (chosen (taken s.maxTokens.toNat documents) documents) :=
    congrArg totalTokens hselect
  constructor
  case sublist => exact chosen_sublist _ documents
  case documentIds => exact congrArg (List.map (·.id)) hselect
  case estimatedTokens => rw [htokens, totalTokens_eq_sum]
  case le_budget => exact hle
  case sums_fit =>
    intro i d hd
    -- also with all that comes before it the document is within the bytes that can be counted
    have hsum := totalTokens_take_add_le hd
    have hchosen := totalTokens_le_of_sublist
      (chosen_sublist ((taken s.maxTokens.toNat documents).take i) (documents.take i))
    have hbytes := totalTokens_le_bytes documents
    omega
  case in_words =>
    rw [selectInWords_eq documents 0 UInt64.zero_le (by simpa using h), htokens, ← hselect]
    simp
  case too_large =>
    intro i d hd hmark
    rw [htokens]
    exact hfirst.lt_of_left_out hd hmark
  case small_taken =>
    intro i d hd hsmall
    rw [hselect] at hle
    exact hfirst.taken_of_tokens_eq_zero hle hd (Nat.div_eq_of_lt hsmall)
  case documentCount => simp [build]
  case complete => exact Nat.add_sub_cancel' (length_select_le _ documents)
  case omitted_eq_zero_iff => exact omitted_eq_zero_iff s query documents

/-- A budget that one document uses up to the last token, behind a larger one that is counted in
bytes; of its namesake nothing fits any more, and a document of three bytes costs nothing. -/
theorem build_keeps_budget_to_last_token :
    let s : PromptSettings := { maxTokens := 3 }
    let documents : List Document :=
      [{ id := "a", content := "größere Lücke" }, { id := "b", content := "twelve bytes" },
        { id := "b", content := "four" }, { id := "c", content := "tie" }]
    (documents.map (·.content.utf8ByteSize)).sum < UInt64.size ∧
      (build s "q" documents).documentIds = ["b", "c"] ∧
      (∀ marks, FirstFit s.maxTokens.toNat documents marks ↔
        marks = taken s.maxTokens.toNat documents) ∧
      (build s "q" documents).KeepsBudget s.maxTokens documents
        (taken s.maxTokens.toNat documents) := by
  intro s documents
  have h : (documents.map (·.content.utf8ByteSize)).sum < UInt64.size := by decide
  have hids : (build s "q" documents).documentIds = ["b", "c"] := by decide
  exact ⟨h, hids, build_keeps_budget s "q" documents h⟩

end ScopedRetrieval.Prompt
