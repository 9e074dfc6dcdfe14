/-
The text of a prompt. It tells of the selected documents and of no others: a part for each of them,
in their order, numbered from one without a gap whatever was left out between them
(`tells_build`). Documents that come behind others change nothing of what was selected of those, and
add to the text, where it tells of any document, only at its end (`text_tells_of_selected`).
-/
import ScopedRetrieval.Proofs.Document.AttributeLine
import ScopedRetrieval.Proofs.Prompt.Selection
import Mathlib.Data.List.Forall2

namespace ScopedRetrieval

namespace Prompt

/-! ## Parts -/

/-- The part of a text that tells of one document: its number, its identifier, its content and,
where they are asked for, its attributes. -/
def IsPart (includeAttributes : Bool) (number : Nat) (d : Document) (part : String) : Prop :=
  ∃ line, d.attributes.IsLine line ∧ part =
    "### Document " ++ toString number ++ " (Id: " ++ d.id ++ ")\nContent: " ++ d.content ++ "\n" ++
      (if includeAttributes then "Attributes: " ++ line ++ "\n" else "") ++ "\n"

theorem isPart_block (includeAttributes : Bool) (number : Nat) (d : Document) :
    IsPart includeAttributes number d (block includeAttributes number d) :=
  ⟨d.attributes.line, d.attributes.isLine_line, rfl⟩

/-- The parts for some documents, one after the other. -/
theorem blocks_eq_join (includeAttributes : Bool) (number : Nat) (ds : List Document) :
    blocks includeAttributes number ds =
      String.join ((ds.zipIdx number).map fun e => block includeAttributes e.2 e.1) := by
  induction ds generalizing number with
  | nil => simp [blocks]
  | cons d rest ih => simp [blocks, ih]

theorem blocks_append (includeAttributes : Bool) (number : Nat) (ds ds' : List Document) :
    blocks includeAttributes number (ds ++ ds') = blocks includeAttributes number ds ++
      blocks includeAttributes (number + ds.length) ds' := by
  simp [blocks_eq_join, List.zipIdx_append]

/-- The text tells, with the query, of the documents selected from those given: of each its part, in
their order and numbered from one. It says so where none are given and where none is selected. -/
structure Tells (s : PromptSettings) (query : String) (documents selected : List Document)
    (text : String) : Prop where
  of_nil : documents = [] →
    text = "User query: " ++ query ++ "\n\n" ++ noDocumentsNotice ++ "\n"
  of_ne_nil : documents ≠ [] → ∃ parts,
    List.Forall₂ (fun (e : Document × Nat) part => IsPart s.includeAttributes e.2 e.1 part)
      (selected.zipIdx 1) parts ∧
    text = "User query: " ++ query ++ "\n\n" ++ ("Retrieved information:\n" ++ String.join parts ++
      if selected = [] then overBudgetNotice ++ "\n" else "")

theorem tells_build (s : PromptSettings) (query : String) (documents : List Document) :
    Tells s query documents (select s.maxTokens.toNat documents)
      (build s query documents).text := by
  constructor
  case of_nil =>
    rintro rfl
    simp [build, header, body, String.append_assoc]
  case of_ne_nil =>
    intro hne
    refine ⟨((select s.maxTokens.toNat documents).zipIdx 1).map fun e =>
      block s.includeAttributes e.2 e.1, ?_, ?_⟩
    · rw [List.forall₂_map_right_iff]
      exact List.forall₂_same.2 fun e _ => isPart_block s.includeAttributes e.2 e.1
    · simp [build, header, body, hne, ← blocks_eq_join, String.append_assoc]

/-! ## Longer lists -/

/-- What comes later is selected with what those before it have left, and does not change them. -/
theorem taken_append (room : Nat) (ds ds' : List Document) :
    taken room (ds ++ ds') = taken room ds ++ taken (room - totalTokens (select room ds)) ds' := by
  induction ds generalizing room with
  | nil => simp [taken, select]
  | cons d rest ih =>
    rw [List.cons_append, taken, taken, select]
    by_cases hfits : tokens d ≤ room
    · simp [hfits, ih, Nat.sub_add_eq]
    · simp [hfits, ih]

theorem select_append (room : Nat) (ds ds' : List Document) :
    select room (ds ++ ds') =
      select room ds ++ select (room - totalTokens (select room ds)) ds' := by
  rw [select_eq_chosen, taken_append, chosen_append (length_taken room ds), ← select_eq_chosen,
    ← select_eq_chosen]

/-- A text that tells of some document goes on where more documents are given. -/
theorem text_build_append {s : PromptSettings} {documents : List Document}
    (h : select s.maxTokens.toNat documents ≠ []) (query : String) (more : List Document) :
    ∃ tail, (build s query (documents ++ more)).text = (build s query documents).text ++ tail := by
  have hne : documents ≠ [] := by
    rintro rfl
    exact h rfl
  refine ⟨blocks s.includeAttributes (1 + (select s.maxTokens.toNat documents).length)
    (select (s.maxTokens.toNat - totalTokens (select s.maxTokens.toNat documents)) more), ?_⟩
  simp [build, body, select_append, blocks_append, hne, h, String.append_assoc]

/-- The text of a prompt tells of the documents that were taken and of no others. Further documents
behind those given change nothing of what is taken of these; where any is, they only add to the end
of the text. -/
theorem text_tells_of_selected (s : PromptSettings) (query : String) (documents : List Document) :
    let selected := chosen (taken s.maxTokens.toNat documents) documents
    (build s query documents).documentIds = selected.map (·.id) ∧
    Tells s query documents selected (build s query documents).text ∧
    ∀ more, taken s.maxTokens.toNat documents <+: taken s.maxTokens.toNat (documents ++ more) ∧
      (selected ≠ [] → ∃ tail,
        (build s query (documents ++ more)).text = (build s query documents).text ++ tail) := by
  intro selected
  have hselected : select s.maxTokens.toNat documents = selected := select_eq_chosen _ documents
  rw [← hselected]
  refine ⟨rfl, tells_build s query documents, fun more => ⟨?_, fun h => ?_⟩⟩
  · rw [taken_append]
    exact List.prefix_append _ _
  · exact text_build_append h query more

/-- Of three documents the large one in the middle is left out, and the one behind it is the second
in the text; a fourth one comes to the end. -/
theorem text_tells_of_selected_around_omitted :
    let s : PromptSettings := { maxTokens := 2 }
    let documents : List Document :=
      [{ id := "a", content := "news", attributes := .ofList [("type", "public"), ("by", "HR")] },
        { id := "b", content := "a long report" }, { id := "a", content := "" }]
    let selected := chosen (taken s.maxTokens.toNat documents) documents
    (build s "q" documents).text = "User query: q\n\nRetrieved information:\n" ++
      "### Document 1 (Id: a)\nContent: news\nAttributes: by=HR, type=public\n\n" ++
      "### Document 2 (Id: a)\nContent: \nAttributes: \n\n" ∧
    selected ≠ [] ∧ Tells s "q" documents selected (build s "q" documents).text ∧
    ∃ tail, (build s "q" (documents ++ [{ id := "c", content := "more" }])).text =
      (build s "q" documents).text ++ tail := by
  intro s documents selected
  have htext : (build s "q" documents).text = "User query: q\n\nRetrieved information:\n" ++
      "### Document 1 (Id: a)\nContent: news\nAttributes: by=HR, type=public\n\n" ++
      "### Document 2 (Id: a)\nContent: \nAttributes: \n\n" := by decide +kernel
  have hselected : selected ≠ [] := by decide
  obtain ⟨-, htells, hmore⟩ := text_tells_of_selected s "q" documents
  exact ⟨htext, hselected, htells, (hmore [{ id := "c", content := "more" }]).2 hselected⟩

end Prompt

end ScopedRetrieval
