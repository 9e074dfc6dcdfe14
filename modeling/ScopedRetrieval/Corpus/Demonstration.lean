/-
A corpus to demonstrate with: four documents, from public to confidential, and six requests by
requesters with different claims.
-/
import ScopedRetrieval.Document
import ScopedRetrieval.Requester

namespace ScopedRetrieval.Demonstration

/-- A request and what it shows. -/
structure Scenario where
  title : String
  query : String
  requester : Requester
deriving Inhabited

def documents : List Document :=
  [ { id := "public_announcement.txt"
      content := "This is a public announcement about upcoming office changes."
      attributes := .ofList [("type", "public"), ("published_by", "HR")] },
    { id := "user_123_personal_notes.txt"
      content := "My personal notes about project Alpha. Do not share."
      attributes := .ofList
        [("user_id", "123"), ("sensitivity", "confidential"), ("location", "New York")] },
    { id := "internal_dev_report.txt"
      content := "Internal development report for Q3. Access restricted to Dev department."
      attributes := .ofList
        [("user_id", "456"), ("department", "Dev"), ("sensitivity", "internal")] },
    { id := "it_security_policy.txt"
      content := "Official IT security policy. For IT department only."
      attributes := .ofList
        [("user_id", "123"), ("department", "IT"), ("sensitivity", "confidential")] } ]

/-- A developer who presents an identity, a department and a place. -/
def developer : Requester :=
  .ofList [("user_id", "456"), ("department", "Dev"), ("location", "London")]

/-- The requests in the order in which they are shown. -/
def scenarios : List Scenario :=
  [ { title := "User 123 asks for their project notes"
      query := "What are my project notes?"
      requester := .ofList [("user_id", "123"), ("location", "New York")] },
    { title := "User 456 asks for personal notes"
      query := "Show me my personal notes."
      requester := .ofList [("user_id", "456"), ("location", "London")] },
    { title := "Anonymous requester asks for public information"
      query := "Tell me about office changes."
      requester := .anonymous },
    { title := "User 123 from IT asks for the IT policy"
      query := "What's the IT security policy?"
      requester := .ofList [("user_id", "123"), ("department", "IT"), ("location", "New York")] },
    { title := "User 456 from Dev asks for the IT policy"
      query := "What's the IT security policy?"
      requester := developer },
    { title := "User 456 from Dev asks for the development report"
      query := "Latest development report."
      requester := developer } ]

end ScopedRetrieval.Demonstration
