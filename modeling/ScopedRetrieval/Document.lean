/-
Documents: content under an identifier, described by text attributes. The attribute line and the
text that is embedded are functions of the content and the attributes alone.
-/
import ScopedRetrieval.KeyMap

namespace ScopedRetrieval

/-- The attributes of a document, by name. -/
abbrev Attributes := KeyMap String

/-- The line `k=v, k=v` of the attributes, in the order of their names. -/
def Attributes.line (attributes : Attributes) : String :=
  String.intercalate ", " (attributes.toList.map fun e => e.1 ++ "=" ++ e.2)

/-- The text that stands for a content with its attributes where both are embedded: the content
alone when there are no attributes. -/
def embeddingText (content : String) (attributes : Attributes) : String :=
  if attributes.isEmpty then content
  else content ++ "\n\nExtended Attributes: " ++ attributes.line

/-- A content under its identifier, with the attributes that describe it. -/
structure Document where
  id : String
  content : String
  attributes : Attributes := .empty
deriving DecidableEq, Inhabited

namespace Document

/-- Adds an attribute, in place of the one of the same name. -/
def withAttribute (d : Document) (name value : String) : Document :=
  { d with attributes := d.attributes.insert name value }

/-- Puts other attributes in place of all. -/
def withAttributes (d : Document) (attributes : Attributes) : Document :=
  { d with attributes }

def attribute? (d : Document) (name : String) : Option String := d.attributes.find? name

def embeddingText (d : Document) : String := ScopedRetrieval.embeddingText d.content d.attributes

end Document

end ScopedRetrieval
