/-
White space, by the White_Space property of Unicode, and the text that is left when it is cut from
the ends.
-/

namespace ScopedRetrieval.Text

/-- The white space characters as inclusive ranges of code points. -/
def blankRanges : List (Nat × Nat) :=
  [(0x09, 0x0D), (0x20, 0x20), (0x85, 0x85), (0xA0, 0xA0), (0x1680, 0x1680), (0x2000, 0x200A),
    (0x2028, 0x2029), (0x202F, 0x202F), (0x205F, 0x205F), (0x3000, 0x3000)]

def isBlankChar (c : Char) : Bool :=
  blankRanges.any fun r => r.1 ≤ c.toNat && c.toNat ≤ r.2

def isBlank (s : String) : Bool := s.toList.all isBlankChar

/-- Cuts white space from the end of a list of characters. -/
def trimEndChars (cs : List Char) : List Char := (cs.reverse.dropWhile isBlankChar).reverse

/-- Cuts white space from both ends of a list of characters. -/
def trimChars (cs : List Char) : List Char := trimEndChars (cs.dropWhile isBlankChar)

def trim (s : String) : String := String.ofList (trimChars s.toList)

def trimEnd (s : String) : String := String.ofList (trimEndChars s.toList)

/-- The ranges hold twenty-five characters. -/
example : (blankRanges.map fun r => r.2 - r.1 + 1).sum = 25 := by decide

end ScopedRetrieval.Text
