/-
Requesters: the claims that come with a request, and the text `key=value,key=value` that they are
read from. A claim is split at its first `=`, and both sides lose the white space around them.
-/
import ScopedRetrieval.KeyMap
import ScopedRetrieval.Text.Blank

namespace ScopedRetrieval

/-- The one who asks, known by the claims presented with the request. -/
structure Requester where
  claims : KeyMap String := .empty
deriving DecidableEq, Inhabited

/-- Why a text is no claim. -/
inductive ClaimFault where
  | noSeparator (text : String)
  | emptyKey (text : String)
deriving DecidableEq

def ClaimFault.message : ClaimFault → String
  | noSeparator text => "Expected key=value, got '" ++ text ++ "'"
  | emptyKey text => "Empty key in '" ++ text ++ "'"

namespace Requester

def anonymous : Requester := {}

/-- Adds a claim, in place of the one with the same key. -/
def withClaim (r : Requester) (key value : String) : Requester := ⟨r.claims.insert key value⟩

def claim? (r : Requester) (key : String) : Option String := r.claims.find? key

def presents (r : Requester) (key : String) : Bool := r.claims.contains key

/-- The requester with the given claims; of two claims with one key the later one counts. -/
def ofList (claims : List (String × String)) : Requester := ⟨.ofList claims⟩

/-- The claims between braces, as `key:value` in the order of their keys. -/
def describe (r : Requester) : String :=
  "\x7b" ++ String.intercalate " " (r.claims.toList.map fun e => e.1 ++ ":" ++ e.2) ++ "\x7d"

/-! ## Reading -/

/-- The text before the first `=` and the text behind it. -/
def splitClaim (cs : List Char) : Option (List Char × List Char) :=
  match cs.dropWhile (· ≠ '=') with
  | [] => none
  | _ :: value => some (cs.takeWhile (· ≠ '='), value)

/-- Reads one claim `key=value`; the key must not be blank. -/
def readClaim (text : String) : Except ClaimFault (String × String) :=
  match splitClaim text.toList with
  | none => .error (.noSeparator text)
  | some (key, value) =>
    if key.all Text.isBlankChar then .error (.emptyKey text)
    else .ok (.ofList (Text.trimChars key), .ofList (Text.trimChars value))

/-- Reads a list of claims; the first fault ends the reading. -/
def readClaims (texts : List String) : Except ClaimFault Requester :=
  (texts.mapM readClaim).map ofList

/-- The pieces of a text between its commas. -/
def splitAtCommas (text : String) : List String :=
  (text.toList.splitOn ',').map String.ofList

/-- Reads claims that are separated by commas. A blank text holds none. -/
def parse (text : String) : Except ClaimFault Requester :=
  if Text.isBlank text then .ok anonymous else readClaims (splitAtCommas text)

end Requester

end ScopedRetrieval
