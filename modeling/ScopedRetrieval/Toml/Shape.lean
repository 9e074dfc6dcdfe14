/-
Values of an expected shape. A record is a table, or an array of its fields in their order; a choice
is its name, or a table of that one name. What a record does not know is ignored.
-/
import ScopedRetrieval.KeyMap
import ScopedRetrieval.Toml.Value

namespace ScopedRetrieval.Toml

/-- Why a value does not have the expected shape. -/
inductive ShapeFault where
  | missing (field : String)
  | wrong (field : String)
deriving DecidableEq

def ShapeFault.message : ShapeFault → String
  | missing field => "missing field " ++ field
  | wrong field => "invalid value of field " ++ field

namespace Value

/-- The key under which a date or time reads as a table. -/
def momentKey : String := "$__toml_private_datetime"

/-- The fields of a record that has the given ones. Items of an array beyond them are ignored. -/
def record? (names : List String) : Value → Option Table
  | .table fields => some fields
  | .array items => some (names.zip items)
  | .moment text => some [(momentKey, .string text)]
  | _ => none

def string? : Value → Option String
  | .string s => some s
  | _ => none

def boolean? : Value → Option Bool
  | .boolean b => some b
  | _ => none

/-- A natural below a limit. -/
def natural? (limit : Nat) : Value → Option Nat
  | .integer n => if 0 ≤ n ∧ n < limit then some n.toNat else none
  | _ => none

def word? (v : Value) : Option UInt64 := (v.natural? UInt64.size).map .ofNat

def halfWord? (v : Value) : Option UInt16 := (v.natural? UInt16.size).map .ofNat

/-- The items of an array, each of a shape. -/
def list? {α : Type} (item : Value → Option α) : Value → Option (List α)
  | .array items => items.mapM item
  | _ => none

def texts? : Value → Option (KeyMap String)
  | .table fields => (fields.mapM fun (e : String × Value) => e.2.string?.map (e.1, ·)).map .ofList
  | .moment text => some (.ofList [(momentKey, text)])
  | _ => none

/-- The name of a choice. -/
def choiceName? : Value → Option String
  | .string s => some s
  | .table [(s, .table [])] => some s
  | .table [(s, .array [])] => some s
  | _ => none

/-- One of several choices, by their names. -/
def choice? {α : Type} (choices : List (String × α)) (v : Value) : Option α :=
  v.choiceName?.bind (choices.lookup ·)

end Value

namespace Table

variable {α : Type}

/-- A field that must be there. -/
def need (t : Table) (name : String) (read : Value → Option α) : Except ShapeFault α :=
  match t.lookup name with
  | none => .error (.missing name)
  | some v => (read v).elim (.error (.wrong name)) .ok

/-- A field that has a default. -/
def needOr (t : Table) (name : String) (default : α) (read : Value → Option α) :
    Except ShapeFault α :=
  match t.lookup name with
  | none => .ok default
  | some v => (read v).elim (.error (.wrong name)) .ok

/-- A field that may be absent. -/
def need? (t : Table) (name : String) (read : Value → Option α) : Except ShapeFault (Option α) :=
  t.needOr name none fun v => (read v).map some

/-- A field whose value has a shape of its own, with a default. -/
def within (t : Table) (name : String) (default : α) (read : Value → Except ShapeFault α) :
    Except ShapeFault α :=
  match t.lookup name with
  | none => .ok default
  | some v => read v

end Table

end ScopedRetrieval.Toml
