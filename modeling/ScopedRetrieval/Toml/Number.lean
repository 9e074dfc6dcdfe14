/-
Integers and floats. Digits may be set apart by single underscores between them; an integer has 64
bits with a sign, in decimal, hexadecimal, octal or binary.
-/
import ScopedRetrieval.Number.Decimal
import ScopedRetrieval.Toml.Value
import ScopedRetrieval.Toml.Reader

namespace ScopedRetrieval.Toml

/-- Reads on in a run of digits; behind an underscore, and at the start, there must be a digit. -/
def readDigitsOn (base : Nat) (must : Bool) : Reader (List Char)
  | [] => if must then none else some ([], [])
  | c :: rest =>
    if (digit? base c).isSome then (readDigitsOn base false rest).map fun r => (c :: r.1, r.2)
    else if must then none
    else if c = '_' then readDigitsOn base true rest
    else some ([], c :: rest)

/-- Reads digits of a base with single underscores between them. -/
def readDigitRun (base : Nat) : Reader (List Char) := readDigitsOn base true

/-- Reads a sign, if there is one, and says whether it is a minus. -/
def readSign : List Char → Bool × List Char
  | '-' :: rest => (true, rest)
  | '+' :: rest => (false, rest)
  | cs => (false, cs)

/-- An integer that has 64 bits. -/
def checkedInteger (n : Int) : Option Value := if integerFits n then some (.integer n) else none

/-- Reads an integer behind the mark of its base. -/
def readBased (base : Nat) : Reader Value := fun cs => do
  let (digits, rest) ← readDigitRun base cs
  return (← checkedInteger (digitsValue base digits), rest)

/-- Reads decimal digits, of which the first is no zero unless it is alone. -/
def readWhole : Reader (List Char)
  | '0' :: rest => some (['0'], rest)
  | cs => readDigitRun 10 cs

/-- Reads the places behind a point, if there is one. -/
def readPlaces : Reader (Option (List Char))
  | '.' :: rest => (readDigitRun 10 rest).map fun r => (some r.1, r.2)
  | cs => some (none, cs)

/-- Reads a power of ten, if there is one. -/
def readPower : Reader (Option Int)
  | c :: rest =>
    if c = 'e' ∨ c = 'E' then do
      let (negative, rest) := readSign rest
      let (digits, rest) ← readDigitRun 10 rest
      let n : Int := digitsValue 10 digits
      return (some (if negative then -n else n), rest)
    else some (none, c :: rest)
  | [] => some (none, [])

/-- Powers of ten beyond this leave no digit of a double, or make it infinite. -/
def powerLimit (digits : Nat) : Nat := 1000 + digits

/-- The double nearest to `digits · 10^power`. -/
def decimalToBinary (negative : Bool) (digits : List Char) (power : Int) : Binary64 :=
  let limit := powerLimit digits.length
  .nearest negative (digitsValue 10 digits * Number.tenTo (min limit power.toNat))
    (Number.tenTo (min limit (-power).toNat))

/-- A float; what is too large is refused, unless it is negative. -/
def checkedFloat (x : Binary64) : Option Value :=
  if !x.isFinite ∧ !x.isNegative then none else some (.float x)

def infinity (negative : Bool) : Binary64 := .withSign negative Binary64.infinityBits

/-- What is no number, with the first bit of its fraction set. -/
def notANumber (negative : Bool) : Binary64 :=
  .withSign negative (Binary64.infinityBits + Binary64.fractionSize / 2)

/-- Reads a decimal number behind its sign: a float if it has places or a power, and otherwise an
integer. -/
def readDecimal (negative : Bool) : Reader Value := fun cs => do
  let (whole, cs) ← readWhole cs
  let (places, cs) ← readPlaces cs
  let (power, cs) ← readPower cs
  if places.isNone ∧ power.isNone then
    let n : Int := digitsValue 10 whole
    return (← checkedInteger (if negative then -n else n), cs)
  else
    let places := places.getD []
    let x := decimalToBinary negative (whole ++ places) (power.getD 0 - places.length)
    return (← checkedFloat x, cs)

def readNumber : Reader Value
  | '0' :: 'x' :: rest => readBased 16 rest
  | '0' :: 'o' :: rest => readBased 8 rest
  | '0' :: 'b' :: rest => readBased 2 rest
  | cs =>
    let (negative, rest) := readSign cs
    match rest with
    | 'i' :: 'n' :: 'f' :: rest => some (.float (infinity negative), rest)
    | 'n' :: 'a' :: 'n' :: rest => some (.float (notANumber negative), rest)
    | rest => readDecimal negative rest

end ScopedRetrieval.Toml
