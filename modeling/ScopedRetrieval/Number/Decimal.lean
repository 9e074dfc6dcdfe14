/-
The decimal text of doubles. The digits are the fewest that read back as the same double, and of
those the nearest to it. They are found on the grids of one, two, up to seventeen digits: where a
grid has a point in the interval of numbers that round to the double, one of the double's two
neighbours on the grid is such a point.
-/
import ScopedRetrieval.Number.Binary64

namespace ScopedRetrieval.Number

/-! ## The rounding interval -/

/-- The ends of an interval in quarters of a unit, and whether they belong to it. -/
structure Interval where
  low : Nat
  value : Nat
  high : Nat
  closed : Bool

/-- The numbers that round to a positive finite double. Below a power of two the spacing is half of
what it is above; the ends round to it when its mantissa is even. -/
def roundingInterval (x : Binary64) : Interval :=
  let step := 1 <<< x.scale
  let value := 4 * x.units
  let below := if x.fractionField = 0 ∧ 0 < x.scale then step else 2 * step
  { low := value - below, value, high := value + 2 * step, closed := x.mantissa % 2 = 0 }

/-! ## Digits -/

/-- A positive decimal `digits · 10^exponent`. -/
structure Decimal where
  digits : Nat
  exponent : Int

/-- One in quarters of a unit. -/
def quartersPerOne : Nat := 4 * Binary64.unitsPerOne

def tenTo (n : Nat) : Nat := Nat.pow 10 n

def digitCount (n : Nat) : Nat := (Nat.toDigits 10 n).length

/-- The exponent of the first digit of a positive number of quarters; no double has its first digit
more than 400 places behind the point. -/
def leadingExponent (quarters : Nat) : Int :=
  digitCount (quarters * tenTo 400 / quartersPerOne) - 401

/-- The neighbour of the value on the grid of multiples of `10^e` that lies in the interval, if one
does; of two the nearer one, and the upper one when they are equally near. -/
def gridPoint? (i : Interval) (e : Int) : Option Nat :=
  let up := tenTo (-e).toNat
  let unit := quartersPerOne * tenTo e.toNat
  let below := i.value * up / unit
  let within (c : Nat) : Bool :=
    if i.closed then i.low * up ≤ c * unit ∧ c * unit ≤ i.high * up
    else i.low * up < c * unit ∧ c * unit < i.high * up
  match within below, within (below + 1) with
  | true, true =>
    if i.value * up - below * unit < (below + 1) * unit - i.value * up then some below
    else some (below + 1)
  | true, false => some below
  | false, true => some (below + 1)
  | false, false => none

/-- Searches the grids of `n`, `n + 1`, … digits, `fuel` of them. -/
def searchGrids (i : Interval) (leading : Int) : (fuel n : Nat) → Decimal
  | 0, _ => ⟨i.value, leading⟩
  | fuel + 1, n =>
    let e := leading + 1 - n
    match gridPoint? i e with
    | some digits => ⟨digits, e⟩
    | none => searchGrids i leading fuel (n + 1)

/-- The shortest decimal that reads back as a positive finite double. -/
def shortest (x : Binary64) : Decimal :=
  let i := roundingInterval x
  searchGrids i (leadingExponent i.value) 17 1

/-! ## Text -/

/-- How a number is written from its digits and the exponent of the first of them. -/
structure Layout where
  /-- The exponents of the first digit that are written without a power of ten. -/
  positionalFrom : Int
  positionalBelow : Int
  /-- What is written behind a whole number without a power of ten. -/
  wholeSuffix : String
  /-- The mark before the power of ten. -/
  mark : String
  infinity : String
  notANumber : String

/-- Numbers from `0.0001` to below `10^16` are positional and show at least one place; others have
one digit before the point, no point behind a single digit, and a bare exponent. -/
def Layout.plain : Layout :=
  { positionalFrom := -4, positionalBelow := 16, wholeSuffix := ".0", mark := "e",
    infinity := "inf", notANumber := "NaN" }

/-- The digits of a decimal without the zeros at their end. -/
def Decimal.digitText (d : Decimal) : List Char :=
  ((Nat.toDigits 10 d.digits).reverse.dropWhile (· = '0')).reverse

def Decimal.leading (d : Decimal) : Int := d.exponent + digitCount d.digits - 1

def Layout.positive (l : Layout) (d : Decimal) : String :=
  let digits := d.digitText
  let e := d.leading
  if l.positionalFrom ≤ e ∧ e < l.positionalBelow then
    if e < 0 then "0." ++ .ofList (List.replicate (-e - 1).toNat '0' ++ digits)
    else
      let places := e.toNat + 1
      if digits.length ≤ places then
        .ofList (digits ++ List.replicate (places - digits.length) '0') ++ l.wholeSuffix
      else .ofList (digits.take places) ++ "." ++ .ofList (digits.drop places)
  else
    match digits with
    | [] => ""
    | first :: rest =>
      let fraction := if rest.isEmpty then "" else "." ++ .ofList rest
      first.toString ++ fraction ++ l.mark ++ toString e

def Layout.render (l : Layout) (x : Binary64) : String :=
  let sign := if x.isNegative then "-" else ""
  if !x.isFinite then
    if x.fractionField = 0 then sign ++ l.infinity else l.notANumber
  else if x.mantissa = 0 then sign ++ "0" ++ l.wholeSuffix
  else sign ++ l.positive (shortest x)

end ScopedRetrieval.Number
