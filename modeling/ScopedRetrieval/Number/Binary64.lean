/-
Double-precision numbers, by their bits. A finite magnitude is `m · 2^k` units, where the unit is
`2^-1074`, the smallest positive double; `nearest` rounds a quotient of naturals to such a number,
a half to the even neighbour, and a quotient beyond the largest double to infinity.
-/

namespace ScopedRetrieval

/-- A double by its 64 bits: a sign, eleven bits of exponent, fifty-two bits of fraction. -/
structure Binary64 where
  bits : UInt64
deriving DecidableEq, Inhabited

namespace Binary64

/-- The quotient rounded to a natural, a half to the even neighbour. -/
def roundQuotient (num den : Nat) : Nat :=
  let q := num / den
  let twice := 2 * (num % den)
  if twice < den then q
  else if den < twice then q + 1
  else if q % 2 = 0 then q
  else q + 1

/-- One is this many units: `2^1074`. -/
def unitsPerOne : Nat := 1 <<< 1074

/-- How many fractions there are: `2^52`. -/
def fractionSize : Nat := 0x10000000000000

/-- The bit of the sign: `2^63`. -/
def signBit : Nat := 0x8000000000000000

/-- How many binary places a magnitude of `units` loses when fifty-three digits are kept. -/
def exponentOf (units : Nat) : Nat := units.log2 - 52

/-- The bits of the largest finite double and one more: the bits of infinity. -/
def infinityBits : Nat := 0x7FF * fractionSize

/-- The bits of the double nearest to `num / den`. The carry out of a fraction of ones falls into
the exponent, which is what rounding up to a power of two needs. -/
def nearestBits (num den : Nat) : Nat :=
  let k := exponentOf (num * unitsPerOne / den)
  min infinityBits (k * fractionSize + roundQuotient (num * unitsPerOne) (den <<< k))

/-- The double with the given sign and the given bits but for that. -/
def withSign (negative : Bool) (bits : Nat) : Binary64 :=
  ⟨.ofNat (bits + if negative then signBit else 0)⟩

/-- The double nearest to `num / den`, with the given sign. -/
def nearest (negative : Bool) (num den : Nat) : Binary64 := withSign negative (nearestBits num den)

/-- The double nearest to a natural. -/
def ofNat (n : Nat) : Binary64 := nearest false n 1

/-! ## Parts -/

def isNegative (x : Binary64) : Bool := signBit ≤ x.bits.toNat

def exponentField (x : Binary64) : Nat := x.bits.toNat / fractionSize % 0x800

def fractionField (x : Binary64) : Nat := x.bits.toNat % fractionSize

def isFinite (x : Binary64) : Bool := x.exponentField ≠ 0x7FF

/-- The mantissa, with the leading one that is not stored when the exponent is not zero. -/
def mantissa (x : Binary64) : Nat :=
  if x.exponentField = 0 then x.fractionField else fractionSize + x.fractionField

/-- The power of two of the mantissa's last place, in units. -/
def scale (x : Binary64) : Nat := x.exponentField - 1

/-- The magnitude of a finite double in units. -/
def units (x : Binary64) : Nat := x.mantissa <<< x.scale

end Binary64

end ScopedRetrieval
