/-
# Floating-point numbers as exact values

A finite number of the double format is a whole number of units, each a power of two, with a sign. It
is kept that way here, as `± mantissa * 2 ^ exponent`, so that rounding and printing are exact arithmetic
on whole numbers. A decimal is rounded to the nearest such number, a half to the even mantissa; what
lies beyond the largest one has no rounding.

Key definitions: `Binary64`, `roundHalfEven`, `Binary64.nearest?`, `Binary64.ofDecimal?`,
`Binary64.same`.
-/
namespace Recipients

/-- The quotient rounded to the nearest whole number, a half to the even neighbour. -/
def roundHalfEven (num den : Nat) : Nat :=
  let below := num / den
  let twice := 2 * (num % den)
  if twice < den then below
  else if den < twice then below + 1
  else if below % 2 = 0 then below else below + 1

/-- The number `± mantissa * 2 ^ exponent`. Rounding makes numbers with a mantissa below `2 ^ 53` and an
exponent from -1074 to 971, and takes the smallest exponent that such a mantissa allows, so two of them
have one value only if they are equal, the two zeros apart. -/
structure Binary64 where
  negative : Bool
  mantissa : Nat
  exponent : Int
  deriving DecidableEq, Repr

namespace Binary64

/-- Zero with a sign. -/
def zero (negative : Bool) : Binary64 :=
  ⟨negative, 0, -1074⟩

/-- Whether the number is one of the two zeros. -/
def isZero (x : Binary64) : Bool :=
  x.mantissa == 0

/-- Whether the two numbers have one value: the two zeros do. -/
def same (x y : Binary64) : Bool :=
  (x.isZero && y.isZero) || x == y

/-- The fraction `num / den` counted in units of `base ^ e`. -/
def inUnits (base num den : Nat) (e : Int) : Nat × Nat :=
  if 0 ≤ e then (num, den * base.pow e.toNat) else (num * base.pow (-e).toNat, den)

/-- The exponent of the unit for a positive fraction: the one that leaves 53 binary digits before the
point, but none below the smallest. -/
def unitExponent (num den : Nat) : Int :=
  let low : Int := (Nat.log2 num : Int) - (Nat.log2 den : Int) - 53
  let scaled := inUnits 2 num den low
  max (-1074) (if scaled.1 / scaled.2 < Nat.pow 2 53 then low else low + 1)

/-- The number nearest to a fraction, unless it is too large for the format. -/
def nearest? (negative : Bool) (num den : Nat) : Option Binary64 :=
  if num = 0 then some (zero negative)
  else
    let e := unitExponent num den
    let scaled := inUnits 2 num den e
    let m := roundHalfEven scaled.1 scaled.2
    let x : Binary64 := if m = Nat.pow 2 53 then ⟨negative, Nat.pow 2 52, e + 1⟩ else ⟨negative, m, e⟩
    if 971 < x.exponent then none else some x

/-- The number nearest to `digits * 10 ^ e`. A power of ten far outside the format is settled without
computing it. -/
def ofDecimal? (negative : Bool) (digits : Nat) (e : Int) : Option Binary64 :=
  let size : Int := ((Nat.toDigits 10 digits).length : Int) + e
  if digits = 0 then some (zero negative)
  else if 400 < size then none
  else if size < -400 then some (zero negative)
  else
    let scaled := if 0 ≤ e then (digits * Nat.pow 10 e.toNat, 1) else (digits, Nat.pow 10 (-e).toNat)
    nearest? negative scaled.1 scaled.2

/-- The value without its sign, as a fraction. -/
def fraction (x : Binary64) : Nat × Nat :=
  if 0 ≤ x.exponent then (x.mantissa * Nat.pow 2 x.exponent.toNat, 1)
  else (x.mantissa, Nat.pow 2 (-x.exponent).toNat)

end Binary64

end Recipients
