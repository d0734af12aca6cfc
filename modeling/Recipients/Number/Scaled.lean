/-
# Scaling by a power of ten

A whole number is brought to a power of ten in two roundings: the number itself becomes the nearest
floating-point number, and its product or quotient with the power of ten, rounded as well, is the
result. The powers reach up to 10 ^ 308; a smaller number is reached through several quotients, of which
two leave nothing of any number of 64 bits. The result can differ in its last place from the number
nearest to the decimal.

Key definitions: `Binary64.times?`, `Binary64.over?`, `Binary64.scaled?`.
-/
import Recipients.Number.Binary64

namespace Recipients.Binary64

/-- The rounded product. -/
def times? (x y : Binary64) : Option Binary64 :=
  nearest? (x.negative != y.negative) (x.fraction.1 * y.fraction.1) (x.fraction.2 * y.fraction.2)

/-- The rounded quotient by a number that is not zero. -/
def over? (x y : Binary64) : Option Binary64 :=
  nearest? (x.negative != y.negative) (x.fraction.1 * y.fraction.2) (x.fraction.2 * y.fraction.1)

/-- The largest power of ten that is a factor by itself. -/
def maxPower : Nat := 308

/-- The number nearest to a power of ten. -/
def powerOfTen? (e : Nat) : Option Binary64 :=
  nearest? false (Nat.pow 10 e) 1

/-- The rounded quotient by `10 ^ e`, taken in at most `steps` steps; zero if they do not suffice. -/
def scaledDown? : Nat → Binary64 → Nat → Option Binary64
  | 0, x, _ => some (zero x.negative)
  | steps + 1, x, e =>
    if e ≤ maxPower then (powerOfTen? e).bind x.over?
    else ((powerOfTen? maxPower).bind x.over?).bind fun y => scaledDown? steps y (e - maxPower)

/-- The number `digits * 10 ^ e` with a sign, unless it is too large for the format. -/
def scaled? (negative : Bool) (digits : Nat) (e : Int) : Option Binary64 :=
  (nearest? negative digits 1).bind fun x =>
    if e < 0 then scaledDown? 3 x (-e).toNat
    else if e ≤ maxPower then (powerOfTen? e.toNat).bind x.times?
    else if x.isZero then some x else none

end Recipients.Binary64
