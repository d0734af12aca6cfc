/-
# Numbers

A number is a whole number of 64 bits, signed or unsigned, or a floating-point number. The two kinds
never equal one another, even where their values agree. Whole numbers are written in decimal.

Key definitions: `Number`, `Number.ofInt?`, `Number.text`, `Number.isZero`, `Number.same`.
-/
import Recipients.Number.Shortest

namespace Recipients

/-- A whole number that 64 bits hold, signed or unsigned, or a floating-point number. -/
inductive Number where
  | whole (value : Int) (fits : -9223372036854775808 ≤ value ∧ value < 18446744073709551616)
  | float (value : Binary64)
  deriving DecidableEq

namespace Number

/-- The whole number as a number, if 64 bits hold it. -/
def ofInt? (value : Int) : Option Number :=
  if fits : -9223372036854775808 ≤ value ∧ value < 18446744073709551616 then some (.whole value fits)
  else none

/-- The decimal text of a whole number. -/
def wholeText (value : Int) : List Char :=
  if value < 0 then '-' :: Nat.toDigits 10 value.natAbs else Nat.toDigits 10 value.natAbs

/-- The text of the number. -/
def text : Number → List Char
  | .whole value _ => wholeText value
  | .float value => value.text

/-- Whether the number is zero, of either kind. -/
def isZero : Number → Bool
  | .whole value _ => value == 0
  | .float value => value.isZero

/-- Whether the numbers have one kind and one value. -/
def same : Number → Number → Bool
  | .whole a _, .whole b _ => a == b
  | .float a, .float b => a.same b
  | _, _ => false

end Number

end Recipients
