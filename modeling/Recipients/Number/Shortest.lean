/-
# The shortest decimal of a floating-point number

A floating-point number is written with the fewest digits that determine it: it is the number nearest to
the decimal. Of two such decimals with that many digits the nearer one is taken, and of two equally near
ones the even one. From 10 ^ -5 up to below 10 ^ 16 the text is positional, with at least one digit after
the point; outside it is one digit, a point and the others if there are any, and the signed power of ten.

Key definitions: `Binary64.leadingExponent`, `Binary64.shortest`, `Binary64.layout`, `Binary64.text`.
-/
import Recipients.Number.Binary64

namespace Recipients.Binary64

/-- Whether the fraction is at least `10 ^ e`. -/
def reachesPowerOfTen (num den : Nat) (e : Int) : Bool :=
  if 0 ≤ e then den * Nat.pow 10 e.toNat ≤ num else den ≤ num * Nat.pow 10 (-e).toNat

/-- The power of ten of the first digit of a positive fraction. The binary length leaves four
candidates, of which the largest that the fraction reaches is the one. -/
def leadingExponent (num den : Nat) : Int :=
  let low := ((Nat.log2 num : Int) - (Nat.log2 den : Int) - 1) * 30103 / 100000 - 1
  (([3, 2, 1, 0].map (low + ·)).find? (reachesPowerOfTen num den)).getD low

/-- The decimal with `count` digits that determines the number, if there is one: one of the two
neighbours of the number among the multiples of the last digit's power of ten. -/
def decimalWith? (x : Binary64) (count : Nat) : Option (Nat × Int) :=
  let f := x.fraction
  let unit := leadingExponent f.1 f.2 + 1 - count
  let scaled := inUnits 10 f.1 f.2 unit
  let below := scaled.1 / scaled.2
  let twice := 2 * (scaled.1 % scaled.2)
  let determines (d : Nat) : Bool := ofDecimal? x.negative d unit == some x
  match determines below, determines (below + 1) with
  | true, true =>
    if twice < scaled.2 || (twice == scaled.2 && below % 2 == 0) then some (below, unit)
    else some (below + 1, unit)
  | true, false => some (below, unit)
  | false, true => some (below + 1, unit)
  | false, false => none

/-- The digits, without zeros at the end, and the power of ten of the first of them, of the shortest
decimal that determines the number. Seventeen digits always do. -/
def shortest (x : Binary64) : List Char × Int :=
  match (List.range' 1 17).findSome? x.decimalWith? with
  | some (d, unit) =>
    let all := Nat.toDigits 10 d
    ((all.reverse.dropWhile (· == '0')).reverse, unit + all.length - 1)
  | none => ([], 0)

/-- Writes digits whose first has the given power of ten. -/
def layout (digits : List Char) (first : Int) : List Char :=
  if -5 ≤ first ∧ first ≤ 15 then
    if 0 ≤ first then
      let count := first.toNat + 1
      let whole := digits.take count
      let rest := digits.drop count
      whole ++ List.replicate (count - whole.length) '0' ++ '.' :: (if rest.isEmpty then ['0'] else rest)
    else ['0', '.'] ++ List.replicate ((-first).toNat - 1) '0' ++ digits
  else
    let sign := if 0 ≤ first then '+' else '-'
    let mark := match digits.drop 1 with
      | [] => digits.take 1
      | rest => digits.take 1 ++ '.' :: rest
    mark ++ 'e' :: sign :: Nat.toDigits 10 first.natAbs

/-- The text of the number. -/
def text (x : Binary64) : List Char :=
  let body := if x.isZero then ['0', '.', '0'] else layout x.shortest.1 x.shortest.2
  if x.negative then '-' :: body else body

end Recipients.Binary64
