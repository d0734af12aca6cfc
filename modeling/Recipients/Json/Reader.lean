/-
# Reading JSON

The reader follows the grammar of RFC 8259 strictly: four blanks, no raw controls in strings, no lone
surrogates, no comma before a closing bracket, at most 127 containers inside one another, and no number
beyond the floating-point range. A reader takes the characters that are left and answers what it read
with the characters that remain.

Sequences are read by `readSequence`, which carries a state from entry to entry; arrays and objects
collect their entries in it, and readers of a fixed shape use it to notice repeated fields. A value that
nobody needs is passed over by `skipValue`, which asks less of it: it may be nested to any depth, hold
lone surrogates and exceed the range, and what is wrong with a number in it is never that the text ends.

Key definitions: `Reader`, `readStringFrom`, `readNumeral`, `readSequence`, `readValue`, `skipValue`,
`readWhole`, `Json.readOrdered`, `Json.read`.
-/
import Recipients.Json.Basic
import Recipients.Json.ReadError
import Recipients.Number.Scaled

namespace Recipients

/-- Reads a value off the front of the characters and answers it with the rest. -/
abbrev Reader (α : Type) : Type := List Char → Except ReadError (α × List Char)

namespace Json

variable {α σ : Type}

/-! ### Blanks and words -/

/-- The four blanks of the grammar. -/
def isBlank (c : Char) : Bool :=
  c == ' ' || c == '\t' || c == '\n' || c == '\r'

/-- The characters after the blanks in front. -/
def skipBlank (cs : List Char) : List Char :=
  cs.dropWhile isBlank

/-- Reads the given characters, which stand for the value. -/
def readWord (value : α) : List Char → Reader α
  | [], cs => .ok (value, cs)
  | _ :: _, [] => .error .cutShort
  | w :: ws, c :: cs => if c = w then readWord value ws cs else .error .malformed

/-! ### Numbers -/

/-- The parts of a written number. -/
structure Numeral where
  negative : Bool
  whole : List Char
  fraction : Option (List Char)
  exponent : Option (Bool × List Char)

/-- Reads one digit or more. -/
def readDigits : Reader (List Char)
  | [] => .error .cutShort
  | c :: cs =>
    if c.isDigit then .ok ((c :: cs).takeWhile Char.isDigit, (c :: cs).dropWhile Char.isDigit)
    else .error .malformed

/-- Reads the digits before the point: a zero stands alone. -/
def readWholePart : Reader (List Char)
  | '0' :: d :: cs => if d.isDigit then .error .malformed else .ok (['0'], d :: cs)
  | cs => readDigits cs

/-- Reads a point and its digits, if there is a point. -/
def readFraction : Reader (Option (List Char))
  | '.' :: cs => (readDigits cs).map fun r => (some r.1, r.2)
  | cs => .ok (none, cs)

/-- Reads the sign, if there is one, and the digits of an exponent. -/
def readExponentDigits : Reader (Bool × List Char)
  | '+' :: cs => (readDigits cs).map fun r => ((false, r.1), r.2)
  | '-' :: cs => (readDigits cs).map fun r => ((true, r.1), r.2)
  | cs => (readDigits cs).map fun r => ((false, r.1), r.2)

/-- Reads an exponent, if there is one. -/
def readExponent : Reader (Option (Bool × List Char))
  | 'e' :: cs => (readExponentDigits cs).map fun r => (some r.1, r.2)
  | 'E' :: cs => (readExponentDigits cs).map fun r => (some r.1, r.2)
  | cs => .ok (none, cs)

/-- Reads the parts of a number after its sign. -/
def readUnsigned (negative : Bool) : Reader Numeral := fun cs => do
  let (whole, cs) ← readWholePart cs
  let (fraction, cs) ← readFraction cs
  let (exponent, cs) ← readExponent cs
  return (⟨negative, whole, fraction, exponent⟩, cs)

/-- Reads the parts of a number. -/
def readNumeral : Reader Numeral
  | '-' :: cs => readUnsigned true cs
  | cs => readUnsigned false cs

/-- Appends digits to a number as long as 64 bits hold it, and answers the digits that are left. -/
def keepDigits : Nat → List Char → Nat × List Char
  | n, [] => (n, [])
  | n, c :: cs =>
    let longer := 10 * n + (c.toNat - 48)
    if longer < 2 ^ 64 then keepDigits longer cs else (n, c :: cs)

/-- The power of ten that an exponent names. -/
def exponentValue : Option (Bool × List Char) → Int
  | none => 0
  | some (negative, digits) =>
    if negative then -(Nat.ofDigitChars 10 digits 0 : Int) else Nat.ofDigitChars 10 digits 0

/-- The number that a numeral stands for. Its first digits count, as many as 64 bits hold; for each digit
left before the point the number is ten times larger. A numeral of digits only is a whole number if 64
bits hold it, minus zero apart; any other is a floating-point number, unless that is too large. -/
def Numeral.number? (n : Numeral) : Option Number :=
  let whole := keepDigits 0 n.whole
  let fraction := n.fraction.getD []
  let all := keepDigits whole.1 fraction
  let e : Int := (whole.2.length : Int) - (fraction.length - all.2.length) + exponentValue n.exponent
  let float := (Binary64.scaled? n.negative all.1 e).map Number.float
  if n.fraction.isSome || n.exponent.isSome || !whole.2.isEmpty || (n.negative && whole.1 == 0) then
    float
  else (Number.ofInt? (if n.negative then -(whole.1 : Int) else whole.1)).or float

/-- Reads a number. -/
def readNumber : Reader Number := fun cs => do
  let (numeral, cs) ← readNumeral cs
  match numeral.number? with
  | some n => return (n, cs)
  | none => .error .malformed

/-! ### Strings -/

/-- Where the reader stands inside a string: between characters, after a backslash, with so many
hexadecimal digits to come, or between the two halves of a surrogate pair. -/
inductive StringState where
  | plain
  | escape
  | hex (left value : Nat) (high : Option Nat)
  | pairBackslash (high : Nat)
  | pairLetter (high : Nat)

/-- The character that a letter after a backslash stands for. -/
def escaped? : Char → Option Char
  | '"' => some '"'
  | '\\' => some '\\'
  | '/' => some '/'
  | 'b' => some '\x08'
  | 'f' => some '\x0c'
  | 'n' => some '\n'
  | 'r' => some '\r'
  | 't' => some '\t'
  | _ => none

/-- The value of a hexadecimal digit, of either case. -/
def hexValue? (c : Char) : Option Nat :=
  if c.isDigit then some (c.toNat - 48)
  else if 'a' ≤ c ∧ c ≤ 'f' then some (c.toNat - 87)
  else if 'A' ≤ c ∧ c ≤ 'F' then some (c.toNat - 55)
  else none

/-- Whether fewer than four bytes are left. -/
def lacksFourBytes (cs : List Char) : Bool :=
  (cs.take 4).foldl (fun bytes c => bytes + c.utf8Size) 0 < 4

/-- The state after the last of four hexadecimal digits, and the character they complete, if any.
A unit of the first surrogate range waits for one of the second. -/
def afterHex (value : Nat) : Option Nat → Except ReadError (StringState × Option Char)
  | none =>
    if 0xDC00 ≤ value ∧ value ≤ 0xDFFF then .error .malformed
    else if 0xD800 ≤ value ∧ value ≤ 0xDBFF then .ok (.pairBackslash value, none)
    else .ok (.plain, some (Char.ofNat value))
  | some high =>
    if 0xDC00 ≤ value ∧ value ≤ 0xDFFF then
      .ok (.plain, some (Char.ofNat (0x10000 + (high - 0xD800) * 0x400 + (value - 0xDC00))))
    else .error .malformed

/-- One character of a string in a given state, with what follows it: the next state and the character
it completes. With `pairs` off, surrogates need not come in pairs. -/
def stringStep (pairs : Bool) (c : Char) (rest : List Char) :
    StringState → Except ReadError (StringState × Option Char)
  | .plain =>
    if c = '\\' then .ok (.escape, none)
    else if c.toNat < 0x20 then .error .malformed
    else .ok (.plain, some c)
  | .escape =>
    if c = 'u' then
      if lacksFourBytes rest then .error .cutShort else .ok (.hex 4 0 none, none)
    else
      match escaped? c with
      | some d => .ok (.plain, some d)
      | none => .error .malformed
  | .hex left value high =>
    match hexValue? c with
    | none => .error .malformed
    | some d =>
      if 1 < left then .ok (.hex (left - 1) (16 * value + d) high, none)
      else if pairs then afterHex (16 * value + d) high
      else .ok (.plain, none)
  | .pairBackslash high => if c = '\\' then .ok (.pairLetter high, none) else .error .malformed
  | .pairLetter high =>
    if c = 'u' then
      if lacksFourBytes rest then .error .cutShort else .ok (.hex 4 0 (some high), none)
    else .error .malformed

/-- Reads the rest of a string and its closing quote. -/
def readStringFrom (pairs : Bool) : StringState → Reader (List Char)
  | _, [] => .error .cutShort
  | state, c :: cs =>
    match state, c with
    | .plain, '"' => .ok ([], cs)
    | state, c =>
      match stringStep pairs c cs state with
      | .error e => .error e
      | .ok (next, emitted) =>
        (readStringFrom pairs next cs).map fun r => (emitted.toList ++ r.1, r.2)

/-- Reads a string after its opening quote. -/
def readString : Reader String := fun cs =>
  (readStringFrom true .plain cs).map fun r => (String.ofList r.1, r.2)

/-! ### Sequences -/

/-- What follows an entry: the closing bracket, or a comma and another entry. The count bounds the
entries; it is larger than the number of characters left. -/
def readRest (close : Char) (entry : σ → Reader σ) : Nat → σ → Reader σ
  | 0, _, _ => .error .malformed
  | count + 1, s, cs =>
    match skipBlank cs with
    | [] => .error .cutShort
    | c :: rest =>
      if c = close then .ok (s, rest)
      else if c = ',' then
        match entry s rest with
        | .error e => .error e
        | .ok (s, rest) => readRest close entry count s rest
      else .error .malformed

/-- Reads entries, separated by commas, up to the closing bracket, and carries a state through them. -/
def readSequence (close : Char) (entry : σ → Reader σ) (s : σ) : Reader σ := fun cs =>
  match skipBlank cs with
  | [] => .error .cutShort
  | c :: rest =>
    if c = close then .ok (s, rest)
    else
      match entry s (c :: rest) with
      | .error e => .error e
      | .ok (s, rest) => readRest close entry (rest.length + 1) s rest

/-- Collects the entries of a sequence in order. -/
def readList (close : Char) (entry : Reader α) : Reader (List α) :=
  readSequence close (fun done cs => (entry cs).map fun r => (done ++ [r.1], r.2)) []

/-- Reads the key of a member. -/
def readKey : Reader String := fun cs =>
  match skipBlank cs with
  | [] => .error .cutShort
  | c :: rest => if c = '"' then readString rest else .error .malformed

/-- Reads the colon after a key. -/
def readColon : List Char → Except ReadError (List Char) := fun cs =>
  match skipBlank cs with
  | [] => .error .cutShort
  | c :: rest => if c = ':' then .ok rest else .error .malformed

/-- Reads a key, a colon and a value. -/
def readMember (value : Reader α) : Reader (String × α) := fun cs => do
  let (key, cs) ← readKey cs
  let cs ← readColon cs
  let (v, cs) ← value cs
  return ((key, v), cs)

/-! ### Values -/

/-- Reads a value that is no array and no object. -/
def readScalar : Reader Json
  | [] => .error .cutShort
  | c :: cs =>
    if c = 'n' then readWord null ['u', 'l', 'l'] cs
    else if c = 't' then readWord (bool true) ['r', 'u', 'e'] cs
    else if c = 'f' then readWord (bool false) ['a', 'l', 's', 'e'] cs
    else if c = '"' then (readString cs).map fun r => (str r.1, r.2)
    else if c = '-' ∨ c.isDigit then (readNumber (c :: cs)).map fun r => (num r.1, r.2)
    else .error .malformed

/-- Reads a value with at most `depth` containers inside one another. -/
def readValue : Nat → Reader Json
  | 0, cs => readScalar (skipBlank cs)
  | depth + 1, cs =>
    match skipBlank cs with
    | '[' :: cs => (readList ']' (readValue depth) cs).map fun r => (arr r.1, r.2)
    | '\x7b' :: cs =>
      (readList '\x7d' (readMember (readValue depth)) cs).map fun r => (obj r.1, r.2)
    | cs => readScalar cs

/-- Passes over a value that is no array and no object. -/
def skipScalar : Reader Unit
  | [] => .error .cutShort
  | c :: cs =>
    if c = '"' then (readStringFrom false .plain cs).map fun r => ((), r.2)
    else if c = '-' ∨ c.isDigit then
      match readNumeral (c :: cs) with
      | .error _ => .error .malformed
      | .ok r => .ok ((), r.2)
    else (readScalar (c :: cs)).map fun r => ((), r.2)

/-- Passes over a key. -/
def skipKey : Reader Unit := fun cs =>
  match skipBlank cs with
  | [] => .error .cutShort
  | c :: rest =>
    if c = '"' then (readStringFrom false .plain rest).map fun r => ((), r.2)
    else .error .malformed

/-- Passes over a value with at most `depth` containers inside one another. -/
def skipNested : Nat → Reader Unit
  | 0, cs => skipScalar (skipBlank cs)
  | depth + 1, cs =>
    match skipBlank cs with
    | '[' :: cs => readSequence ']' (fun _ => skipNested depth) () cs
    | '\x7b' :: cs =>
      readSequence '\x7d' (fun _ cs => do
        let (_, cs) ← skipKey cs
        let cs ← readColon cs
        skipNested depth cs) () cs
    | cs => skipScalar cs

/-- Passes over a value, whatever its depth: there are no more containers than characters. -/
def skipValue : Reader Unit := fun cs =>
  skipNested cs.length cs

/-- Reads a text that holds one value and blanks. -/
def readWhole (value : Reader α) (text : String) : Except ReadError α := do
  let (v, cs) ← value text.toList
  match skipBlank cs with
  | [] => return v
  | _ => .error .malformed

/-- The number of containers that may stand inside one another. -/
def maxDepth : Nat := 127

/-- Reads a text and keeps the members of every object as they stand, repeated ones included. -/
def readOrdered (text : String) : Except ReadError Json :=
  readWhole (readValue maxDepth) text

/-- Reads a text and brings the value into standard form. -/
def read (text : String) : Except ReadError Json :=
  (readOrdered text).map sort

end Json

end Recipients
