/-
# Writing JSON

Two layouts of a value: `compact` without any blanks, and `pretty`, which puts each item and member on
a line of its own, two spaces further in than its container, and writes an empty container as two
brackets. Members are written in the order in which the value lists them.

Inside a string the quote and the backslash get a backslash; of the controls below U+0020 five have a
letter and the others four hexadecimal digits; every other character stands for itself.

Key definitions: `Json.escapeChar`, `Json.strText`, `Json.compact`, `Json.pretty`.
-/
import Recipients.Json.Basic

namespace Recipients.Json

/-- The written form of one character inside a string. -/
def escapeChar (c : Char) : List Char :=
  if c = '"' then ['\\', '"']
  else if c = '\\' then ['\\', '\\']
  else if c = '\x08' then ['\\', 'b']
  else if c = '\x09' then ['\\', 't']
  else if c = '\x0a' then ['\\', 'n']
  else if c = '\x0c' then ['\\', 'f']
  else if c = '\x0d' then ['\\', 'r']
  else if c.toNat < 0x20 then
    ['\\', 'u', '0', '0', Nat.digitChar (c.toNat / 16), Nat.digitChar (c.toNat % 16)]
  else [c]

/-- A string between quotes. -/
def strText (s : String) : List Char :=
  '"' :: (s.toList.flatMap escapeChar ++ ['"'])

/-- The two truth values as words. -/
def boolText : Bool → List Char
  | true => ['t', 'r', 'u', 'e']
  | false => ['f', 'a', 'l', 's', 'e']

mutual

/-- The value without blanks. -/
def compactChars : Json → List Char
  | null => ['n', 'u', 'l', 'l']
  | bool b => boolText b
  | num n => n.text
  | str s => strText s
  | arr [] => ['[', ']']
  | arr (v :: vs) => '[' :: (compactChars v ++ compactItems vs)
  | obj [] => ['\x7b', '\x7d']
  | obj ((k, v) :: ms) => '\x7b' :: (strText k ++ ':' :: (compactChars v ++ compactMembers ms))

/-- The items after the first, and the bracket that closes the array. -/
def compactItems : List Json → List Char
  | [] => [']']
  | v :: vs => ',' :: (compactChars v ++ compactItems vs)

/-- The members after the first, and the brace that closes the object. -/
def compactMembers : List (String × Json) → List Char
  | [] => ['\x7d']
  | (k, v) :: ms => ',' :: (strText k ++ ':' :: (compactChars v ++ compactMembers ms))

end

/-- A new line, indented by two spaces for each container around it. -/
def newLine (level : Nat) : List Char :=
  '\n' :: List.replicate (2 * level) ' '

mutual

/-- The value with one entry a line; `level` containers are around it. -/
def prettyChars (level : Nat) : Json → List Char
  | null => ['n', 'u', 'l', 'l']
  | bool b => boolText b
  | num n => n.text
  | str s => strText s
  | arr [] => ['[', ']']
  | arr (v :: vs) =>
    '[' :: (newLine (level + 1) ++ (prettyChars (level + 1) v ++ prettyItems level vs))
  | obj [] => ['\x7b', '\x7d']
  | obj ((k, v) :: ms) =>
    '\x7b' :: (newLine (level + 1) ++
      (strText k ++ ':' :: ' ' :: (prettyChars (level + 1) v ++ prettyMembers level ms)))

/-- The items after the first, and the bracket that closes the array. -/
def prettyItems (level : Nat) : List Json → List Char
  | [] => newLine level ++ [']']
  | v :: vs => ',' :: (newLine (level + 1) ++ (prettyChars (level + 1) v ++ prettyItems level vs))

/-- The members after the first, and the brace that closes the object. -/
def prettyMembers (level : Nat) : List (String × Json) → List Char
  | [] => newLine level ++ ['\x7d']
  | (k, v) :: ms =>
    ',' :: (newLine (level + 1) ++
      (strText k ++ ':' :: ' ' :: (prettyChars (level + 1) v ++ prettyMembers level ms)))

end

/-- The text of a value without blanks. -/
def compact (v : Json) : String :=
  String.ofList v.compactChars

/-- The text of a value with one entry a line. -/
def pretty (v : Json) : String :=
  String.ofList (v.prettyChars 0)

end Recipients.Json
