/-
# Quoted text

A text between double quotes in which every character shows. Quotes and backslashes get a backslash,
four controls have letters or a digit of their own, and every other hidden character is named by its
code point in lower-case hexadecimal, as in `\u{7f}`. A single quote stays as it is.

Key definitions: `hexDigits`, `quoteChar`, `quote`, `quoteAll`.
-/
import Recipients.Text.Hidden

namespace Recipients.Text

/-- The hexadecimal digits of a number, lower case, without leading zeros. -/
def hexDigits (n : Nat) : List Char :=
  Nat.toDigits 16 n

/-- The written form of one character inside a quoted text. -/
def quoteChar (c : Char) : List Char :=
  if c = '\x00' then ['\\', '0']
  else if c = '\t' then ['\\', 't']
  else if c = '\r' then ['\\', 'r']
  else if c = '\n' then ['\\', 'n']
  else if c = '\\' then ['\\', '\\']
  else if c = '"' then ['\\', '"']
  else if isHidden c then ['\\', 'u', '\x7b'] ++ hexDigits c.toNat ++ ['\x7d']
  else [c]

/-- The text between double quotes, with every character made visible. -/
def quote (s : String) : String :=
  String.ofList ('"' :: s.toList.flatMap quoteChar ++ ['"'])

/-- A bracketed list of quoted texts, separated by a comma and a space. -/
def quoteAll (texts : List String) : String :=
  "[" ++ String.intercalate ", " (texts.map quote) ++ "]"

end Recipients.Text
