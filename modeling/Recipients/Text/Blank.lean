/-
# White space

A character is blank if it has the Unicode property White_Space: 25 characters, of which the controls
U+0009 to U+000D, the space and the no-break space are the common ones. The zero width space and the
byte order mark are not blank.

Key definitions: `isBlank`, `isBlankText`.
-/
namespace Recipients.Text

/-- The code points of the blank characters, in ranges with both ends included. -/
def blankRanges : List (Nat × Nat) :=
  [(0x9, 0xD), (0x20, 0x20), (0x85, 0x85), (0xA0, 0xA0), (0x1680, 0x1680), (0x2000, 0x200A),
   (0x2028, 0x2029), (0x202F, 0x202F), (0x205F, 0x205F), (0x3000, 0x3000)]

/-- Whether the character is white space. -/
def isBlank (c : Char) : Bool :=
  blankRanges.any fun r => r.1 ≤ c.toNat && c.toNat ≤ r.2

/-- Whether the text holds white space only. The empty text does. -/
def isBlankText (s : String) : Bool :=
  s.toList.all isBlank

end Recipients.Text
