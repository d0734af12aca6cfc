/-
# Path expressions

A raw text is a path expression if it stands between two opening and two closing braces, and a literal
otherwise. The segments of a path are the pieces between its dots that are not blank, as they stand,
with any blanks around them.

Key definitions: `PathExpression`, `PathExpression.inner?`, `PathExpression.parse?`,
`PathExpression.accessors`.
-/
import Recipients.CamelCase
import Recipients.Text.Blank
import Recipients.Text.Pieces

namespace Recipients

open Text

/-- The segments of a path, in order. -/
structure PathExpression where
  segments : List String
  deriving DecidableEq

namespace PathExpression

/-- The characters in front of two closing braces, if the characters end in them. -/
def beforeClose? (cs : List Char) : Option (List Char) :=
  match cs.reverse with
  | '\x7d' :: '\x7d' :: inner => some inner.reverse
  | _ => none

/-- What stands between the braces, if the text has them. The two pairs do not overlap. -/
def inner? (raw : String) : Option (List Char) :=
  match raw.toList with
  | '\x7b' :: '\x7b' :: cs => beforeClose? cs
  | _ => none

/-- Whether the text has the form of a path expression. -/
def isPath (raw : String) : Bool :=
  (inner? raw).isSome

/-- The path that a text denotes, or none for a literal. -/
def parse? (raw : String) : Option PathExpression :=
  (inner? raw).map fun inner =>
    ⟨((pieces '.' inner).filter fun piece => !piece.all isBlank).map String.ofList⟩

/-- Whether the path has no segments. -/
def isEmpty (p : PathExpression) : Bool :=
  p.segments.isEmpty

/-- The accessors that a walk along the path reads, in order. -/
def accessors (p : PathExpression) : List String :=
  p.segments.map accessorName

end PathExpression

end Recipients
