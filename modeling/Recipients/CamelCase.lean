/-
# Names in camel case

A field name is written `full_name` or `fullName`; both normalise to `FullName`. The name is cut at its
underscores, each piece gets a capital, and the pieces are put together, so the number of underscores
does not matter. A field is read through its accessor, the camel-case name after `get`.

Key definitions: `capitalise`, `camelCase`, `accessorName`, `accessorStem?`.
-/
import Recipients.Text.Pieces
import Recipients.Text.Upper

namespace Recipients

open Text

/-- The piece with its first character in upper case. -/
def capitalise : List Char → List Char
  | [] => []
  | c :: cs => upper c ++ cs

/-- The camel-case form of a name: its pieces between underscores, capitalised and put together. -/
def camelCase (name : String) : String :=
  String.ofList ((pieces '_' name.toList).flatMap capitalise)

/-- The accessor that reads the field of this name. -/
def accessorName (name : String) : String :=
  "get" ++ camelCase name

/-- The camel-case name that an accessor asks for, if it is one: what follows `get`. -/
def accessorStem? (accessor : String) : Option String :=
  match accessor.toList with
  | 'g' :: 'e' :: 't' :: stem => some (String.ofList stem)
  | _ => none

end Recipients
