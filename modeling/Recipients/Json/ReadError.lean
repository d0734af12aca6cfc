/-
# Why a JSON text is not read

A text may end too early, break the grammar, or be sound so far and of the wrong shape for what it is
read as. The last kind has a message that names what was found and what was expected.

Key definitions: `ReadError`, `Mismatch`, `Mismatch.message`.
-/
import Recipients.Number.Basic
import Recipients.Text.Quoted

namespace Recipients

/-- What stands in the text, as far as a message names it. -/
inductive Found where
  | null
  | bool (value : Bool)
  | number (value : Number)
  | text (value : String)
  | sequence
  | map

/-- What a text is read as: a string, a map, or a record with the given name. -/
inductive Shape where
  | text
  | map
  | record (name : String)

/-- A part of the text that has another shape than the one it is read as. -/
inductive Mismatch where
  | wrongType (found : Found) (expected : Shape)
  | repeatedField (name : String)
  | missingField (name : String)
  | tooFewElements (count : Nat) (expected : Shape) (wanted : Nat)

/-- Why a text is not read. -/
inductive ReadError where
  | cutShort
  | malformed
  | mismatch (cause : Mismatch)

/-- Names what was found. -/
def Found.describe : Found → String
  | null => "null"
  | bool value => "boolean `" ++ (if value then "true" else "false") ++ "`"
  | number (.whole value fits) => "integer `" ++ String.ofList (Number.whole value fits).text ++ "`"
  | number (.float value) => "floating point `" ++ String.ofList value.text ++ "`"
  | text value => "string " ++ Text.quote value
  | sequence => "sequence"
  | map => "map"

/-- Names what was expected. -/
def Shape.describe : Shape → String
  | text => "a string"
  | map => "a map"
  | record name => "struct " ++ name

/-- Says what is wrong with the shape. -/
def Mismatch.message : Mismatch → String
  | wrongType found expected =>
    "invalid type: " ++ found.describe ++ ", expected " ++ expected.describe
  | repeatedField name => "duplicate field `" ++ name ++ "`"
  | missingField name => "missing field `" ++ name ++ "`"
  | tooFewElements count expected wanted =>
    "invalid length " ++ toString count ++ ", expected " ++ expected.describe ++ " with " ++
      toString wanted ++ " elements"

/-- Says why the text is not read. -/
def ReadError.message : ReadError → String
  | cutShort => "unexpected end of text"
  | malformed => "not a JSON text"
  | mismatch cause => cause.message

end Recipients
