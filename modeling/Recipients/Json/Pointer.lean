/-
# Pointers into a JSON value

A pointer (RFC 6901) is empty or a slash followed by tokens with slashes between them. Each token leads
one step down: into the member of that name, or to the item of that index. Inside a token `~0` stands
for a tilde and `~1` for a slash, so `escapeKey` makes a token out of any key.

Key definitions: `unescapeToken`, `escapeKey`, `arrayIndex?`, `Json.child?`, `Json.at?`,
`Json.reference?`.
Key theorem: `unescapeToken_escapeKey`.
-/
import Recipients.Json.Basic
import Recipients.Text.Pieces

namespace Recipients

open Text

/-- The name a token stands for. -/
def unescapeToken : List Char → List Char
  | '~' :: '1' :: cs => '/' :: unescapeToken cs
  | '~' :: '0' :: cs => '~' :: unescapeToken cs
  | c :: cs => c :: unescapeToken cs
  | [] => []

/-- The written form of one character of a key inside a token. -/
def escapeKeyChar (c : Char) : List Char :=
  if c = '~' then ['~', '0'] else if c = '/' then ['~', '1'] else [c]

/-- The token that stands for a key. -/
def escapeKey (key : List Char) : List Char :=
  key.flatMap escapeKeyChar

/-- Every key comes back from its token. -/
theorem unescapeToken_escapeKey : ∀ key : List Char, unescapeToken (escapeKey key) = key
  | [] => rfl
  | c :: cs => by
    have ih := unescapeToken_escapeKey cs
    rw [escapeKey] at ih
    rw [escapeKey, List.flatMap_cons]
    by_cases h : c = '~'
    · subst h
      simp [escapeKeyChar, unescapeToken, ih]
    · by_cases h' : c = '/'
      · subst h'
        simp [escapeKeyChar, unescapeToken, ih]
      · have hc : escapeKeyChar c = [c] := by simp [escapeKeyChar, h, h']
        rw [hc, List.singleton_append, unescapeToken.eq_def]
        split <;> simp_all

/-- The index that a token names: decimal digits without a sign and without a zero in front. -/
def arrayIndex? (token : List Char) : Option Nat :=
  match token with
  | [] => none
  | '0' :: _ :: _ => none
  | cs => if cs.all Char.isDigit then some (Nat.ofDigitChars 10 cs 0) else none

/-- The names that a pointer leads through, if it is one. -/
def pointerTokens? (pointer : String) : Option (List String) :=
  match pointer.toList with
  | [] => some []
  | '/' :: cs => some ((pieces '/' cs).map fun token => String.ofList (unescapeToken token))
  | _ => none

/-- The pointer to the member of a key below a pointer. -/
def childPointer (pointer key : String) : String :=
  pointer ++ "/" ++ String.ofList (escapeKey key.toList)

namespace Json

/-- The member or item that a token names. -/
def child? (v : Json) (token : String) : Option Json :=
  match v with
  | obj members => members.lookup token
  | arr items => (arrayIndex? token.toList).bind (items[·]?)
  | _ => none

/-- The value that a pointer leads to. -/
def at? (v : Json) (pointer : String) : Option Json :=
  (pointerTokens? pointer).bind fun tokens => tokens.foldlM child? v

/-- The pointer without the number sign that may stand in front of it. -/
def dropHash (target : String) : String :=
  match target.toList with
  | '#' :: cs => String.ofList cs
  | _ => target

/-- The pointer of a reference: an object whose only member is `$ref` with a string. -/
def reference? : Json → Option String
  | obj [(key, str target)] => if key = "$ref" then some (dropHash target) else none
  | _ => none

/-- The members of an object. -/
def members? : Json → Option (List (String × Json))
  | obj members => some members
  | _ => none

end Json

end Recipients
