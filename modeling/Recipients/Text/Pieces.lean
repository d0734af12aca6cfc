/-
# Cutting a text at a separator

`pieces sep` cuts a text at every occurrence of one character. There is always one piece more than
there are separators, so a text without one is its own single piece, and putting the separator back
between the pieces gives the text again.

Key definitions: `pieces`, `joinWith`.
Key theorems: `joinWith_pieces`, `pieces_append_sep`.
-/
namespace Recipients.Text

/-- The pieces between the separators, in order, empty ones included. -/
def pieces (sep : Char) : List Char → List (List Char)
  | [] => [[]]
  | c :: cs =>
    if c = sep then [] :: pieces sep cs
    else
      match pieces sep cs with
      | [] => [[c]]
      | p :: ps => (c :: p) :: ps

/-- The pieces one after the other with the separator between them. -/
def joinWith (sep : Char) : List (List Char) → List Char
  | [] => []
  | [p] => p
  | p :: q :: ps => p ++ sep :: joinWith sep (q :: ps)

theorem pieces_ne_nil (sep : Char) : ∀ cs : List Char, pieces sep cs ≠ []
  | [] => by simp [pieces]
  | c :: cs => by
    unfold pieces
    split
    · simp
    · split <;> simp

/-- Cutting loses nothing. -/
theorem joinWith_pieces (sep : Char) : ∀ cs : List Char, joinWith sep (pieces sep cs) = cs
  | [] => rfl
  | c :: cs => by
    have ih := joinWith_pieces sep cs
    have hne := pieces_ne_nil sep cs
    unfold pieces
    split
    · rename_i h
      cases hp : pieces sep cs with
      | nil => exact absurd hp hne
      | cons p ps => rw [hp] at ih; simp [joinWith, ih, h]
    · cases hp : pieces sep cs with
      | nil => exact absurd hp hne
      | cons p ps =>
        rw [hp] at ih
        cases ps with
        | nil => simpa [joinWith] using ih
        | cons q qs => simpa [joinWith] using ih

/-- A separator ends the pieces before it and starts those after it. -/
theorem pieces_append_sep (sep : Char) (b : List Char) :
    ∀ a : List Char, pieces sep (a ++ sep :: b) = pieces sep a ++ pieces sep b
  | [] => by simp [pieces]
  | c :: a => by
    have ih := pieces_append_sep sep b a
    have hne := pieces_ne_nil sep a
    simp only [List.cons_append, pieces, ih]
    split
    · rfl
    · cases hp : pieces sep a with
      | nil => exact absurd hp hne
      | cons p ps => simp

end Recipients.Text
