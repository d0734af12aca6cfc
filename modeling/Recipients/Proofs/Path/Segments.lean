/-
# The segments of a written path

A path expression is two opening braces, pieces with dots between them, and two closing braces. Pieces
without dots come back from what is written, one by one, and those that are not blank are the segments.

Key theorems: `PathExpression.inner?_eq_some_iff`, `PathExpression.isSome_parse?`,
`PathExpression.parse?_joinWith`.
-/
import Recipients.Path.Expression
import Recipients.Proofs.Text.Pieces

namespace Recipients

open Text

namespace PathExpression

/-- The characters of a path expression whose inner text is given. -/
def braced (inner : List Char) : List Char :=
  '\x7b' :: '\x7b' :: (inner ++ ['\x7d', '\x7d'])

theorem beforeClose?_eq_some_iff {cs inner : List Char} :
    beforeClose? cs = some inner ↔ cs = inner ++ ['\x7d', '\x7d'] := by
  unfold beforeClose?
  constructor
  · intro h
    split at h
    · rename_i rest hrev
      cases h
      rw [← List.reverse_reverse cs, hrev]
      simp
    · cases h
  · rintro rfl
    simp

/-- A text has an inner text exactly if it stands between the braces. -/
theorem inner?_eq_some_iff {raw : String} {inner : List Char} :
    inner? raw = some inner ↔ raw.toList = braced inner := by
  unfold inner?
  constructor
  · intro h
    split at h
    · rename_i cs hraw
      rw [hraw, beforeClose?_eq_some_iff.mp h, braced]
    · cases h
  · intro h
    rw [h, braced]
    exact beforeClose?_eq_some_iff.mpr rfl

/-- The texts that are read as paths are those of the form. -/
theorem isSome_parse? (raw : String) : (parse? raw).isSome = isPath raw := by
  unfold parse? isPath
  rw [Option.isSome_map]

/-- The segments of written pieces are those that are not blank. -/
theorem parse?_joinWith {raw : String} {ps : List (List Char)} (hraw : raw.toList = braced (joinWith '.' ps))
    (hdots : ∀ p ∈ ps, '.' ∉ p) :
    parse? raw = some ⟨(ps.filter fun p => !p.all isBlank).map String.ofList⟩ := by
  have hsegments : ((pieces '.' (joinWith '.' ps)).filter fun p => !p.all isBlank) =
      ps.filter fun p => !p.all isBlank := by
    cases ps with
    | nil => rfl
    | cons p ps => rw [pieces_joinWith (List.cons_ne_nil p ps) hdots]
  rw [parse?, inner?_eq_some_iff.mpr hraw, Option.map_some, hsegments]

end PathExpression

end Recipients
