/-
# Pieces and their separator

No piece holds the separator, a text without it is one piece, and pieces without it come back when they
are put together and cut again. The cut is the one that the library has for lists.

Key theorems: `pieces_of_not_mem`, `pieces_joinWith`, `not_mem_of_mem_pieces`, `pieces_eq_splitOn`.
-/
import Recipients.Text.Pieces

namespace Recipients.Text

theorem pieces_of_not_mem {sep : Char} : ∀ {cs : List Char}, sep ∉ cs → pieces sep cs = [cs]
  | [], _ => rfl
  | c :: cs, h => by
    have hc : c ≠ sep := fun hc => h (hc ▸ List.mem_cons_self)
    have hcs : sep ∉ cs := fun hcs => h (List.mem_cons_of_mem _ hcs)
    rw [pieces, if_neg hc, pieces_of_not_mem hcs]

/-- Pieces without the separator come back when they are put together and cut again. -/
theorem pieces_joinWith {sep : Char} : ∀ {ps : List (List Char)}, ps ≠ [] → (∀ p ∈ ps, sep ∉ p) →
    pieces sep (joinWith sep ps) = ps
  | [], hne, _ => absurd rfl hne
  | [p], _, h => pieces_of_not_mem (h p List.mem_cons_self)
  | p :: q :: ps, _, h => by
    have hrest : pieces sep (joinWith sep (q :: ps)) = q :: ps :=
      pieces_joinWith (List.cons_ne_nil q ps) fun r hr => h r (List.mem_cons_of_mem _ hr)
    have hfirst : pieces sep p = [p] := pieces_of_not_mem (h p List.mem_cons_self)
    rw [joinWith, pieces_append_sep, hrest, hfirst, List.singleton_append]

/-- No piece holds the separator. -/
theorem not_mem_of_mem_pieces {sep : Char} : ∀ {cs p : List Char}, p ∈ pieces sep cs → sep ∉ p
  | [], p, h => by
    rw [pieces, List.mem_singleton] at h
    simp [h]
  | c :: cs, p, h => by
    have hne := pieces_ne_nil sep cs
    rw [pieces] at h
    by_cases hc : c = sep
    · rw [if_pos hc] at h
      rcases List.mem_cons.mp h with rfl | h
      · simp
      · exact not_mem_of_mem_pieces h
    · rw [if_neg hc] at h
      cases hp : pieces sep cs with
      | nil => exact absurd hp hne
      | cons q qs =>
        rw [hp] at h
        rcases List.mem_cons.mp h with rfl | h
        · have hq : sep ∉ q := not_mem_of_mem_pieces (hp ▸ List.mem_cons_self)
          simp [hq, Ne.symm hc]
        · exact not_mem_of_mem_pieces (hp ▸ List.mem_cons_of_mem q h)

/-- The project's cut is the library's. -/
theorem pieces_eq_splitOn (sep : Char) : ∀ cs : List Char, pieces sep cs = cs.splitOn sep
  | [] => by simp [pieces]
  | c :: cs => by
    have ih := pieces_eq_splitOn sep cs
    have hne := pieces_ne_nil sep cs
    rw [List.splitOn_cons_eq_if_modifyHead, ← ih, pieces]
    by_cases h : c = sep
    · simp [h]
    · cases hp : pieces sep cs with
      | nil => exact absurd hp hne
      | cons p ps => simp [h]

end Recipients.Text
