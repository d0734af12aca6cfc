/-
# One name in many spellings

Camel case adds up over underscores: the form of two names with an underscore between them is the form of
the one and then of the other. So underscores at the ends and underscores side by side count for nothing.
A form holds no underscore and begins in upper case, which makes it its own form. Hence a name, its form,
and whatever comes of them by more underscores all ask for the same accessor.

Key definitions: `camelChars`, `Spelling`.
Key theorems: `camelChars_append`, `camelCase_append`, `camelCase_camelCase`, `Spelling.camelCase_eq`.
-/
import Recipients.CamelCase
import Recipients.Proofs.Text.Pieces
import Recipients.Proofs.Text.Upper

namespace Recipients

open Text

/-! ### Pieces -/

/-- The characters of the camel-case form. -/
def camelChars (name : List Char) : List Char :=
  (pieces '_' name).flatMap capitalise

theorem toList_camelCase (name : String) : (camelCase name).toList = camelChars name.toList :=
  String.toList_ofList

/-- An underscore ends the form of what stands before it and begins the form of what stands after it. -/
theorem camelChars_append (a b : List Char) :
    camelChars (a ++ '_' :: b) = camelChars a ++ camelChars b := by
  rw [camelChars, pieces_append_sep, List.flatMap_append]
  rfl

/-- Without underscores the form is the capitalised name. -/
theorem camelChars_of_no_underscore {name : List Char} (h : '_' ∉ name) :
    camelChars name = capitalise name := by
  rw [camelChars, pieces_of_not_mem h, List.flatMap_singleton]

theorem underscore_not_mem_capitalise {p : List Char} (h : '_' ∉ p) : '_' ∉ capitalise p := by
  cases p with
  | nil => exact h
  | cons c cs =>
    rw [List.mem_cons, not_or] at h
    rw [capitalise, List.mem_append, not_or, underscore_mem_upper]
    exact ⟨fun hc => h.1 hc.symm, h.2⟩

/-- A form holds no underscore. -/
theorem underscore_not_mem_camelChars (name : List Char) : '_' ∉ camelChars name := by
  intro h
  obtain ⟨p, hp, hmem⟩ := List.mem_flatMap.mp h
  exact underscore_not_mem_capitalise (not_mem_of_mem_pieces hp) hmem

/-! ### Capitalised once and for all -/

theorem capitalise_append {a : List Char} (h : a ≠ []) (b : List Char) :
    capitalise (a ++ b) = capitalise a ++ b := by
  cases a with
  | nil => exact absurd rfl h
  | cons c cs => rw [List.cons_append, capitalise, capitalise, List.append_assoc]

/-- A capitalised text stays as it is. -/
theorem capitalise_capitalise (p : List Char) : capitalise (capitalise p) = capitalise p := by
  cases p with
  | nil => rfl
  | cons c cs =>
    obtain ⟨d, ds, hupper, hself⟩ := head_upper c
    rw [capitalise, hupper, List.cons_append, capitalise, hself, List.singleton_append]

theorem capitalise_eq_nil {p : List Char} : capitalise p = [] ↔ p = [] := by
  cases p with
  | nil => exact Iff.rfl
  | cons c cs =>
    obtain ⟨d, ds, hupper, -⟩ := head_upper c
    simp [capitalise, hupper]

/-- So does a sequence of capitalised pieces: the first one that is not empty begins in upper case. -/
theorem capitalise_flatMap : ∀ ps : List (List Char),
    capitalise (ps.flatMap capitalise) = ps.flatMap capitalise
  | [] => rfl
  | p :: ps => by
    rw [List.flatMap_cons]
    by_cases hp : p = []
    · rw [hp]
      exact capitalise_flatMap ps
    · have hne : capitalise p ≠ [] := fun h => hp (capitalise_eq_nil.mp h)
      rw [capitalise_append hne, capitalise_capitalise]

/-- A form is its own form. -/
theorem camelChars_camelChars (name : List Char) : camelChars (camelChars name) = camelChars name := by
  calc camelChars (camelChars name) = capitalise (camelChars name) :=
        camelChars_of_no_underscore (underscore_not_mem_camelChars name)
    _ = camelChars name := capitalise_flatMap (pieces '_' name)

/-! ### Names -/

theorem camelCase_append (a b : String) : camelCase (a ++ "_" ++ b) = camelCase a ++ camelCase b := by
  apply String.toList_inj.mp
  have hchars : (a ++ "_" ++ b).toList = a.toList ++ '_' :: b.toList := by simp
  rw [String.toList_append, toList_camelCase, toList_camelCase, toList_camelCase, hchars,
    camelChars_append]

theorem camelCase_empty : camelCase "" = "" := rfl

theorem camelCase_camelCase (name : String) : camelCase (camelCase name) = camelCase name := by
  apply String.toList_inj.mp
  rw [toList_camelCase, toList_camelCase, camelChars_camelChars]

/-- The spellings of a name: the name, the form of a spelling, and a spelling with an underscore more, in
front, at the end, or beside an underscore that it has. -/
inductive Spelling (name : String) : String → Prop
  | self : Spelling name name
  | form {s : String} : Spelling name s → Spelling name (camelCase s)
  | leading {s : String} : Spelling name s → Spelling name ("_" ++ s)
  | trailing {s : String} : Spelling name s → Spelling name (s ++ "_")
  | doubled {a b : String} : Spelling name (a ++ "_" ++ b) → Spelling name (a ++ "__" ++ b)

theorem camelCase_leading (s : String) : camelCase ("_" ++ s) = camelCase s := by
  have h := camelCase_append "" s
  rwa [camelCase_empty, String.empty_append, String.empty_append] at h

theorem camelCase_trailing (s : String) : camelCase (s ++ "_") = camelCase s := by
  have h := camelCase_append s ""
  rwa [camelCase_empty, String.append_empty, String.append_empty] at h

theorem camelCase_doubled (a b : String) : camelCase (a ++ "__" ++ b) = camelCase (a ++ "_" ++ b) := by
  have hsplit : a ++ "__" ++ b = a ++ "_" ++ "_" ++ b := by
    apply String.toList_inj.mp
    simp
  rw [hsplit, camelCase_append, camelCase_trailing, ← camelCase_append]

/-- All spellings have one form. -/
theorem Spelling.camelCase_eq {name s : String} (h : Spelling name s) : camelCase s = camelCase name := by
  induction h with
  | self => rfl
  | form _ ih => rw [camelCase_camelCase, ih]
  | leading _ ih => rw [camelCase_leading, ih]
  | trailing _ ih => rw [camelCase_trailing, ih]
  | doubled _ ih => rw [camelCase_doubled, ih]

theorem Spelling.accessorName_eq {name s : String} (h : Spelling name s) :
    accessorName s = accessorName name := by
  rw [accessorName, accessorName, h.camelCase_eq]

end Recipients
