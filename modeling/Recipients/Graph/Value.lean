/-
# Concrete values and their text

A deferred value is loaded until it is concrete, through at most eight loads; a load that finds nothing,
and a value still deferred after the eighth, count as absent. So a value that has been followed is never
deferred, whatever loops the graph holds.

A value has a text form unless it is falsy: null, false, zero, the empty text and the text "0" have
none, nor do arrays, JSON objects, deferred values, and objects without a text of their own.

Key definitions: `follow`, `maxLoads`, `Graph.dereference`, `truthyText`, `Graph.textOf`.
Key theorems: `follow_of_next_eq_none`, `follow_zero`, `follow_succ_of_absent`, `follow_succ_of_load`.
-/
import Recipients.Graph.Basic

namespace Recipients

/-- Goes from `a` to what it stands for, at most `bound` times, until it stands for itself. `next`
answers nothing for a value that stands for itself, and what a load finds for any other. The second
component counts the loads. -/
def follow {α : Type} (next : α → Option (Option α)) : Nat → α → Option α × Nat
  | 0, a =>
    match next a with
    | none => (some a, 0)
    | some _ => (none, 0)
  | bound + 1, a =>
    match next a with
    | none => (some a, 0)
    | some none => (none, 1)
    | some (some b) =>
      let r := follow next bound b
      (r.1, r.2 + 1)

section Follow

variable {α : Type} {next : α → Option (Option α)} {a b : α}

/-- A value that stands for itself is the end. -/
theorem follow_of_next_eq_none (h : next a = none) (bound : Nat) :
    follow next bound a = (some a, 0) := by
  cases bound <;> simp [follow, h]

/-- At the bound what is still to be loaded is given up. -/
theorem follow_zero (h : next a ≠ none) : follow next 0 a = (none, 0) := by
  unfold follow
  split
  · rename_i hnone
    exact absurd hnone h
  · rfl

/-- A load in vain is the end, and it counts. -/
theorem follow_succ_of_absent (h : next a = some none) (bound : Nat) :
    follow next (bound + 1) a = (none, 1) := by
  simp [follow, h]

/-- A load that finds a value is followed by the way from there. -/
theorem follow_succ_of_load (h : next a = some (some b)) (bound : Nat) :
    follow next (bound + 1) a = ((follow next bound b).1, (follow next bound b).2 + 1) := by
  simp [follow, h]

end Follow

/-- The number of loads after which a deferred value is given up. -/
def maxLoads : Nat := 8

/-- The text, unless it is falsy. -/
def truthyText (s : String) : Option String :=
  if s = "" ∨ s = "0" then none else some s

namespace Graph

/-- What a value stands for: a deferred one for what its load finds, any other for itself. -/
def next (g : Graph) : FieldValue → Option (Option FieldValue)
  | .deferred ref => some (g.load ref)
  | _ => none

/-- The concrete value that a value stands for. -/
def dereference (g : Graph) (v : FieldValue) : Option FieldValue :=
  (follow g.next maxLoads v).1

/-- The text form of a value. -/
def textOf (g : Graph) : FieldValue → Option String
  | .scalar (.str s) => truthyText s
  | .scalar (.bool true) => some "true"
  | .scalar (.num n) => if n.isZero then none else some (String.ofList n.text)
  | .object ref => (g.text? ref).bind truthyText
  | _ => none

end Graph

end Recipients
