/-
# A text form is never falsy

The empty text and the text "0" are the two falsy texts, and neither is the text form of any value.
Texts are tested for it; the text of a number need not be, because only zero is written "0": a whole
number has the digits of its size, and a floating-point number has a point or an exponent.

Key definitions: `Truthy`.
Key theorems: `truthyText_eq`, `Number.truthy_text`, `Graph.truthy_of_textOf`.
-/
import Recipients.Graph.Value

namespace Recipients

/-- The text is neither empty nor "0". -/
def Truthy (s : String) : Prop :=
  s ≠ "" ∧ s ≠ "0"

instance (s : String) : Decidable (Truthy s) :=
  inferInstanceAs (Decidable (s ≠ "" ∧ s ≠ "0"))

/-- Texts that are not truthy have no text form. -/
theorem truthyText_eq (s : String) : truthyText s = if Truthy s then some s else none := by
  unfold truthyText Truthy
  by_cases hempty : s = ""
  · simp [hempty]
  · by_cases hzero : s = "0"
    · simp [hzero]
    · simp [hempty, hzero]

theorem truthy_of_truthyText {s t : String} (h : truthyText s = some t) : Truthy t := by
  rw [truthyText_eq] at h
  by_cases hs : Truthy s
  · rw [if_pos hs, Option.some.injEq] at h
    exact h ▸ hs
  · simp [hs] at h

/-- A text with a character other than the digit zero is truthy. -/
theorem truthy_ofList {cs : List Char} {c : Char} (hc : c ∈ cs) (h0 : c ≠ '0') :
    Truthy (String.ofList cs) := by
  refine ⟨fun h => ?_, fun h => ?_⟩
  · have hcs : cs = [] := by simpa using congrArg String.toList h
    simp [hcs] at hc
  · have hcs : cs = ['0'] := by simpa using congrArg String.toList h
    exact h0 (by simpa [hcs] using hc)

namespace Binary64

/-- A decimal is written with a point or with an exponent. -/
theorem mark_mem_layout (digits : List Char) (first : Int) :
    '.' ∈ layout digits first ∨ 'e' ∈ layout digits first := by
  unfold layout
  split
  · left
    split <;> simp
  · right
    simp

theorem mark_mem_text (x : Binary64) : '.' ∈ x.text ∨ 'e' ∈ x.text := by
  have hsign : ∀ body : List Char, '.' ∈ body ∨ 'e' ∈ body →
      '.' ∈ (if x.negative then '-' :: body else body) ∨
        'e' ∈ (if x.negative then '-' :: body else body) := by
    intro body h
    split
    · exact h.imp (List.mem_cons_of_mem _) (List.mem_cons_of_mem _)
    · exact h
  refine hsign _ ?_
  split
  · simp
  · exact mark_mem_layout _ _

end Binary64

namespace Number

/-- Only zero has the digits "0". -/
theorem truthy_wholeText {value : Int} (h : value ≠ 0) : Truthy (String.ofList (wholeText value)) := by
  unfold wholeText
  split
  · exact truthy_ofList (c := '-') List.mem_cons_self (by decide)
  · refine ⟨by simp, fun h0 => h ?_⟩
    have hdigits : Nat.toDigits 10 value.natAbs = ['0'] := by simpa using congrArg String.toList h0
    have hread := Nat.ofDigitChars_toDigits (b := 10) (n := value.natAbs) (by decide) (by decide)
    rw [hdigits] at hread
    have hzero : Nat.ofDigitChars 10 ['0'] 0 = 0 := rfl
    omega

/-- Every number but zero has a truthy text. -/
theorem truthy_text {n : Number} (h : n.isZero = false) : Truthy (String.ofList n.text) := by
  cases n with
  | whole value fits => exact truthy_wholeText (by simpa [isZero] using h)
  | float x =>
    rcases x.mark_mem_text with hm | hm
    · exact truthy_ofList hm (by decide)
    · exact truthy_ofList hm (by decide)

end Number

/-- **A text form is truthy.** -/
theorem Graph.truthy_of_textOf {g : Graph} {v : FieldValue} {s : String} (h : g.textOf v = some s) :
    Truthy s := by
  unfold textOf at h
  split at h
  · exact truthy_of_truthyText h
  · cases h
    exact ⟨by decide, by decide⟩
  · rename_i n
    cases hz : n.isZero with
    | true => simp [hz] at h
    | false =>
      simp only [hz, Bool.false_eq_true, if_false, Option.some.injEq] at h
      exact h ▸ Number.truthy_text hz
  · rename_i ref
    cases ht : g.text? ref with
    | none => simp [ht] at h
    | some t =>
      rw [ht, Option.bind_some] at h
      exact truthy_of_truthyText h
  · cases h

end Recipients
