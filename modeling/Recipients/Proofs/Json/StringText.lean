/-
# A string comes back from its text

Inside a string the writer escapes what the grammar does not let stand for itself: the quote, the
backslash and the controls. Every escape it writes is one that the reader takes back for the same
character, and a character that it leaves alone is one that the reader leaves alone. So the reader of a
string, put at the first character after the opening quote, stops right behind the closing one.

Key theorems: `Json.readStringFrom_escapeChar`, `Json.readStringFrom_escaped`, `Json.readString_escaped`.
-/
import Recipients.Json.Printer
import Recipients.Json.Reader

namespace Recipients.Json

theorem hexValue?_digitChar : ∀ d, d < 16 → hexValue? (Nat.digitChar d) = some d := by
  decide

/-- A character that does not close the string is a step of the reader. -/
theorem readStringFrom_cons {state : StringState} {c : Char} {cs : List Char}
    (h : c ≠ '"' ∨ state ≠ .plain) (next : StringState) (emitted : Option Char)
    (hstep : stringStep true c cs state = .ok (next, emitted)) :
    readStringFrom true state (c :: cs) =
      (readStringFrom true next cs).map fun r => (emitted.toList ++ r.1, r.2) := by
  rw [readStringFrom]
  · rw [hstep]
  · rintro rfl rfl
    simp at h

/-- A backslash and a letter are read as the character that they stand for. -/
theorem readStringFrom_letter {letter c : Char} (hu : letter ≠ 'u') (h : escaped? letter = some c)
    (rest : List Char) :
    readStringFrom true .plain ('\\' :: letter :: rest) =
      (readStringFrom true .plain rest).map fun r => (c :: r.1, r.2) := by
  have hfirst : stringStep true '\\' (letter :: rest) .plain = .ok (.escape, none) := by
    simp [stringStep]
  have hsecond : stringStep true letter rest .escape = .ok (.plain, some c) := by
    simp [stringStep, hu, h]
  rw [readStringFrom_cons (.inl (by decide)) .escape none hfirst,
    readStringFrom_cons (.inr (by simp)) .plain (some c) hsecond]
  cases readStringFrom true .plain rest <;> rfl

/-- Four characters have four bytes at least. -/
theorem lacksFourBytes_eq_false (a b c d : Char) (rest : List Char) :
    lacksFourBytes (a :: b :: c :: d :: rest) = false := by
  have ha := Char.utf8Size_pos a
  have hb := Char.utf8Size_pos b
  have hc := Char.utf8Size_pos c
  have hd := Char.utf8Size_pos d
  have hsum : ¬ 0 + a.utf8Size + b.utf8Size + c.utf8Size + d.utf8Size < 4 := by omega
  exact decide_eq_false hsum

/-- A control is read back from its hexadecimal digits. -/
theorem readStringFrom_control {c : Char} (h : c.toNat < 0x20) (rest : List Char) :
    readStringFrom true .plain ('\\' :: 'u' :: '0' :: '0' :: Nat.digitChar (c.toNat / 16) ::
        Nat.digitChar (c.toNat % 16) :: rest) =
      (readStringFrom true .plain rest).map fun r => (c :: r.1, r.2) := by
  have hhigh : hexValue? (Nat.digitChar (c.toNat / 16)) = some (c.toNat / 16) :=
    hexValue?_digitChar _ (by omega)
  have hlow : hexValue? (Nat.digitChar (c.toNat % 16)) = some (c.toNat % 16) :=
    hexValue?_digitChar _ (by omega)
  have hzero : hexValue? '0' = some 0 := by decide
  have hvalue : 16 * (16 * (16 * (16 * 0 + 0) + 0) + c.toNat / 16) + c.toNat % 16 = c.toNat := by omega
  have hback : afterHex c.toNat none = .ok (.plain, some c) := by
    unfold afterHex
    rw [if_neg (by omega), if_neg (by omega), Char.ofNat_toNat]
  rw [readStringFrom_cons (.inl (by decide)) .escape none (by simp [stringStep]),
    readStringFrom_cons (.inr (by simp)) (.hex 4 0 none) none
      (by simp [stringStep, lacksFourBytes_eq_false]),
    readStringFrom_cons (.inr (by simp)) (.hex 3 (16 * 0 + 0) none) none (by simp [stringStep, hzero]),
    readStringFrom_cons (.inr (by simp)) (.hex 2 (16 * (16 * 0 + 0) + 0) none) none
      (by simp [stringStep, hzero]),
    readStringFrom_cons (.inr (by simp)) (.hex 1 (16 * (16 * (16 * 0 + 0) + 0) + c.toNat / 16) none) none
      (by simp [stringStep, hhigh]),
    readStringFrom_cons (.inr (by simp)) .plain (some c)
      (by simp only [stringStep, hlow, hvalue, hback]; simp)]
  cases readStringFrom true .plain rest <;> rfl

/-- The reader takes the written form of a character for the character. -/
theorem readStringFrom_escapeChar (c : Char) (rest : List Char) :
    readStringFrom true .plain (escapeChar c ++ rest) =
      (readStringFrom true .plain rest).map fun r => (c :: r.1, r.2) := by
  unfold escapeChar
  -- seven characters have a letter of their own
  iterate 7
    split
    · subst_vars
      exact readStringFrom_letter (by decide) rfl rest
  split
  · rename_i hcontrol
    exact readStringFrom_control hcontrol rest
  · rename_i hquote hbackslash _ _ _ _ _ hplain
    have hstep : stringStep true c rest .plain = .ok (.plain, some c) := by
      simp [stringStep, hbackslash, hplain]
    exact readStringFrom_cons (.inl hquote) .plain (some c) hstep

/-- **Escaping loses nothing.** The characters of a string come back, and the reader stops behind the
quote that closes it. -/
theorem readStringFrom_escaped (rest : List Char) : ∀ cs : List Char,
    readStringFrom true .plain (cs.flatMap escapeChar ++ '"' :: rest) = .ok (cs, rest)
  | [] => by rw [List.flatMap_nil, List.nil_append, readStringFrom]
  | c :: cs => by
    rw [List.flatMap_cons, List.append_assoc, readStringFrom_escapeChar, readStringFrom_escaped rest cs]
    rfl

theorem readString_escaped (s : String) (rest : List Char) :
    readString (s.toList.flatMap escapeChar ++ '"' :: rest) = .ok (s, rest) := by
  have h : readString (s.toList.flatMap escapeChar ++ '"' :: rest) =
      .ok (String.ofList s.toList, rest) := by
    rw [readString, readStringFrom_escaped]
    rfl
  rw [h, String.ofList_toList]

end Recipients.Json
