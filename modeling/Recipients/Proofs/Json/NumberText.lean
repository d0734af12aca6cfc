/-
# A whole number comes back from its text

A whole number is written in decimal, with a hyphen in front if it is negative. The digits have no zero
in front, zero itself apart, so the reader takes them all: there is no point and no exponent behind them,
and 64 bits hold what they write, which is why no digit is dropped. The hyphen is read as a sign, and as
zero is written without one the number that comes out is whole again.

Key theorems: `Json.keepDigits_eq`, `Json.readUnsigned_toDigits`, `Json.Numeral.number?_toDigits`,
`Json.readNumber_wholeText`.
-/
import Recipients.Proofs.Json.Layout

namespace Recipients.Json

/-! ### What comes after a number -/

/-- Nothing, a comma or a new line comes after a written value. -/
theorem Ended.cases {rest : List Char} (h : Ended rest) :
    rest = [] ∨ (∃ cs, rest = ',' :: cs) ∨ ∃ cs, rest = '\n' :: cs := by
  cases rest with
  | nil => exact .inl rfl
  | cons c cs =>
    rcases h c rfl with rfl | rfl
    · exact .inr (.inl ⟨cs, rfl⟩)
    · exact .inr (.inr ⟨cs, rfl⟩)

theorem Ended.takeWhile_isDigit {rest : List Char} (h : Ended rest) :
    rest.takeWhile Char.isDigit = [] := by
  rcases h.cases with rfl | ⟨cs, rfl⟩ | ⟨cs, rfl⟩ <;> rfl

theorem Ended.dropWhile_isDigit {rest : List Char} (h : Ended rest) :
    rest.dropWhile Char.isDigit = rest := by
  rcases h.cases with rfl | ⟨cs, rfl⟩ | ⟨cs, rfl⟩ <;> rfl

theorem Ended.readFraction {rest : List Char} (h : Ended rest) :
    Json.readFraction rest = .ok (none, rest) := by
  rcases h.cases with rfl | ⟨cs, rfl⟩ | ⟨cs, rfl⟩ <;> rfl

theorem Ended.readExponent {rest : List Char} (h : Ended rest) :
    Json.readExponent rest = .ok (none, rest) := by
  rcases h.cases with rfl | ⟨cs, rfl⟩ | ⟨cs, rfl⟩ <;> rfl

/-! ### Digits -/

theorem isDigit_of_mem_toDigits {c : Char} {n : Nat} (h : c ∈ Nat.toDigits 10 n) : c.isDigit = true :=
  Nat.isDigit_of_mem_toDigits (by decide) (by decide) h

/-- A positive number has no zero in front. -/
theorem ne_zero_of_toDigits {n : Nat} : ∀ {c : Char} {cs : List Char}, 0 < n →
    Nat.toDigits 10 n = c :: cs → c ≠ '0' := by
  induction n using Nat.strongRecOn with
  | ind n ih =>
    intro c cs hn hdigits
    by_cases hsmall : n < 10
    · have hone : Nat.toDigits 10 n = [Nat.digitChar n] := Nat.toDigits_of_lt_base hsmall
      have hfirst : c = Nat.digitChar n := by
        rw [hone] at hdigits
        exact (List.cons.inj hdigits).1.symm
      have hnonzero : ∀ d, d < 10 → 0 < d → Nat.digitChar d ≠ '0' := by decide
      rw [hfirst]
      exact hnonzero n hsmall hn
    · -- the first digit is that of the number without its last one
      have hbase : 10 ≤ n := Nat.le_of_not_lt hsmall
      have hsplit := Nat.toDigits_of_base_le (b := 10) (by decide) hbase
      obtain ⟨d, ds, hfront⟩ := List.exists_cons_of_ne_nil (Nat.toDigits_ne_nil (n := n / 10) (b := 10))
      have hfirst : c = d := by
        rw [hsplit, hfront, List.cons_append] at hdigits
        exact (List.cons.inj hdigits).1.symm
      rw [hfirst]
      exact ih (n / 10) (by omega) (by omega) hfront

/-- Reading on does not make a number smaller. -/
theorem le_ofDigitChars : ∀ (cs : List Char) (n : Nat), n ≤ Nat.ofDigitChars 10 cs n
  | [], n => Nat.le_of_eq Nat.ofDigitChars_nil.symm
  | c :: cs, n => by
    have hle := le_ofDigitChars cs (10 * n + (c.toNat - '0'.toNat))
    rw [Nat.ofDigitChars_cons]
    omega

/-- A digit is kept while 64 bits hold the number. -/
theorem keepDigits_cons (n : Nat) (c : Char) (cs : List Char) :
    keepDigits n (c :: cs) =
      if 10 * n + (c.toNat - 48) < 18446744073709551616 then keepDigits (10 * n + (c.toNat - 48)) cs
      else (n, c :: cs) :=
  rfl

/-- All digits are kept if 64 bits hold what they write. -/
theorem keepDigits_eq {cs : List Char} {n : Nat} (h : Nat.ofDigitChars 10 cs n < 18446744073709551616) :
    keepDigits n cs = (Nat.ofDigitChars 10 cs n, []) := by
  induction cs generalizing n with
  | nil =>
    rw [Nat.ofDigitChars_nil]
    rfl
  | cons c cs ih =>
    rw [Nat.ofDigitChars_cons] at h ⊢
    have hlonger : 10 * n + (c.toNat - 48) < 18446744073709551616 :=
      Nat.lt_of_le_of_lt (le_ofDigitChars cs (10 * n + (c.toNat - '0'.toNat))) h
    rw [keepDigits_cons, if_pos hlonger]
    exact ih h

/-- Digits are read up to what comes after the number. -/
theorem readDigits_append {ds rest : List Char} (hne : ds ≠ []) (hds : ∀ c ∈ ds, c.isDigit = true)
    (hrest : Ended rest) : readDigits (ds ++ rest) = .ok (ds, rest) := by
  obtain ⟨c, cs, rfl⟩ := List.exists_cons_of_ne_nil hne
  have htake : (c :: cs ++ rest).takeWhile Char.isDigit = c :: cs := by
    rw [List.takeWhile_append_of_pos hds, hrest.takeWhile_isDigit, List.append_nil]
  have hdrop : (c :: cs ++ rest).dropWhile Char.isDigit = rest := by
    rw [List.dropWhile_append_of_pos hds, hrest.dropWhile_isDigit]
  rw [List.cons_append] at htake hdrop ⊢
  rw [readDigits, if_pos (hds c List.mem_cons_self), htake, hdrop]

/-- So are the digits of a number before the point, zero being the one that begins with a zero. -/
theorem readWholePart_toDigits (n : Nat) {rest : List Char} (hrest : Ended rest) :
    readWholePart (Nat.toDigits 10 n ++ rest) = .ok (Nat.toDigits 10 n, rest) := by
  have hdigits : readDigits (Nat.toDigits 10 n ++ rest) = .ok (Nat.toDigits 10 n, rest) :=
    readDigits_append Nat.toDigits_ne_nil (fun _ => isDigit_of_mem_toDigits) hrest
  rcases Nat.eq_zero_or_pos n with rfl | hn
  · rcases hrest.cases with rfl | ⟨cs, rfl⟩ | ⟨cs, rfl⟩ <;> rfl
  · obtain ⟨c, cs, hfirst⟩ := List.exists_cons_of_ne_nil (Nat.toDigits_ne_nil (n := n) (b := 10))
    have hc : c ≠ '0' := ne_zero_of_toDigits hn hfirst
    rw [hfirst, List.cons_append] at hdigits ⊢
    rw [readWholePart]
    · exact hdigits
    · intro d ds h
      exact hc (List.cons.inj h).1

/-! ### Numbers -/

/-- The numeral of a number has its digits, and neither a fraction nor an exponent. -/
theorem readUnsigned_toDigits (negative : Bool) (n : Nat) {rest : List Char} (hrest : Ended rest) :
    readUnsigned negative (Nat.toDigits 10 n ++ rest) =
      .ok (⟨negative, Nat.toDigits 10 n, none, none⟩, rest) := by
  rw [readUnsigned, readWholePart_toDigits n hrest]
  simp only [bind, Except.bind, hrest.readFraction, hrest.readExponent]
  rfl

/-- The numeral stands for a whole number, with its sign, if there is no sign before a zero. -/
theorem Numeral.number?_toDigits {negative : Bool} {n : Nat} (hn : n < 18446744073709551616)
    (hzero : (negative && n == 0) = false) {value : Int}
    (hvalue : (if negative then -(n : Int) else n) = value)
    (fits : -9223372036854775808 ≤ value ∧ value < 18446744073709551616) :
    Numeral.number? ⟨negative, Nat.toDigits 10 n, none, none⟩ = some (.whole value fits) := by
  have hdigits : Nat.ofDigitChars 10 (Nat.toDigits 10 n) 0 = n :=
    Nat.ofDigitChars_toDigits (by decide) (by decide)
  have hkeep : keepDigits 0 (Nat.toDigits 10 n) = (n, []) := by
    have hfits : Nat.ofDigitChars 10 (Nat.toDigits 10 n) 0 < 18446744073709551616 := by rwa [hdigits]
    rw [keepDigits_eq hfits, hdigits]
  have hint : Number.ofInt? value = some (.whole value fits) := by
    rw [Number.ofInt?, dif_pos fits]
  unfold Numeral.number?
  simp only [hkeep, Option.isSome_none, List.isEmpty_nil, Bool.not_true, Bool.or_self, hzero,
    Bool.false_eq_true, if_false, hvalue, hint, Option.some_or]

/-- A digit is no hyphen. -/
theorem readNumeral_of_isDigit {c : Char} (hc : c.isDigit = true) (cs : List Char) :
    readNumeral (c :: cs) = readUnsigned false (c :: cs) := by
  rw [readNumeral]
  intro ds h
  rw [(List.cons.inj h).1] at hc
  exact absurd hc (by decide)

/-- **A whole number is read back.** -/
theorem readNumber_wholeText (value : Int)
    (fits : -9223372036854775808 ≤ value ∧ value < 18446744073709551616) {rest : List Char}
    (hrest : Ended rest) :
    readNumber (Number.wholeText value ++ rest) = .ok (.whole value fits, rest) := by
  unfold Number.wholeText
  split
  · -- below zero, behind a hyphen
    rename_i hneg
    have hnumber : Numeral.number? ⟨true, Nat.toDigits 10 value.natAbs, none, none⟩ =
        some (.whole value fits) := by
      refine Numeral.number?_toDigits (by omega) ?_ (by simp only [if_true]; omega) fits
      simp only [Bool.true_and, beq_eq_false_iff_ne]
      omega
    rw [List.cons_append, readNumber, readNumeral, readUnsigned_toDigits true _ hrest]
    simp only [bind, Except.bind, hnumber]
    rfl
  · rename_i hneg
    have hnumber : Numeral.number? ⟨false, Nat.toDigits 10 value.natAbs, none, none⟩ =
        some (.whole value fits) := by
      refine Numeral.number?_toDigits (by omega) (by rw [Bool.false_and]) ?_ fits
      simp only [Bool.false_eq_true, if_false]
      omega
    have hnumeral : readNumeral (Nat.toDigits 10 value.natAbs ++ rest) =
        readUnsigned false (Nat.toDigits 10 value.natAbs ++ rest) := by
      obtain ⟨c, cs, hfirst⟩ :=
        List.exists_cons_of_ne_nil (Nat.toDigits_ne_nil (n := value.natAbs) (b := 10))
      have hc : c ∈ Nat.toDigits 10 value.natAbs := hfirst ▸ List.mem_cons_self
      rw [hfirst, List.cons_append]
      exact readNumeral_of_isDigit (isDigit_of_mem_toDigits hc) _
    rw [readNumber, hnumeral, readUnsigned_toDigits false _ hrest]
    simp only [bind, Except.bind, hnumber]
    rfl

end Recipients.Json
