/-
# A value comes back from its text

A value without fractional numbers is laid out so that the strict reader, which keeps the members of
every object as they stand, reads it as the value: the same items, and the same members in the same
order, at every level. The reader counts the containers around what it reads, so the value must not be
nested deeper than it allows. The proof follows the value; a container is the layout of its entries, and
the reader of its entries is the reader of values with one container less to go.

Hence the text tells values apart. With fractional numbers this would be a question of rounding; they are
left out.

Key definitions: `Json.WholeNumbers`, `Json.nesting`.
Key theorems: `Json.reads_readValue`, `Json.readOrdered_pretty`, `Json.pretty_injective`.
-/
import Recipients.Proofs.Json.NumberText

namespace Recipients.Json

/-! ### Values that are printed exactly -/

mutual

/-- Every number of the value is whole. -/
def WholeNumbers : Json → Prop
  | num (.float _) => False
  | arr items => WholeItems items
  | obj members => WholeMembers members
  | _ => True

/-- Every number of the items is whole. -/
def WholeItems : List Json → Prop
  | [] => True
  | v :: vs => WholeNumbers v ∧ WholeItems vs

/-- Every number of the members is whole. -/
def WholeMembers : List (String × Json) → Prop
  | [] => True
  | (_, v) :: ms => WholeNumbers v ∧ WholeMembers ms

end

mutual

/-- The number of containers that stand inside one another. -/
def nesting : Json → Nat
  | arr items => nestingItems items + 1
  | obj members => nestingMembers members + 1
  | _ => 0

/-- The deepest nesting of the items. -/
def nestingItems : List Json → Nat
  | [] => 0
  | v :: vs => max (nesting v) (nestingItems vs)

/-- The deepest nesting of the members. -/
def nestingMembers : List (String × Json) → Nat
  | [] => 0
  | (_, v) :: ms => max (nesting v) (nestingMembers ms)

end

@[simp] theorem nesting_str (s : String) : (str s).nesting = 0 := by
  rw [nesting]
  · exact fun _ => Json.noConfusion
  · exact fun _ => Json.noConfusion

/-! ### Scalars -/

/-- What a value's text begins with is no blank and closes no array. -/
def Opens (c : Char) : Prop :=
  isBlank c = false ∧ c ≠ ']'

theorem opens_of_isDigit {c : Char} (hc : c.isDigit = true) : Opens c := by
  have hcode : 48 ≤ c.toNat ∧ c.toNat ≤ 57 := Char.isDigit_iff_toNat.mp hc
  have hne : ∀ d : Char, d.toNat < 48 ∨ 57 < d.toNat → c ≠ d := by
    rintro d hd rfl
    omega
  refine ⟨?_, hne ']' (by decide)⟩
  simp only [isBlank, Bool.or_eq_false_iff, beq_eq_false_iff_ne]
  exact ⟨⟨⟨hne ' ' (by decide), hne '\t' (by decide)⟩, hne '\n' (by decide)⟩, hne '\r' (by decide)⟩

/-- The text of a whole number begins with a hyphen or a digit. -/
theorem wholeText_opens (value : Int) :
    ∃ c cs, Number.wholeText value = c :: cs ∧ (c = '-' ∨ c.isDigit = true) := by
  unfold Number.wholeText
  split
  · exact ⟨'-', _, rfl, .inl rfl⟩
  · obtain ⟨c, cs, hfirst⟩ :=
      List.exists_cons_of_ne_nil (Nat.toDigits_ne_nil (n := value.natAbs) (b := 10))
    exact ⟨c, cs, hfirst, .inr (isDigit_of_mem_toDigits (hfirst ▸ List.mem_cons_self))⟩

theorem opens_of_number {c : Char} (hc : c = '-' ∨ c.isDigit = true) : Opens c := by
  rcases hc with rfl | hc
  · exact ⟨by decide, by decide⟩
  · exact opens_of_isDigit hc

/-- A hyphen or a digit begins no word, no string and no container. -/
theorem ne_of_number {c d : Char} (hc : c = '-' ∨ c.isDigit = true)
    (hd : d ≠ '-' ∧ d.isDigit = false) : c ≠ d := by
  rintro rfl
  rcases hc with rfl | hc
  · exact hd.1 rfl
  · rw [hd.2] at hc
    cases hc

theorem prettyChars_opens {level : Nat} : ∀ {v : Json}, v.WholeNumbers →
    ∃ c cs, prettyChars level v = c :: cs ∧ Opens c
  | null, _ => ⟨'n', _, rfl, by decide, by decide⟩
  | bool true, _ => ⟨'t', _, rfl, by decide, by decide⟩
  | bool false, _ => ⟨'f', _, rfl, by decide, by decide⟩
  | num (.whole value _), _ => by
    obtain ⟨c, cs, hfirst, hc⟩ := wholeText_opens value
    exact ⟨c, cs, by rw [prettyChars]; exact hfirst, opens_of_number hc⟩
  | num (.float _), h => h.elim
  | str _, _ => ⟨'"', _, rfl, by decide, by decide⟩
  | arr [], _ => ⟨'[', _, rfl, by decide, by decide⟩
  | arr (_ :: _), _ => ⟨'[', _, rfl, by decide, by decide⟩
  | obj [], _ => ⟨'\x7b', _, rfl, by decide, by decide⟩
  | obj (_ :: _), _ => ⟨'\x7b', _, rfl, by decide, by decide⟩

/-- The reader of scalars takes the text of a whole number for the number. -/
theorem readScalar_wholeText (value : Int)
    (fits : -9223372036854775808 ≤ value ∧ value < 18446744073709551616) {rest : List Char}
    (hrest : Ended rest) :
    readScalar (Number.wholeText value ++ rest) = .ok (num (.whole value fits), rest) := by
  have hread := readNumber_wholeText value fits hrest
  obtain ⟨c, cs, hfirst, hc⟩ := wholeText_opens value
  rw [hfirst, List.cons_append] at hread ⊢
  have hnumber : c = '-' ∨ c.isDigit := hc
  rw [readScalar, if_neg (ne_of_number hc (by decide)), if_neg (ne_of_number hc (by decide)),
    if_neg (ne_of_number hc (by decide)), if_neg (ne_of_number hc (by decide)), if_pos hnumber, hread]
  rfl

/-- What begins with neither bracket is read as a scalar. -/
theorem readValue_of_scalar {c : Char} (hopens : Opens c) (harr : c ≠ '[') (hobj : c ≠ '\x7b')
    {blanks : List Char} (hblanks : ∀ b ∈ blanks, isBlank b = true) (cs : List Char) :
    ∀ depth, readValue depth (blanks ++ c :: cs) = readScalar (c :: cs) := by
  have hskip : skipBlank (blanks ++ c :: cs) = c :: cs := by
    rw [skipBlank_append hblanks, skipBlank_cons hopens.1]
  rintro (_ | depth)
  · rw [readValue, hskip]
  · rw [readValue, hskip]
    split
    · rename_i ds h
      exact absurd (List.cons.inj h).1 harr
    · rename_i ds h
      exact absurd (List.cons.inj h).1 hobj
    · rfl

/-- A scalar is read at any depth if the reader of scalars takes its text. -/
theorem reads_of_readScalar {text : List Char} {v : Json} {c : Char} {cs : List Char}
    (htext : text = c :: cs) (hopens : Opens c) (harr : c ≠ '[') (hobj : c ≠ '\x7b')
    (h : ∀ rest, Ended rest → readScalar (text ++ rest) = .ok (v, rest)) (depth : Nat) :
    Reads (readValue depth) text v := by
  intro blanks rest hblanks hended
  have hread := h rest hended
  subst htext
  rw [List.cons_append] at hread ⊢
  rw [readValue_of_scalar hopens harr hobj hblanks]
  exact hread

theorem reads_readValue_null (level depth : Nat) :
    Reads (readValue depth) (prettyChars level .null) .null :=
  reads_of_readScalar rfl ⟨by decide, by decide⟩ (by decide) (by decide) (fun _ _ => rfl) depth

theorem reads_readValue_bool (level depth : Nat) (b : Bool) :
    Reads (readValue depth) (prettyChars level (.bool b)) (.bool b) := by
  cases b with
  | true =>
    exact reads_of_readScalar rfl ⟨by decide, by decide⟩ (by decide) (by decide) (fun _ _ => rfl) depth
  | false =>
    exact reads_of_readScalar rfl ⟨by decide, by decide⟩ (by decide) (by decide) (fun _ _ => rfl) depth

theorem reads_readValue_whole (level depth : Nat) (value : Int)
    (fits : -9223372036854775808 ≤ value ∧ value < 18446744073709551616) :
    Reads (readValue depth) (prettyChars level (.num (.whole value fits))) (.num (.whole value fits)) := by
  obtain ⟨c, cs, hfirst, hc⟩ := wholeText_opens value
  have htext : prettyChars level (.num (.whole value fits)) = Number.wholeText value := by
    rw [prettyChars]
    rfl
  rw [htext]
  exact reads_of_readScalar hfirst (opens_of_number hc) (ne_of_number hc (by decide))
    (ne_of_number hc (by decide)) (fun _ => readScalar_wholeText value fits) depth

theorem reads_readValue_str (level depth : Nat) (s : String) :
    Reads (readValue depth) (prettyChars level (.str s)) (.str s) := by
  have hscalar : ∀ rest, Ended rest → readScalar (strText s ++ rest) = .ok (.str s, rest) := by
    intro rest _
    have hstring := readString_escaped s rest
    rw [strText, List.cons_append, List.append_assoc, List.singleton_append, readScalar]
    simp [hstring, Except.map]
  rw [prettyChars]
  exact reads_of_readScalar rfl ⟨by decide, by decide⟩ (by decide) (by decide) hscalar depth

/-! ### Containers -/

theorem prettyItems_eq (level : Nat) (vs : List Json) :
    prettyItems level vs = restChars level ']' (vs.map (prettyChars (level + 1))) := by
  induction vs with
  | nil => rw [prettyItems, List.map_nil, restChars]
  | cons v vs ih => rw [prettyItems, ih, List.map_cons, restChars]

theorem prettyChars_arr (level : Nat) (vs : List Json) :
    prettyChars level (.arr vs) = '[' :: bodyChars level ']' (vs.map (prettyChars (level + 1))) := by
  cases vs with
  | nil => rw [prettyChars, List.map_nil, bodyChars]
  | cons v vs => rw [prettyChars, prettyItems_eq, List.map_cons, bodyChars]

theorem wholeItems_iff (vs : List Json) : WholeItems vs ↔ ∀ v ∈ vs, v.WholeNumbers := by
  induction vs with
  | nil => simp [WholeItems]
  | cons v vs ih => simp [WholeItems, ih]

/-- The items of a written array are read if each of them is. -/
theorem reads_readValue_arr {level depth : Nat} {vs : List Json} (hwhole : WholeItems vs)
    (h : List.Forall₂ (Reads (readValue depth)) (vs.map (prettyChars (level + 1))) vs) :
    Reads (readValue (depth + 1)) (prettyChars level (.arr vs)) (.arr vs) := by
  intro blanks rest hblanks _
  have hopens : ∀ t ∈ vs.map (prettyChars (level + 1)), ∃ c cs, t = c :: cs ∧ Opens c := by
    intro t ht
    obtain ⟨v, hv, rfl⟩ := List.mem_map.mp ht
    exact prettyChars_opens ((wholeItems_iff vs).mp hwhole v hv)
  have hread : readList ']' (readValue depth)
      (bodyChars level ']' (vs.map (prettyChars (level + 1))) ++ rest) = .ok (vs, rest) :=
    (enters_collect h []).readSequence (by decide) (by decide) level rest hopens
  rw [prettyChars_arr, List.cons_append, readValue, skipBlank_append hblanks, skipBlank_cons (by decide)]
  simp only [hread]
  rfl

/-- The members of a written object are read if each of them is. -/
theorem reads_readValue_obj {level depth : Nat} {ms : List (String × Json)}
    (h : List.Forall₂ (Reads (readMember (readValue depth))) (ms.map (memberChars level)) ms) :
    Reads (readValue (depth + 1)) (prettyChars level (.obj ms)) (.obj ms) := by
  intro blanks rest hblanks _
  have hread := readList_bodyChars h rest
  rw [prettyChars_obj, List.cons_append, readValue, skipBlank_append hblanks, skipBlank_cons (by decide)]
  simp only [hread]
  rfl

mutual

/-- **The reader takes the text of a value for the value**, if it may go as deep. -/
theorem reads_readValue {level : Nat} : ∀ {v : Json} {depth : Nat}, v.WholeNumbers →
    v.nesting ≤ depth → Reads (readValue depth) (prettyChars level v) v
  | null, depth, _, _ => reads_readValue_null level depth
  | bool b, depth, _, _ => reads_readValue_bool level depth b
  | num (.whole value fits), depth, _, _ => reads_readValue_whole level depth value fits
  | num (.float _), _, h, _ => h.elim
  | str s, depth, _, _ => reads_readValue_str level depth s
  | arr vs, depth, hwhole, hdepth => by
    rw [WholeNumbers] at hwhole
    rw [nesting] at hdepth
    obtain ⟨depth, rfl⟩ : ∃ n, depth = n + 1 := ⟨depth - 1, by omega⟩
    exact reads_readValue_arr hwhole (reads_items hwhole (Nat.le_of_succ_le_succ hdepth))
  | obj ms, depth, hwhole, hdepth => by
    rw [WholeNumbers] at hwhole
    rw [nesting] at hdepth
    obtain ⟨depth, rfl⟩ : ∃ n, depth = n + 1 := ⟨depth - 1, by omega⟩
    exact reads_readValue_obj (reads_members hwhole (Nat.le_of_succ_le_succ hdepth))

theorem reads_items {level : Nat} : ∀ {vs : List Json} {depth : Nat}, WholeItems vs →
    nestingItems vs ≤ depth → List.Forall₂ (Reads (readValue depth)) (vs.map (prettyChars (level + 1))) vs
  | [], _, _, _ => .nil
  | v :: vs, depth, hwhole, hdepth => by
    rw [WholeItems] at hwhole
    rw [nestingItems] at hdepth
    exact .cons (reads_readValue hwhole.1 (by omega)) (reads_items hwhole.2 (by omega))

theorem reads_members {level : Nat} : ∀ {ms : List (String × Json)} {depth : Nat}, WholeMembers ms →
    nestingMembers ms ≤ depth →
      List.Forall₂ (Reads (readMember (readValue depth))) (ms.map (memberChars level)) ms
  | [], _, _, _ => .nil
  | (k, v) :: ms, depth, hwhole, hdepth => by
    rw [WholeMembers] at hwhole
    rw [nestingMembers] at hdepth
    have hv : v.nesting ≤ depth := by omega
    exact .cons (reads_readMember (reads_readValue hwhole.1 hv)) (reads_members hwhole.2 (by omega))

end

/-! ### Texts -/

/-- **A value is read back from its text**, with every member where it stood. -/
theorem readOrdered_pretty {v : Json} (hwhole : v.WholeNumbers) (hdepth : v.nesting ≤ maxDepth) :
    readOrdered v.pretty = .ok v :=
  (reads_readValue hwhole hdepth).readWhole

/-- Values that come back from one text are equal. -/
theorem pretty_injective {v w : Json} (hv : readOrdered v.pretty = .ok v) (hw : readOrdered w.pretty = .ok w)
    (h : v.pretty = w.pretty) : v = w := by
  rw [h, hw] at hv
  exact (Except.ok.inj hv).symm

end Recipients.Json
