/-
# Pointers as they are written

A pointer is empty, or it is a slash, a token without slashes, and a pointer to be read further down. The
name that a token stands for leads to the member of that name, or to the item whose number is written so.
A pointer is read here by cutting it at its slashes; this comes to the same.

A token is written by two replacements, of the tildes and then of the slashes, and read by two others in
the opposite order. This order matters: a key may hold a tilde in front of a digit, which must not be
taken for a written tilde or slash. The replacements come to one pass over the characters each way, which
is how tokens are written and read here. A reference is told by its shape, and its pointer is the text
after the number sign that may stand in front.

Key definitions: `Text.replaceChar`, `Text.replacePair`, `writtenToken`, `tokenName`, `Json.Below`,
`Json.PointsTo`, `Json.Targets`.
Key theorems: `escapeKey_eq_replaceChar`, `unescapeToken_eq_replacePair`, `replacePair_writtenToken`,
`arrayIndex?_eq_some_iff`, `Json.child?_eq_some_iff`, `Json.at?_eq_some_iff`,
`Json.reference?_eq_some_iff`.
-/
import Recipients.Proofs.Document.Pointers
import Recipients.Proofs.Json.NumberText

namespace Recipients

/-! ### Tokens by replacements -/

namespace Text

/-- Other characters in the place of one, wherever it stands. -/
def replaceChar (c : Char) (written : List Char) (cs : List Char) : List Char :=
  cs.flatMap fun x => if x = c then written else [x]

/-- One character in the place of two that stand side by side, from the left. -/
def replacePair (a b c : Char) : List Char → List Char
  | x :: y :: cs => if x = a ∧ y = b then c :: replacePair a b c cs else x :: replacePair a b c (y :: cs)
  | cs => cs

variable {a b c x : Char} {cs : List Char}

/-- A character that begins no pair stays. -/
theorem replacePair_cons (h : x = a → cs.head? ≠ some b) :
    replacePair a b c (x :: cs) = x :: replacePair a b c cs := by
  cases cs with
  | nil => rfl
  | cons y cs =>
    have hpair : ¬ (x = a ∧ y = b) := fun ⟨hx, hy⟩ => h hx (by rw [hy, List.head?_cons])
    rw [replacePair, if_neg hpair]

theorem replacePair_pair : replacePair a b c (a :: b :: cs) = c :: replacePair a b c cs := by
  rw [replacePair, if_pos ⟨rfl, rfl⟩]

/-- The first character stays, or it is the one that is put in. -/
theorem head?_replacePair : (replacePair a b c cs).head? = cs.head? ∨
    (replacePair a b c cs).head? = some c := by
  unfold replacePair
  split
  · split
    · exact .inr rfl
    · exact .inl rfl
  · exact .inl rfl

end Text

open Text

/-- The token of a key, written by two replacements. -/
def writtenToken (key : String) : String :=
  String.ofList (replaceChar '/' ['~', '1'] (replaceChar '~' ['~', '0'] key.toList))

/-- One pass writes what the two replacements write. -/
theorem escapeKey_eq_replaceChar (key : List Char) :
    escapeKey key = replaceChar '/' ['~', '1'] (replaceChar '~' ['~', '0'] key) := by
  induction key with
  | nil => rfl
  | cons c cs ih =>
    have hcons : escapeKey (c :: cs) = escapeKeyChar c ++ escapeKey cs := List.flatMap_cons
    have hwritten : replaceChar '/' ['~', '1'] (if c = '~' then ['~', '0'] else [c]) =
        escapeKeyChar c := by
      unfold escapeKeyChar
      by_cases htilde : c = '~'
      · rw [if_pos htilde, if_pos htilde]
        rfl
      · rw [if_neg htilde, if_neg htilde]
        exact List.flatMap_singleton _ c
    calc escapeKey (c :: cs)
        = escapeKeyChar c ++ escapeKey cs := hcons
      _ = replaceChar '/' ['~', '1'] (if c = '~' then ['~', '0'] else [c]) ++
            replaceChar '/' ['~', '1'] (replaceChar '~' ['~', '0'] cs) := by rw [hwritten, ih]
      _ = replaceChar '/' ['~', '1'] (replaceChar '~' ['~', '0'] (c :: cs)) :=
          List.flatMap_append.symm

/-- One pass reads what two replacements read, of `~1` first and of `~0` after that. -/
theorem unescapeToken_eq_replacePair (token : List Char) :
    unescapeToken token = replacePair '~' '0' '~' (replacePair '~' '1' '/' token) := by
  fun_induction unescapeToken token with
  | case1 cs ih =>
    have hslash : '/' = '~' → (replacePair '~' '1' '/' cs).head? ≠ some '0' := by
      intro h
      cases h
    rw [replacePair_pair, replacePair_cons hslash, ih]
  | case2 cs ih =>
    -- the first replacement leaves the pair for the second
    have hfirst : '~' = '~' → ('0' :: cs).head? ≠ some '1' := by simp
    have hzero : '0' = '~' → cs.head? ≠ some '1' := by
      intro h
      cases h
    rw [replacePair_cons hfirst, replacePair_cons hzero, replacePair_pair, ih]
  | case3 c cs hone hzero ih =>
    have hnoOne : c = '~' → cs.head? ≠ some '1' := by
      rintro rfl h
      obtain ⟨rest, rfl⟩ := List.head?_eq_some_iff.mp h
      exact hone rest rfl rfl
    have hnoZero : c = '~' → (replacePair '~' '1' '/' cs).head? ≠ some '0' := by
      rintro rfl h
      rcases head?_replacePair with hkept | hput
      · obtain ⟨rest, rfl⟩ := List.head?_eq_some_iff.mp (hkept.symm.trans h)
        exact hzero rest rfl rfl
      · rw [hput] at h
        cases h
    rw [replacePair_cons hnoOne, replacePair_cons hnoZero, ih]
  | case4 => rfl

/-- What is written by two replacements is read by two. -/
theorem replacePair_writtenToken (key : String) :
    replacePair '~' '0' '~' (replacePair '~' '1' '/' (writtenToken key).toList) = key.toList := by
  rw [writtenToken, String.toList_ofList, ← escapeKey_eq_replaceChar, ← unescapeToken_eq_replacePair,
    unescapeToken_escapeKey]

theorem childPointer_eq (pointer key : String) :
    childPointer pointer key = pointer ++ "/" ++ writtenToken key := by
  rw [childPointer, escapeKey_eq_replaceChar, writtenToken]

/-- Different keys have different pointers below one place. -/
theorem eq_of_pointer_eq {pointer key key' : String}
    (h : pointer ++ "/" ++ writtenToken key = pointer ++ "/" ++ writtenToken key') : key = key' := by
  have htoken : (writtenToken key).toList = (writtenToken key').toList := by
    have hchars := congrArg String.toList h
    simp only [String.toList_append] at hchars
    exact List.append_cancel_left hchars
  have hkey : key.toList = key'.toList := by
    rw [← replacePair_writtenToken key, htoken, replacePair_writtenToken]
  exact String.toList_inj.mp hkey

/-! ### Names and steps -/

/-- The name that a token stands for: every `~1` gives a slash, and after that every `~0` a tilde. -/
def tokenName (token : String) : String :=
  String.ofList (replacePair '~' '0' '~' (replacePair '~' '1' '/' token.toList))

theorem tokenName_eq (token : String) : tokenName token = String.ofList (unescapeToken token.toList) := by
  rw [tokenName, unescapeToken_eq_replacePair]

/-- The code points of the digits. -/
theorem toNat_of_isDigit {c : Char} (hc : c.isDigit) : 48 ≤ c.toNat ∧ c.toNat ≤ 57 :=
  Char.isDigit_iff_toNat.mp hc

theorem digitChar_of_isDigit {c : Char} (hc : c.isDigit) : Nat.digitChar (c.toNat - 48) = c := by
  have hcode := toNat_of_isDigit hc
  apply Char.toNat_inj.mp
  rw [Nat.toNat_digitChar_of_lt_ten (by omega)]
  omega

/-- Digits that are read behind a positive number are the last digits of what comes out. -/
theorem toDigits_ofDigitChars : ∀ {cs : List Char} {n : Nat}, 0 < n → (∀ c ∈ cs, c.isDigit) →
    Nat.toDigits 10 (Nat.ofDigitChars 10 cs n) = Nat.toDigits 10 n ++ cs
  | [], n, _, _ => by simp [Nat.ofDigitChars_nil]
  | c :: cs, n, hn, hcs => by
    have hc : c.isDigit := hcs c List.mem_cons_self
    have hdigit : c.toNat - 48 < 10 := by
      have hcode := toNat_of_isDigit hc
      omega
    have hlast : Nat.toDigits 10 (c.toNat - 48) = [c] := by
      rw [Nat.toDigits_of_lt_base hdigit, digitChar_of_isDigit hc]
    have hmore : 0 < 10 * n + (c.toNat - 48) := by omega
    calc Nat.toDigits 10 (Nat.ofDigitChars 10 (c :: cs) n)
        = Nat.toDigits 10 (Nat.ofDigitChars 10 cs (10 * n + (c.toNat - 48))) := by
          rw [Nat.ofDigitChars_cons]
          rfl
      _ = Nat.toDigits 10 (10 * n + (c.toNat - 48)) ++ cs :=
          toDigits_ofDigitChars hmore fun d hd => hcs d (List.mem_cons_of_mem _ hd)
      _ = (Nat.toDigits 10 n ++ [c]) ++ cs := by
          rw [← Nat.toDigits_append_toDigits (by decide) hn hdigit, hlast]
      _ = Nat.toDigits 10 n ++ c :: cs := by simp

/-- A token names an index only if it is how the index is written. -/
theorem toDigits_of_arrayIndex? {token : List Char} {i : Nat} (h : arrayIndex? token = some i) :
    Nat.toDigits 10 i = token := by
  unfold arrayIndex? at h
  split at h
  · cases h
  · cases h
  · rename_i hne hzero
    split at h
    · rename_i hall
      cases h
      cases token with
      | nil => exact absurd rfl hne
      | cons c cs =>
        obtain ⟨hc, hcs⟩ := List.forall_mem_cons.mp (List.all_eq_true.mp hall)
        have hcode := toNat_of_isDigit hc
        have hfirst : Nat.ofDigitChars 10 (c :: cs) 0 = Nat.ofDigitChars 10 cs (c.toNat - 48) := by
          rw [Nat.ofDigitChars_cons, Nat.mul_zero, Nat.zero_add]
          rfl
        have hdigit : Nat.toDigits 10 (c.toNat - 48) = [c] := by
          rw [Nat.toDigits_of_lt_base (by omega), digitChar_of_isDigit hc]
        by_cases hpositive : 0 < c.toNat - 48
        · rw [hfirst, toDigits_ofDigitChars hpositive hcs, hdigit, List.singleton_append]
        · -- the first digit is a zero, which stands alone
          have hc0 : c = '0' := Char.toNat_inj.mp (show c.toNat = 48 by omega)
          cases cs with
          | nil => rw [hfirst, Nat.ofDigitChars_nil, hdigit]
          | cons d ds => exact absurd (hc0 ▸ rfl) (hzero d ds)
    · cases h

/-- A number is an index as it is written. -/
theorem arrayIndex?_toDigits (i : Nat) : arrayIndex? (Nat.toDigits 10 i) = some i := by
  have hdigits : (Nat.toDigits 10 i).all Char.isDigit = true :=
    List.all_eq_true.mpr fun _ => Json.isDigit_of_mem_toDigits
  have hback : Nat.ofDigitChars 10 (Nat.toDigits 10 i) 0 = i :=
    Nat.ofDigitChars_toDigits (by decide) (by decide)
  unfold arrayIndex?
  split
  · rename_i hnil
    exact absurd hnil Nat.toDigits_ne_nil
  · rename_i c cs hzero
    -- only the number zero begins with a zero, and it has no digit more
    rcases Nat.eq_zero_or_pos i with rfl | hi
    · cases hzero
    · exact absurd rfl (Json.ne_zero_of_toDigits hi hzero)
  · rw [if_pos hdigits, hback]

theorem arrayIndex?_eq_some_iff {token : List Char} {i : Nat} :
    arrayIndex? token = some i ↔ token = Nat.toDigits 10 i := by
  constructor
  · intro h
    exact (toDigits_of_arrayIndex? h).symm
  · rintro rfl
    exact arrayIndex?_toDigits i

namespace Json

/-- The value right below another under a name: the member of that name, or the item whose number is
written so. -/
inductive Below : Json → String → Json → Prop
  | member {ms : List (String × Json)} {name : String} {v : Json} : ms.lookup name = some v →
    Below (.obj ms) name v
  | item {vs : List Json} {i : Nat} {v : Json} : vs[i]? = some v → Below (.arr vs) (toString i) v

theorem child?_eq_some_iff {v w : Json} {name : String} : v.child? name = some w ↔ v.Below name w := by
  constructor
  · intro h
    cases v with
    | obj ms => exact .member h
    | arr vs =>
      obtain ⟨i, hi, hw⟩ := Option.bind_eq_some_iff.mp h
      have hname : name = toString i :=
        String.toList_inj.mp ((arrayIndex?_eq_some_iff.mp hi).trans String.toList_ofList.symm)
      rw [hname]
      exact .item hw
    | null => cases h
    | bool _ => cases h
    | num _ => cases h
    | str _ => cases h
  · intro h
    cases h with
    | member h => exact h
    | @item vs i w h =>
      have hi : arrayIndex? (toString i).toList = some i :=
        arrayIndex?_eq_some_iff.mpr String.toList_ofList
      rw [child?, hi, Option.bind_some, h]

/-! ### Pointers -/

/-- A pointer leads from a value to another: the empty one to the value itself, any other one step down
by its first token and on from there. -/
inductive PointsTo : Json → String → Json → Prop
  | here {v : Json} : PointsTo v "" v
  | down {v u w : Json} {token rest : String} : '/' ∉ token.toList → v.Below (tokenName token) u →
    PointsTo u rest w → PointsTo v ("/" ++ token ++ rest) w

/-- The first token of a pointer gives the first name. -/
theorem pointerTokens?_down {token rest : String} {names : List String} (htoken : '/' ∉ token.toList)
    (h : pointerTokens? rest = some names) :
    pointerTokens? ("/" ++ token ++ rest) = some (tokenName token :: names) := by
  have hone : pieces '/' token.toList = [token.toList] := pieces_of_not_mem htoken
  have hchars : ("/" ++ token ++ rest).toList = '/' :: (token.toList ++ rest.toList) := by simp
  unfold pointerTokens? at h ⊢
  rw [hchars, tokenName_eq]
  split at h
  · rename_i hrest
    cases h
    simp [hrest, hone]
  · rename_i cs hrest
    cases h
    simp [hrest, pieces_append_sep, hone]
  · cases h

theorem PointsTo.at?_eq {v w : Json} {pointer : String} (h : v.PointsTo pointer w) :
    v.at? pointer = some w := by
  induction h with
  | here => rfl
  | @down v u w token rest htoken hbelow _ ih =>
    obtain ⟨names, hnames, hwalk⟩ := Option.bind_eq_some_iff.mp ih
    rw [at?, pointerTokens?_down htoken hnames, Option.bind_some, List.foldlM_cons,
      child?_eq_some_iff.mpr hbelow]
    exact hwalk

/-- A way down by the names of tokens is the way of the pointer that is written with them. -/
theorem pointsTo_of_foldlM : ∀ (p : List Char) (ps : List (List Char)) {v w : Json},
    (∀ q ∈ p :: ps, '/' ∉ q) →
    ((p :: ps).map fun q => String.ofList (unescapeToken q)).foldlM child? v = some w →
      v.PointsTo ("/" ++ String.ofList (joinWith '/' (p :: ps))) w
  | p, ps, v, w, hslash, h => by
    rw [List.map_cons, List.foldlM_cons] at h
    obtain ⟨u, hu, hrest⟩ := Option.bind_eq_some_iff.mp h
    have htoken : '/' ∉ (String.ofList p).toList := by
      rw [String.toList_ofList]
      exact hslash p List.mem_cons_self
    have hbelow : v.Below (tokenName (String.ofList p)) u := by
      rw [tokenName_eq, String.toList_ofList]
      exact child?_eq_some_iff.mp hu
    cases ps with
    | nil =>
      cases hrest
      have hpointer := PointsTo.down htoken hbelow .here
      rwa [String.append_empty] at hpointer
    | cons q qs =>
      have htail : u.PointsTo ("/" ++ String.ofList (joinWith '/' (q :: qs))) w :=
        pointsTo_of_foldlM q qs (fun r hr => hslash r (List.mem_cons_of_mem p hr)) hrest
      have hpointer := PointsTo.down htoken hbelow htail
      have hchars : "/" ++ String.ofList p ++ ("/" ++ String.ofList (joinWith '/' (q :: qs))) =
          "/" ++ String.ofList (joinWith '/' (p :: q :: qs)) := by
        apply String.toList_inj.mp
        simp [joinWith]
      rwa [hchars] at hpointer

/-- **Pointers are read as they are written.** -/
theorem at?_eq_some_iff {v w : Json} {pointer : String} :
    v.at? pointer = some w ↔ v.PointsTo pointer w := by
  refine ⟨fun h => ?_, PointsTo.at?_eq⟩
  obtain ⟨names, hnames, hwalk⟩ := Option.bind_eq_some_iff.mp h
  unfold pointerTokens? at hnames
  split at hnames
  · rename_i hempty
    cases hnames
    cases hwalk
    rw [String.toList_inj.mp (hempty.trans String.toList_empty.symm)]
    exact .here
  · rename_i cs hcs
    cases hnames
    have hpointer : pointer = "/" ++ String.ofList cs := by
      apply String.toList_inj.mp
      simp [hcs]
    obtain ⟨p, ps, hpieces⟩ := List.exists_cons_of_ne_nil (pieces_ne_nil '/' cs)
    have hslash : ∀ q ∈ p :: ps, '/' ∉ q := fun q hq => not_mem_of_mem_pieces (hpieces ▸ hq)
    rw [hpointer, ← joinWith_pieces '/' cs, hpieces]
    rw [hpieces] at hwalk
    exact pointsTo_of_foldlM p ps hslash hwalk
  · cases hnames

/-! ### References -/

/-- The pointer that the text of a reference writes: what stands after a number sign in front, or else
the text itself. -/
inductive Targets : String → String → Prop
  | marked (pointer : String) : Targets ("#" ++ pointer) pointer
  | plain {pointer : String} : (∀ rest, pointer ≠ "#" ++ rest) → Targets pointer pointer

theorem dropHash_eq_iff {s pointer : String} : dropHash s = pointer ↔ Targets s pointer := by
  constructor
  · rintro rfl
    unfold dropHash
    split
    · rename_i cs hcs
      have hs : s = "#" ++ String.ofList cs := by
        apply String.toList_inj.mp
        simp [hcs]
      rw [hs]
      exact .marked _
    · rename_i hnone
      refine .plain fun rest hrest => hnone rest.toList ?_
      rw [hrest]
      simp
  · intro h
    cases h with
    | marked pointer => simp [dropHash]
    | plain hnone =>
      unfold dropHash
      split
      · rename_i cs hcs
        refine absurd ?_ (hnone (String.ofList cs))
        apply String.toList_inj.mp
        simp [hcs]
      · rfl

theorem reference?_eq_some_iff {v : Json} {target : String} :
    v.reference? = some target ↔ ∃ s, v = .obj [("$ref", .str s)] ∧ Targets s target := by
  constructor
  · intro h
    unfold reference? at h
    split at h
    · rename_i key s
      split at h
      · rename_i hkey
        exact ⟨s, by rw [hkey], dropHash_eq_iff.mp (Option.some.inj h)⟩
      · cases h
    · cases h
  · rintro ⟨s, rfl, htarget⟩
    rw [reference?, if_pos rfl, dropHash_eq_iff.mpr htarget]

/-- A value is no reference if it does not have the shape of one. -/
theorem reference?_eq_none_iff {v : Json} : v.reference? = none ↔ ∀ s, v ≠ .obj [("$ref", .str s)] := by
  constructor
  · rintro h s rfl
    rw [reference?, if_pos rfl] at h
    cases h
  · intro h
    refine Option.eq_none_iff_forall_ne_some.mpr fun target htarget => ?_
    obtain ⟨s, hs, -⟩ := reference?_eq_some_iff.mp htarget
    exact h s hs

end Json

end Recipients
