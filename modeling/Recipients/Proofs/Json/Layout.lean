/-
# Reading what was laid out

The writer puts each entry of a container on a line of its own, behind a comma or the opening bracket,
and the closing bracket on another. A reader of a sequence is given a state and a reader of entries that
takes it from entry to entry. If that reader takes each written entry to the next state, whatever blanks
stand in front of it, then the sequence is read to the last state, and the layout is read over.

What comes after a written entry is a comma, a new line or nothing, and a reader may rely on that.

Key definitions: `Json.Ended`, `Json.Reads`, `Json.Enters`, `Json.restChars`, `Json.bodyChars`,
`Json.memberChars`.
Key theorems: `Json.Enters.readSequence`, `Json.reads_readMember`, `Json.readList_bodyChars`.
-/
import Mathlib.Data.List.Forall2
import Recipients.Proofs.Json.StringText

namespace Recipients.Json

variable {α σ : Type}

/-! ### Blanks -/

theorem skipBlank_append {blanks cs : List Char} (h : ∀ c ∈ blanks, isBlank c = true) :
    skipBlank (blanks ++ cs) = skipBlank cs :=
  List.dropWhile_append_of_pos h

theorem skipBlank_cons {c : Char} (h : isBlank c = false) (cs : List Char) :
    skipBlank (c :: cs) = c :: cs := by
  rw [skipBlank, List.dropWhile_cons, h]
  rfl

theorem isBlank_of_mem_newLine {level : Nat} {c : Char} (h : c ∈ newLine level) : isBlank c = true := by
  rcases List.mem_cons.mp h with rfl | h
  · decide
  · rw [List.eq_of_mem_replicate h]
    decide

theorem isBlank_of_mem_space {c : Char} (h : c ∈ [' ']) : isBlank c = true := by
  rw [List.mem_singleton.mp h]
  rfl

/-! ### Readers of written entries -/

/-- What comes after a written value: a comma, a new line, or nothing. -/
def Ended (rest : List Char) : Prop :=
  ∀ c ∈ rest.head?, c = ',' ∨ c = '\n'

/-- The reader takes the text for the value and leaves the rest, whatever blanks stand in front. -/
def Reads (read : Reader α) (text : List Char) (a : α) : Prop :=
  ∀ blanks rest, (∀ c ∈ blanks, isBlank c = true) → Ended rest →
    read (blanks ++ (text ++ rest)) = .ok (a, rest)

/-- What a reader takes for a value is read as the value when it is the whole text. -/
theorem Reads.readWhole {read : Reader α} {text : List Char} {a : α} (h : Reads read text a) :
    Json.readWhole read (String.ofList text) = .ok a := by
  have hread : read text = .ok (a, []) := by
    have h' := h [] [] (by simp) (by simp [Ended])
    rwa [List.nil_append, List.append_nil] at h'
  rw [Json.readWhole, String.toList_ofList, hread]
  rfl

/-- The reader of entries takes the texts, one after the other, from one state to another. -/
inductive Enters (entry : σ → Reader σ) : σ → List (List Char) → σ → Prop
  | nil {s} : Enters entry s [] s
  | cons {s s₁ s₂ t ts} : Reads (entry s) t s₁ → Enters entry s₁ ts s₂ → Enters entry s (t :: ts) s₂

/-- The entries after the first and the closing bracket. -/
def restChars (level : Nat) (close : Char) : List (List Char) → List Char
  | [] => newLine level ++ [close]
  | t :: ts => ',' :: (newLine (level + 1) ++ (t ++ restChars level close ts))

/-- The entries and the closing bracket. -/
def bodyChars (level : Nat) (close : Char) : List (List Char) → List Char
  | [] => [close]
  | t :: ts => newLine (level + 1) ++ (t ++ restChars level close ts)

theorem ended_restChars (level : Nat) (close : Char) (rest : List Char) : ∀ ts : List (List Char),
    Ended (restChars level close ts ++ rest)
  | [] => fun _ h => .inr (Option.some.inj h).symm
  | _ :: _ => fun _ h => .inl (Option.some.inj h).symm

theorem length_le_restChars (level : Nat) (close : Char) : ∀ ts : List (List Char),
    ts.length ≤ (restChars level close ts).length
  | [] => Nat.zero_le _
  | t :: ts => by
    have ih := length_le_restChars level close ts
    simp only [restChars, List.length_cons, List.length_append]
    omega

section Sequence

variable {entry : σ → Reader σ} {close : Char}

/-- The entries after the first are read, if the count does not run out before them. -/
theorem Enters.readRest (hblank : isBlank close = false) (hcomma : close ≠ ',') (level : Nat)
    (rest : List Char) {s s' : σ} {ts : List (List Char)} (h : Enters entry s ts s') :
    ∀ count, ts.length < count →
      Json.readRest close entry count s (restChars level close ts ++ rest) = .ok (s', rest) := by
  induction h with
  | nil =>
    intro count hcount
    obtain ⟨count, rfl⟩ : ∃ n, count = n + 1 := ⟨count - 1, by omega⟩
    have hskip : skipBlank (newLine level ++ (close :: rest)) = close :: rest := by
      rw [skipBlank_append fun _ => isBlank_of_mem_newLine, skipBlank_cons hblank]
    rw [restChars, List.append_assoc, List.singleton_append, Json.readRest, hskip]
    simp only [if_true]
  | @cons s s₁ s₂ t ts hread _ ih =>
    intro count hcount
    rw [List.length_cons] at hcount
    obtain ⟨count, rfl⟩ : ∃ n, count = n + 1 := ⟨count - 1, by omega⟩
    have hentry : entry s (newLine (level + 1) ++ (t ++ (restChars level close ts ++ rest))) =
        .ok (s₁, restChars level close ts ++ rest) :=
      hread _ _ (fun _ => isBlank_of_mem_newLine) (ended_restChars level close rest ts)
    have hne : ',' ≠ close := fun h => hcomma h.symm
    rw [restChars, List.cons_append, List.append_assoc, List.append_assoc, Json.readRest,
      skipBlank_cons (by decide)]
    simp only [if_neg hne, if_true, hentry]
    exact ih count (by omega)

/-- **What was laid out is read back**: the whole sequence, up to and with its closing bracket. -/
theorem Enters.readSequence (hblank : isBlank close = false) (hcomma : close ≠ ',') (level : Nat)
    (rest : List Char) {s s' : σ} {ts : List (List Char)} (h : Enters entry s ts s')
    (hopens : ∀ t ∈ ts, ∃ c cs, t = c :: cs ∧ isBlank c = false ∧ c ≠ close) :
    Json.readSequence close entry s (bodyChars level close ts ++ rest) = .ok (s', rest) := by
  cases h with
  | nil =>
    rw [bodyChars, List.singleton_append, Json.readSequence, skipBlank_cons hblank]
    simp only [if_true]
  | @cons _ s₁ _ t ts hread hrest =>
    obtain ⟨c, cs, rfl, hc, hne⟩ := hopens t List.mem_cons_self
    have hskip : skipBlank (newLine (level + 1) ++ (c :: cs ++ restChars level close ts) ++ rest) =
        c :: (cs ++ (restChars level close ts ++ rest)) := by
      rw [List.append_assoc, skipBlank_append fun _ => isBlank_of_mem_newLine, List.cons_append,
        List.cons_append, skipBlank_cons hc, List.append_assoc]
    have hentry : entry s (c :: (cs ++ (restChars level close ts ++ rest))) =
        .ok (s₁, restChars level close ts ++ rest) :=
      hread [] _ (by simp) (ended_restChars level close rest ts)
    have hcount := length_le_restChars level close ts
    rw [bodyChars, Json.readSequence, hskip]
    simp only [if_neg hne, hentry]
    refine hrest.readRest hblank hcomma level rest _ ?_
    rw [List.length_append]
    omega

end Sequence

/-! ### Members and lists -/

/-- A member as it is written inside an object. -/
def memberChars (level : Nat) (m : String × Json) : List Char :=
  strText m.1 ++ ':' :: ' ' :: prettyChars (level + 1) m.2

theorem prettyMembers_eq (level : Nat) : ∀ ms : List (String × Json),
    prettyMembers level ms = restChars level '\x7d' (ms.map (memberChars level))
  | [] => by rw [prettyMembers, List.map_nil, restChars]
  | (k, v) :: ms => by
    simp only [prettyMembers, prettyMembers_eq level ms, List.map_cons, restChars, memberChars,
      List.append_assoc, List.cons_append]

theorem prettyChars_obj (level : Nat) (ms : List (String × Json)) :
    prettyChars level (.obj ms) =
      '\x7b' :: bodyChars level '\x7d' (ms.map (memberChars level)) := by
  cases ms with
  | nil => rw [prettyChars, List.map_nil, bodyChars]
  | cons m ms =>
    simp only [prettyChars, prettyMembers_eq, List.map_cons, bodyChars, memberChars, List.append_assoc,
      List.cons_append]

/-- A member begins with the quote of its key. -/
theorem memberChars_opens (level : Nat) {t : List Char} {ms : List (String × Json)}
    (h : t ∈ ms.map (memberChars level)) :
    ∃ c cs, t = c :: cs ∧ isBlank c = false ∧ c ≠ '\x7d' := by
  obtain ⟨m, -, rfl⟩ := List.mem_map.mp h
  exact ⟨'"', _, rfl, by decide, by decide⟩

theorem readKey_strText {blanks : List Char} (h : ∀ c ∈ blanks, isBlank c = true) (k : String)
    (rest : List Char) : readKey (blanks ++ (strText k ++ rest)) = .ok (k, rest) := by
  have hskip : skipBlank (blanks ++ (strText k ++ rest)) =
      '"' :: (k.toList.flatMap escapeChar ++ '"' :: rest) := by
    rw [skipBlank_append h, strText, List.cons_append, List.append_assoc, List.singleton_append,
      skipBlank_cons (by decide)]
  rw [readKey, hskip]
  simp only [if_true, readString_escaped]

theorem readColon_cons (rest : List Char) : readColon (':' :: rest) = .ok rest := by
  rw [readColon, skipBlank_cons (by decide)]
  simp only [if_true]

/-- A written member is read as its key and what its value is read as. -/
theorem reads_readMember {level : Nat} {m : String × Json} {value : Reader α} {a : α}
    (h : Reads value (prettyChars (level + 1) m.2) a) :
    Reads (readMember value) (memberChars level m) (m.1, a) := by
  intro blanks rest hblanks hended
  have hvalue : value (' ' :: (prettyChars (level + 1) m.2 ++ rest)) = .ok (a, rest) :=
    h [' '] rest (fun _ => isBlank_of_mem_space) hended
  rw [memberChars, List.append_assoc, List.cons_append, List.cons_append, readMember,
    readKey_strText hblanks]
  simp only [bind, Except.bind, readColon_cons, hvalue]
  rfl

/-- A reader of entries that collects what another one reads takes the texts to the whole list. -/
theorem enters_collect {entry : Reader α} {ts : List (List Char)} {as : List α}
    (h : List.Forall₂ (Reads entry) ts as) (done : List α) :
    Enters (fun done cs => (entry cs).map fun r => (done ++ [r.1], r.2)) done ts (done ++ as) := by
  induction h generalizing done with
  | nil =>
    rw [List.append_nil]
    exact .nil
  | @cons t a ts as hread _ ih =>
    have hfirst : Reads (fun cs => (entry cs).map fun r => (done ++ [r.1], r.2)) t (done ++ [a]) := by
      intro blanks rest hblanks hended
      show (entry (blanks ++ (t ++ rest))).map (fun r => (done ++ [r.1], r.2)) = .ok (done ++ [a], rest)
      rw [hread blanks rest hblanks hended]
      rfl
    have hdone : done ++ a :: as = done ++ [a] ++ as := by
      rw [List.append_assoc, List.singleton_append]
    rw [hdone]
    exact .cons hfirst (ih (done ++ [a]))

/-- The members of a written object are read as the list of what each is read as. -/
theorem readList_bodyChars {level : Nat} {ms : List (String × Json)} {entry : Reader α} {as : List α}
    (h : List.Forall₂ (Reads entry) (ms.map (memberChars level)) as) (rest : List Char) :
    readList '\x7d' entry (bodyChars level '\x7d' (ms.map (memberChars level)) ++ rest) =
      .ok (as, rest) :=
  (enters_collect h []).readSequence (by decide) (by decide) level rest fun _ => memberChars_opens level

end Recipients.Json
