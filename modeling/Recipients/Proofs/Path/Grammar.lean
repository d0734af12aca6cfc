/-
# The grammar of paths

A text is a path expression exactly if it is some inner text between two opening and two closing braces.
The inner text may hold anything, braces too; as an opening brace is no closing one, the two pairs cannot
overlap, so it is enough to look at both ends. The inner text is cut at its dots, and the pieces that are
not blank are the segments, in order and as they stand.

So pieces that are blank can be written anywhere between the dots, and a path can be printed from its
segments: segments have no dots and are not blank, which is all that it takes for the cut to give them
back. Texts that are no path expressions stand for themselves and ask nobody.

Key definitions: `dotPieces`, `PathExpression.written`, `PathExpression.print`, `Padded`.
Key theorems: `intercalate_dotPieces`, `PathExpression.isPath_iff_ends`, `PathExpression.parse?_written`,
`PathExpression.parse?_eq_some_iff`, `PathExpression.parse?_print`, `PathExpression.Padded.flatMap_segmentsIn`,
`PathExpression.grammar_exact`.
-/
import Recipients.Proofs.Path.Remembered
import Recipients.Proofs.Path.Segments

namespace Recipients

open Text

/-! ### Pieces between dots -/

/-- The pieces of a text between its dots, in order, empty ones included. -/
def dotPieces (inner : String) : List String :=
  (inner.split '.').toList.map String.Slice.copy

theorem dotPieces_eq_pieces (inner : String) :
    dotPieces inner = (pieces '.' inner.toList).map String.ofList := by
  unfold dotPieces
  rw [String.toList_split_char, pieces_eq_splitOn]

/-- A dot ends the pieces before it and starts those after it. -/
theorem dotPieces_append_dot (a b : String) :
    dotPieces (a ++ "." ++ b) = dotPieces a ++ dotPieces b := by
  have hchars : (a ++ "." ++ b).toList = a.toList ++ '.' :: b.toList := by simp
  rw [dotPieces_eq_pieces, hchars, pieces_append_sep, List.map_append, ← dotPieces_eq_pieces,
    ← dotPieces_eq_pieces]

/-- A text without dots is its own piece. -/
theorem dotPieces_of_no_dot {s : String} (h : '.' ∉ s.toList) : dotPieces s = [s] := by
  rw [dotPieces_eq_pieces, pieces_of_not_mem h]
  simp

theorem no_dot_of_mem_dotPieces {inner p : String} (h : p ∈ dotPieces inner) : '.' ∉ p.toList := by
  rw [dotPieces_eq_pieces] at h
  obtain ⟨cs, hcs, rfl⟩ := List.mem_map.mp h
  rw [String.toList_ofList]
  exact not_mem_of_mem_pieces hcs

/-- Cutting loses nothing. -/
theorem intercalate_dotPieces (inner : String) : ".".intercalate (dotPieces inner) = inner := by
  have hback : (dotPieces inner).map String.toList = pieces '.' inner.toList := by
    rw [dotPieces_eq_pieces, List.map_map]
    simp
  apply String.toList_inj.mp
  rw [String.toList_intercalate, hback, pieces_eq_splitOn]
  exact List.intercalate_splitOn '.'

/-- The pieces of a text that are not blank. -/
def segmentsIn (inner : String) : List String :=
  (dotPieces inner).filter fun piece => !isBlankText piece

/-- A text without dots is its own segment unless it is blank. -/
theorem segmentsIn_of_no_dot {s : String} (h : '.' ∉ s.toList) :
    segmentsIn s = if isBlankText s then [] else [s] := by
  unfold segmentsIn
  rw [dotPieces_of_no_dot h]
  cases hblank : isBlankText s <;> simp [hblank]

/-- The segments of texts with dots between them are those of each of the texts. -/
theorem segmentsIn_intercalate : ∀ ps : List String,
    segmentsIn (".".intercalate ps) = ps.flatMap segmentsIn
  | [] => by
    have hempty : segmentsIn "" = [] := by
      rw [segmentsIn_of_no_dot (by simp)]
      simp [isBlankText]
    simp [hempty]
  | [p] => by simp
  | p :: q :: ps => by
    have ih := segmentsIn_intercalate (q :: ps)
    rw [String.intercalate_cons_cons, List.flatMap_cons, ← ih]
    unfold segmentsIn
    rw [dotPieces_append_dot, List.filter_append]

/-! ### Braces -/

namespace PathExpression

/-- The path expression with an inner text. -/
def written (inner : String) : String :=
  "\x7b\x7b" ++ inner ++ "\x7d\x7d"

/-- The path expression with given segments. -/
def print (segments : List String) : String :=
  written (".".intercalate segments)

theorem toList_written (inner : String) : (written inner).toList = braced inner.toList := by
  simp [written, braced]

/-- A text that stands between the braces has an inner text. -/
theorem isPath_iff {raw : String} : isPath raw = true ↔ ∃ inner, raw = written inner := by
  unfold isPath
  rw [Option.isSome_iff_exists]
  constructor
  · rintro ⟨inner, hinner⟩
    refine ⟨String.ofList inner, String.toList_inj.mp ?_⟩
    rw [toList_written, String.toList_ofList]
    exact inner?_eq_some_iff.mp hinner
  · rintro ⟨inner, rfl⟩
    exact ⟨inner.toList, inner?_eq_some_iff.mpr (toList_written inner)⟩

/-- The pairs of braces at the two ends of a text are apart, since no opening brace is a closing one. -/
theorem exists_inner_of_ends {cs : List Char} (hopen : ['\x7b', '\x7b'] <+: cs)
    (hclose : ['\x7d', '\x7d'] <:+ cs) : ∃ inner, cs = braced inner := by
  obtain ⟨rest, rfl⟩ := hopen
  obtain ⟨start, hstart⟩ := hclose
  rcases start with _ | ⟨a, _ | ⟨b, inner⟩⟩
  · simp at hstart
  · simp at hstart
  · simp only [List.cons_append, List.nil_append, List.cons.injEq] at hstart
    obtain ⟨rfl, rfl, rfl⟩ := hstart
    exact ⟨inner, rfl⟩

/-- To tell a path expression it is enough to look at the length in bytes and at both ends. -/
theorem isPath_iff_ends {raw : String} : isPath raw = true ↔
    4 ≤ raw.utf8ByteSize ∧ raw.startsWith "\x7b\x7b" = true ∧ raw.endsWith "\x7d\x7d" = true := by
  have hstarts : raw.startsWith "\x7b\x7b" = true ↔ ['\x7b', '\x7b'] <+: raw.toList := by
    simp [String.startsWith_string_iff]
  have hends : raw.endsWith "\x7d\x7d" = true ↔ ['\x7d', '\x7d'] <:+ raw.toList := by
    rw [← String.endsWith_toSlice, String.Slice.endsWith_string_iff]
    simp
  rw [hstarts, hends]
  constructor
  · intro h
    obtain ⟨inner, rfl⟩ := isPath_iff.mp h
    have hsize : (written inner).utf8ByteSize = 2 + inner.utf8ByteSize + 2 := by
      unfold written
      rw [String.utf8ByteSize_append, String.utf8ByteSize_append]
      rfl
    rw [toList_written]
    exact ⟨by omega, ⟨inner.toList ++ ['\x7d', '\x7d'], rfl⟩,
      ⟨'\x7b' :: '\x7b' :: inner.toList, rfl⟩⟩
  · rintro ⟨-, hopen, hclose⟩
    obtain ⟨inner, hinner⟩ := exists_inner_of_ends hopen hclose
    unfold isPath
    rw [inner?_eq_some_iff.mpr hinner, Option.isSome_some]

/-- The segments of a path expression are the pieces of its inner text that are not blank. -/
theorem parse?_written (inner : String) : parse? (written inner) = some ⟨segmentsIn inner⟩ := by
  have hinner : inner? (written inner) = some inner.toList :=
    inner?_eq_some_iff.mpr (toList_written inner)
  unfold parse? segmentsIn
  rw [hinner, Option.map_some, dotPieces_eq_pieces, List.filter_map]
  have hblank : (fun piece => !isBlankText piece) ∘ String.ofList = fun p => !p.all isBlank := by
    funext p
    simp [isBlankText]
  rw [hblank]

theorem parse?_eq_some_iff {raw : String} {path : PathExpression} :
    parse? raw = some path ↔ ∃ inner, raw = written inner ∧ path.segments = segmentsIn inner := by
  constructor
  · intro h
    have hpath : isPath raw = true := by
      rw [← isSome_parse?, h, Option.isSome_some]
    obtain ⟨inner, rfl⟩ := isPath_iff.mp hpath
    rw [parse?_written, Option.some.injEq] at h
    exact ⟨inner, rfl, by rw [← h]⟩
  · rintro ⟨inner, rfl, hsegments⟩
    rw [parse?_written, ← hsegments]

/-- A text is no path if it does not stand between the braces. -/
theorem parse?_eq_none_iff {raw : String} : parse? raw = none ↔ ∀ inner, raw ≠ written inner := by
  constructor
  · rintro h inner rfl
    rw [parse?_written] at h
    cases h
  · intro h
    rw [Option.eq_none_iff_forall_ne_some]
    intro path hpath
    obtain ⟨inner, hraw, -⟩ := parse?_eq_some_iff.mp hpath
    exact h inner hraw

/-! ### Printing -/

/-- The segments of a printed path are those of the texts that it is printed from. -/
theorem parse?_print (ps : List String) : parse? (print ps) = some ⟨ps.flatMap segmentsIn⟩ := by
  unfold print
  rw [parse?_written, segmentsIn_intercalate]

/-- Segments that could have been written come back. -/
theorem parse?_print_segments {segments : List String}
    (h : ∀ s ∈ segments, '.' ∉ s.toList ∧ isBlankText s = false) :
    parse? (print segments) = some ⟨segments⟩ := by
  have hsegments : segments.flatMap segmentsIn = segments := by
    induction segments with
    | nil => rfl
    | cons s segments ih =>
      obtain ⟨hdot, hblank⟩ := h s List.mem_cons_self
      have hfirst : segmentsIn s = [s] := by
        rw [segmentsIn_of_no_dot hdot]
        simp [hblank]
      rw [List.flatMap_cons, hfirst, ih fun t ht => h t (List.mem_cons_of_mem s ht),
        List.singleton_append]
  rw [parse?_print, hsegments]

/-- The segments of a path could have been written. -/
theorem segments_of_parse? {raw : String} {path : PathExpression} (h : parse? raw = some path) :
    ∀ s ∈ path.segments, '.' ∉ s.toList ∧ isBlankText s = false := by
  obtain ⟨inner, -, hsegments⟩ := parse?_eq_some_iff.mp h
  intro s hs
  rw [hsegments] at hs
  obtain ⟨hpiece, hblank⟩ := List.mem_filter.mp hs
  exact ⟨no_dot_of_mem_dotPieces hpiece, by simpa using hblank⟩

end PathExpression

/-- The second list is the first with blank texts put in, at any places and any number of them. -/
inductive Padded : List String → List String → Prop
  | nil : Padded [] []
  | piece {p : String} {ps ps' : List String} : Padded ps ps' → Padded (p :: ps) (p :: ps')
  | blank {b : String} {ps ps' : List String} : isBlankText b = true → Padded ps ps' →
    Padded ps (b :: ps')

/-- A dot is not blank, so a blank text has no segment. -/
theorem segmentsIn_of_blank {b : String} (h : isBlankText b = true) : segmentsIn b = [] := by
  have hdot : '.' ∉ b.toList := by
    intro hmem
    have hblank : isBlank '.' = true := List.all_eq_true.mp h '.' hmem
    revert hblank
    decide
  rw [segmentsIn_of_no_dot hdot, if_pos h]

theorem Padded.flatMap_segmentsIn {ps ps' : List String} (h : Padded ps ps') :
    ps'.flatMap segmentsIn = ps.flatMap segmentsIn := by
  induction h with
  | nil => rfl
  | piece _ ih => rw [List.flatMap_cons, List.flatMap_cons, ih]
  | blank hb _ ih => rw [List.flatMap_cons, segmentsIn_of_blank hb, ih, List.nil_append]

namespace PathExpression

/-- **The grammar is exact, and paths can be printed.** A text is read as a path exactly if it is an inner
text between the braces, and the segments are the pieces between the dots of the inner text that are not
blank, in order and as they stand; the pieces have no dots and make up the inner text. A path printed from
texts that are not blank and have no dots has these segments, blank pieces put in between the dots change
nothing, and every path that is read comes back when its segments are printed. Every other text evaluates
to itself, at any object and with any getters: nobody is asked, and no name is remembered. -/
theorem grammar_exact :
    (∀ raw path, parse? raw = some path ↔ ∃ inner, raw = "\x7b\x7b" ++ inner ++ "\x7d\x7d" ∧
      path.segments = (dotPieces inner).filter fun piece => !isBlankText piece) ∧
    (∀ inner, dotPieces inner ≠ [] ∧ (∀ piece ∈ dotPieces inner, '.' ∉ piece.toList) ∧
      ".".intercalate (dotPieces inner) = inner) ∧
    (∀ raw, isPath raw = true ↔
      4 ≤ raw.utf8ByteSize ∧ raw.startsWith "\x7b\x7b" = true ∧ raw.endsWith "\x7d\x7d" = true) ∧
    (∀ segments, (∀ s ∈ segments, '.' ∉ s.toList ∧ isBlankText s = false) →
      parse? (print segments) = some ⟨segments⟩) ∧
    (∀ ps ps', Padded ps ps' → parse? (print ps') = parse? (print ps)) ∧
    (∀ raw path, parse? raw = some path → parse? (print path.segments) = some path) ∧
    ∀ raw, (∀ inner, raw ≠ "\x7b\x7b" ++ inner ++ "\x7d\x7d") →
      ∀ (g : Graph) (chain : FieldGetterChain) (object : ObjectRef) (c : Caches),
        evaluateCached g chain object raw c = (⟨some (.ofText raw), []⟩, c) := by
  refine ⟨fun raw path => parse?_eq_some_iff, fun inner => ⟨?_, fun piece => no_dot_of_mem_dotPieces,
    intercalate_dotPieces inner⟩, fun raw => isPath_iff_ends, fun segments => parse?_print_segments,
    fun ps ps' h => ?_, fun raw path h => parse?_print_segments (segments_of_parse? h),
    fun raw h g chain object c => ?_⟩
  · have hne := pieces_ne_nil '.' inner.toList
    rw [dotPieces_eq_pieces]
    simpa using hne
  · rw [parse?_print, parse?_print, h.flatMap_segmentsIn]
  · unfold evaluateCached
    rw [parse?_eq_none_iff.mpr h]

/-- Two segments with a brace, blanks and letters in them; between and around them an empty piece, the
ideographic space and a line end. -/
theorem grammar_of_braced_segments :
    print ["\x7ba b", " ñ "] = "\x7b\x7b\x7ba b. ñ \x7d\x7d" ∧
    parse? "\x7b\x7b\x7ba b. ñ \x7d\x7d" = some ⟨["\x7ba b", " ñ "]⟩ ∧
    parse? "\x7b\x7b.\x7ba b.\u3000. ñ .\n\x7d\x7d" = some ⟨["\x7ba b", " ñ "]⟩ ∧
    (∀ g chain object c, evaluateCached g chain object "\x7b\x7ba\x7d" c =
      (⟨some (.ofText "\x7b\x7ba\x7d"), []⟩, c)) := by
  obtain ⟨-, -, -, hprint, hpadded, -, hliteral⟩ := grammar_exact
  have hprinted : print ["\x7ba b", " ñ "] = "\x7b\x7b\x7ba b. ñ \x7d\x7d" := by decide +kernel
  have hsegments : parse? (print ["\x7ba b", " ñ "]) = some ⟨["\x7ba b", " ñ "]⟩ :=
    hprint _ (by decide +kernel)
  have hput : Padded ["\x7ba b", " ñ "] ["", "\x7ba b", "\u3000", " ñ ", "\n"] :=
    .blank (by decide +kernel) (.piece (.blank (by decide +kernel) (.piece
      (.blank (by decide +kernel) .nil))))
  have hpaddedText : print ["", "\x7ba b", "\u3000", " ñ ", "\n"] =
      "\x7b\x7b.\x7ba b.\u3000. ñ .\n\x7d\x7d" := by decide +kernel
  refine ⟨hprinted, ?_, ?_, ?_⟩
  · rw [← hprinted]
    exact hsegments
  · rw [← hpaddedText, hpadded _ _ hput]
    exact hsegments
  · apply hliteral
    intro inner hinner
    have hends := congrArg isPath hinner
    rw [show isPath ("\x7b\x7b" ++ inner ++ "\x7d\x7d") = true from isPath_iff.mpr ⟨inner, rfl⟩] at hends
    revert hends
    decide +kernel

end PathExpression

end Recipients
