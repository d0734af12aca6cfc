/-
# Pointers built step by step

The pointer to a child is written at the end of the pointer to its parent, with the key as one more
token. A key has no slash left once it is escaped, so reading the longer pointer goes through the names
of the shorter one and then through the key: it leads where the shorter one leads, and one step on.

Key theorems: `pointerTokens?_childPointer`, `Json.at?_childPointer`, `Json.sorted_of_at?`.
-/
import Recipients.Graph.Basic
import Recipients.Proofs.Text.Pieces

namespace Recipients

open Text

/-- An escaped key has no slash. -/
theorem slash_not_mem_escapeKey (key : List Char) : '/' ∉ escapeKey key := by
  intro h
  obtain ⟨c, -, hc⟩ := List.mem_flatMap.mp h
  unfold escapeKeyChar at hc
  split at hc
  · simp at hc
  · split at hc
    · simp at hc
    · rename_i hslash
      exact hslash (List.mem_singleton.mp hc).symm

theorem toList_childPointer (pointer key : String) :
    (childPointer pointer key).toList = pointer.toList ++ '/' :: escapeKey key.toList := by
  simp [childPointer]

/-- The pointer to a child leads through the key after all that its parent's leads through. -/
theorem pointerTokens?_childPointer {pointer : String} {tokens : List String} (key : String)
    (h : pointerTokens? pointer = some tokens) :
    pointerTokens? (childPointer pointer key) = some (tokens ++ [key]) := by
  have hkey : pieces '/' (escapeKey key.toList) = [escapeKey key.toList] :=
    pieces_of_not_mem (slash_not_mem_escapeKey _)
  have hback : String.ofList (unescapeToken (escapeKey key.toList)) = key := by
    rw [unescapeToken_escapeKey, String.ofList_toList]
  unfold pointerTokens? at h ⊢
  rw [toList_childPointer]
  split at h
  · rename_i hp
    cases h
    simp [hp, hkey, hback]
  · rename_i cs hp
    cases h
    simp [hp, pieces_append_sep, hkey, hback]
  · cases h

namespace Json

/-- One key more leads one step further. -/
theorem at?_childPointer {root v : Json} {pointer : String} (key : String)
    (h : root.at? pointer = some v) : root.at? (childPointer pointer key) = v.child? key := by
  obtain ⟨tokens, htokens, hv⟩ := Option.bind_eq_some_iff.mp h
  rw [at?, pointerTokens?_childPointer key htokens, Option.bind_some, List.foldlM_append, hv]
  simp

/-- Only objects have members. -/
theorem members?_eq_some_iff {v : Json} {ms : List (String × Json)} :
    v.members? = some ms ↔ v = .obj ms := by
  cases v <;> simp [members?]

/-- What is found under a key is a member of the object. -/
theorem mem_of_child?_obj {ms : List (String × Json)} {key : String} {w : Json}
    (h : (obj ms).child? key = some w) : (key, w) ∈ ms := by
  obtain ⟨before, after, rfl, -⟩ := List.lookup_eq_some_iff.mp h
  exact List.mem_append_right _ List.mem_cons_self

/-! ### Places in a sorted value are sorted -/

theorem sortedItems_iff (vs : List Json) : SortedItems vs ↔ ∀ v ∈ vs, Sorted v := by
  induction vs with
  | nil => simp [SortedItems]
  | cons v vs ih => simp [SortedItems, ih]

theorem sorted_of_child? {v w : Json} {token : String} (hv : v.Sorted) (h : v.child? token = some w) :
    w.Sorted := by
  cases v with
  | obj members =>
    rw [Sorted, sortedMembers_iff] at hv
    exact hv.2 (token, w) (mem_of_child?_obj h)
  | arr items =>
    rw [Sorted, sortedItems_iff] at hv
    obtain ⟨i, -, hi⟩ := Option.bind_eq_some_iff.mp h
    exact hv w (List.mem_of_getElem? hi)
  | null => cases h
  | bool _ => cases h
  | num _ => cases h
  | str _ => cases h

theorem sorted_of_foldlM : ∀ (tokens : List String) {v w : Json}, v.Sorted →
    tokens.foldlM child? v = some w → w.Sorted
  | [], v, w, hv, h => by
    cases h
    exact hv
  | token :: tokens, v, w, hv, h => by
    rw [List.foldlM_cons] at h
    obtain ⟨u, hu, hw⟩ := Option.bind_eq_some_iff.mp h
    exact sorted_of_foldlM tokens (sorted_of_child? hv hu) hw

/-- Every place of a sorted value is sorted. -/
theorem sorted_of_at? {root v : Json} {pointer : String} (hroot : root.Sorted)
    (h : root.at? pointer = some v) : v.Sorted := by
  obtain ⟨tokens, -, hv⟩ := Option.bind_eq_some_iff.mp h
  exact sorted_of_foldlM tokens hroot hv

end Json

/-- The members that a document finds at a pointer are those of the object there. -/
theorem Document.members?_eq_some_iff {d : Document} {pointer : String} {ms : List (String × Json)} :
    d.members? pointer = some ms ↔ d.root.at? pointer = some (.obj ms) := by
  unfold members?
  simp only [Option.bind_eq_some_iff, Json.members?_eq_some_iff, exists_eq_right]

end Recipients
