/-
# Maps that remember the order of their keys

An ordered map lists its entries in the order in which their keys first came. Writing a key again
changes its value and leaves its place. That no key is listed twice is part of the type, so the entries
are all there is to know about a map.

Key definitions: `OrderedMap`, `OrderedMap.insert`, `OrderedMap.ofList`, `OrderedMap.get?`,
`OrderedMap.filterMap`.
Key theorems: `keys_insertEntry`, `OrderedMap.get?_insert`.
-/
namespace Recipients

variable {α β : Type}

/-- Writes a value under a key: over the old value if the key is listed, at the end if it is not. -/
def insertEntry (key : String) (value : α) : List (String × α) → List (String × α)
  | [] => [(key, value)]
  | e :: es => if e.1 = key then (key, value) :: es else e :: insertEntry key value es

/-- A new key goes to the end, a known key keeps its place. -/
theorem keys_insertEntry (key : String) (value : α) : ∀ es : List (String × α),
    (insertEntry key value es).map Prod.fst =
      if key ∈ es.map Prod.fst then es.map Prod.fst else es.map Prod.fst ++ [key]
  | [] => by simp [insertEntry]
  | e :: es => by
    have ih := keys_insertEntry key value es
    unfold insertEntry
    by_cases h : e.1 = key
    · simp [h]
    · have h' : key ≠ e.1 := fun hk => h hk.symm
      rw [if_neg h, List.map_cons, ih]
      by_cases hm : key ∈ es.map Prod.fst
      · simp only [List.map_cons, List.mem_cons, hm, or_true, if_true]
      · simp only [List.map_cons, List.mem_cons, hm, h', or_self, if_false, List.cons_append]

theorem nodup_insertEntry {key : String} {value : α} {es : List (String × α)}
    (h : (es.map Prod.fst).Nodup) : ((insertEntry key value es).map Prod.fst).Nodup := by
  rw [keys_insertEntry]
  split
  · exact h
  · rename_i hm
    rw [List.nodup_append]
    exact ⟨h, by simp, by
      intro a ha b hb
      rw [List.mem_singleton] at hb
      rintro rfl
      exact hm (hb ▸ ha)⟩

/-- Entries in the order of their keys' first appearance, each key once. -/
structure OrderedMap (α : Type) where
  entries : List (String × α)
  distinct : (entries.map Prod.fst).Nodup

namespace OrderedMap

/-- The map without entries. -/
def empty : OrderedMap α := ⟨[], by simp⟩

/-- The keys in order. -/
def keys (m : OrderedMap α) : List String :=
  m.entries.map Prod.fst

/-- The number of keys. -/
def size (m : OrderedMap α) : Nat :=
  m.entries.length

/-- Whether the map has no entry. -/
def isEmpty (m : OrderedMap α) : Bool :=
  m.entries.isEmpty

/-- The value under a key. -/
def get? (m : OrderedMap α) (key : String) : Option α :=
  m.entries.lookup key

/-- Whether the key is listed. -/
def contains (m : OrderedMap α) (key : String) : Bool :=
  (m.get? key).isSome

/-- Writes a value under a key, which keeps its place if it has one. -/
def insert (m : OrderedMap α) (key : String) (value : α) : OrderedMap α :=
  ⟨insertEntry key value m.entries, nodup_insertEntry m.distinct⟩

/-- Writes the pairs one after the other: each key stands where it first comes, with its last value. -/
def ofList (pairs : List (String × α)) : OrderedMap α :=
  pairs.foldl (fun m e => m.insert e.1 e.2) empty

/-- Keeps the entries that have an image, under the same key and in the same order. -/
def filterMap (f : String → α → Option β) (m : OrderedMap α) : OrderedMap β where
  entries := m.entries.filterMap fun e => (f e.1 e.2).map (e.1, ·)
  distinct := by
    refine m.distinct.sublist ?_
    generalize m.entries = es
    induction es with
    | nil => simp
    | cons e es ih =>
      cases h : f e.1 e.2 with
      | none => simpa [List.filterMap_cons, h] using ih.cons e.1
      | some b => simpa [List.filterMap_cons, h] using ih.cons_cons e.1

/-- A map is its list of entries. -/
theorem ext_entries : ∀ {m n : OrderedMap α}, m.entries = n.entries → m = n
  | ⟨_, _⟩, ⟨_, _⟩, rfl => rfl

@[simp] theorem entries_empty : (empty : OrderedMap α).entries = [] := rfl

@[simp] theorem entries_insert (m : OrderedMap α) (key : String) (value : α) :
    (m.insert key value).entries = insertEntry key value m.entries := rfl

theorem lookup_insertEntry (key other : String) (value : α) : ∀ es : List (String × α),
    (insertEntry key value es).lookup other = if other = key then some value else es.lookup other
  | [] => by
    by_cases h : other = key
    · simp [insertEntry, h]
    · simp [insertEntry, List.lookup_cons, h, beq_eq_false_iff_ne.mpr h]
  | (k, v) :: es => by
    have ih := lookup_insertEntry key other value es
    unfold insertEntry
    by_cases h : k = key
    · subst h
      by_cases ho : other = k
      · simp [ho]
      · simp [List.lookup_cons, ho, beq_eq_false_iff_ne.mpr ho]
    · rw [if_neg h]
      by_cases ho : other = k
      · subst ho
        simp [h]
      · simp [List.lookup_cons, beq_eq_false_iff_ne.mpr ho, ih]

/-- Looking up after writing: the written value under its key, the old value elsewhere. -/
theorem get?_insert (m : OrderedMap α) (key other : String) (value : α) :
    (m.insert key value).get? other = if other = key then some value else m.get? other :=
  lookup_insertEntry key other value m.entries

end OrderedMap

end Recipients
