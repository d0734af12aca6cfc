/-
# JSON values

A JSON value as a tree. An object keeps its members as they stand in the text, in order and with
repeated keys; `sort` gives the value its standard form, in which every object lists each key once, in
the order of code points, with the value that the text gave it last. `Json.Sorted` says that a value has
this form.

Key definitions: `Json`, `Json.same`, `Json.sort`, `Json.Sorted`.
Key theorem: `Json.sorted_sort`.
-/
import Recipients.Number.Basic

namespace Recipients

/-- A JSON value; an object is the list of its members. -/
inductive Json where
  | null
  | bool (value : Bool)
  | num (value : Number)
  | str (value : String)
  | arr (items : List Json)
  | obj (members : List (String × Json))

namespace Json

/-! ### Equality of values

Numbers are compared by kind and value, and objects member by member.
-/

mutual

/-- Whether the two values are equal. -/
def same : Json → Json → Bool
  | null, null => true
  | bool a, bool b => a == b
  | num a, num b => a.same b
  | str a, str b => a == b
  | arr as, arr bs => sameItems as bs
  | obj as, obj bs => sameMembers as bs
  | _, _ => false

/-- Whether the two lists hold equal values at the same places. -/
def sameItems : List Json → List Json → Bool
  | [], [] => true
  | a :: as, b :: bs => same a b && sameItems as bs
  | _, _ => false

/-- Whether the two lists hold equal members at the same places. -/
def sameMembers : List (String × Json) → List (String × Json) → Bool
  | [], [] => true
  | (j, a) :: as, (k, b) :: bs => j == k && same a b && sameMembers as bs
  | _, _ => false

end

/-! ### The standard form -/

/-- Puts a member in its place among sorted members, over the member of the same key. -/
def insertMember (key : String) (value : Json) : List (String × Json) → List (String × Json)
  | [] => [(key, value)]
  | m :: ms =>
    if m.1 = key then (key, value) :: ms
    else if m.1 < key then m :: insertMember key value ms
    else (key, value) :: m :: ms

mutual

/-- The value with every object in standard form. -/
def sort : Json → Json
  | arr items => arr (sortItems items)
  | obj members => obj (sortMembers members [])
  | v => v

/-- The items in standard form. -/
def sortItems : List Json → List Json
  | [] => []
  | v :: vs => sort v :: sortItems vs

/-- The sorted members with the given ones written over them in order. -/
def sortMembers : List (String × Json) → List (String × Json) → List (String × Json)
  | [], done => done
  | (k, v) :: ms, done => sortMembers ms (insertMember k (sort v) done)

end

mutual

/-- Every object of the value lists each key once, in the order of code points. -/
def Sorted : Json → Prop
  | arr items => SortedItems items
  | obj members => (members.map Prod.fst).Pairwise (· < ·) ∧ SortedMembers members
  | _ => True

/-- Every item is sorted. -/
def SortedItems : List Json → Prop
  | [] => True
  | v :: vs => Sorted v ∧ SortedItems vs

/-- Every member's value is sorted. -/
def SortedMembers : List (String × Json) → Prop
  | [] => True
  | (_, v) :: ms => Sorted v ∧ SortedMembers ms

end

theorem sortedMembers_iff : ∀ ms : List (String × Json),
    SortedMembers ms ↔ ∀ m ∈ ms, Sorted m.2
  | [] => by simp [SortedMembers]
  | (k, v) :: ms => by simp [SortedMembers, sortedMembers_iff ms]

theorem mem_insertMember {key : String} {value : Json} {m : String × Json} :
    ∀ {ms : List (String × Json)}, m ∈ insertMember key value ms → m = (key, value) ∨ m ∈ ms
  | [], h => by simpa [insertMember] using h
  | n :: ms, h => by
    unfold insertMember at h
    split at h
    · rcases List.mem_cons.mp h with h | h
      · exact .inl h
      · exact .inr (List.mem_cons_of_mem _ h)
    · split at h
      · rcases List.mem_cons.mp h with rfl | h
        · exact .inr List.mem_cons_self
        · rcases mem_insertMember h with h | h
          · exact .inl h
          · exact .inr (List.mem_cons_of_mem _ h)
      · exact List.mem_cons.mp h

/-- Inserting keeps the keys strictly increasing. -/
theorem pairwise_insertMember {key : String} {value : Json} : ∀ {ms : List (String × Json)},
    (ms.map Prod.fst).Pairwise (· < ·) →
      ((insertMember key value ms).map Prod.fst).Pairwise (· < ·)
  | [], _ => by simp [insertMember]
  | m :: ms, h => by
    have hm := List.pairwise_cons.mp h
    unfold insertMember
    split
    · rename_i hk
      rw [List.map_cons, List.pairwise_cons]
      exact ⟨fun k hkm => hk ▸ hm.1 k hkm, hm.2⟩
    · rename_i hne
      split
      · rename_i hlt
        rw [List.map_cons, List.pairwise_cons]
        refine ⟨fun k hk => ?_, pairwise_insertMember hm.2⟩
        obtain ⟨n, hn, rfl⟩ := List.mem_map.mp hk
        rcases mem_insertMember hn with rfl | hn
        · exact hlt
        · exact hm.1 _ (List.mem_map_of_mem hn)
      · rename_i hge
        have hlt : key < m.1 := by
          refine Decidable.byContradiction fun hnot => hne ?_
          exact String.le_antisymm (String.not_lt.mp hnot) (String.not_lt.mp hge)
        rw [List.map_cons, List.pairwise_cons]
        refine ⟨fun k hk => ?_, h⟩
        rcases List.mem_cons.mp hk with rfl | hk
        · exact hlt
        · exact String.lt_trans hlt (hm.1 k hk)

mutual

/-- The standard form is sorted. -/
theorem sorted_sort : ∀ v : Json, Sorted (sort v)
  | null => by simp [sort, Sorted]
  | bool _ => by simp [sort, Sorted]
  | num _ => by simp [sort, Sorted]
  | str _ => by simp [sort, Sorted]
  | arr items => by
    rw [sort, Sorted]
    exact sortedItems_sortItems items
  | obj members => by
    rw [sort, Sorted]
    exact sortedMembers_sortMembers members [] (by simp) (by simp [SortedMembers])

theorem sortedItems_sortItems : ∀ vs : List Json, SortedItems (sortItems vs)
  | [] => by simp [sortItems, SortedItems]
  | v :: vs => by
    rw [sortItems, SortedItems]
    exact ⟨sorted_sort v, sortedItems_sortItems vs⟩

theorem sortedMembers_sortMembers : ∀ (ms done : List (String × Json)),
    (done.map Prod.fst).Pairwise (· < ·) → SortedMembers done →
      ((sortMembers ms done).map Prod.fst).Pairwise (· < ·) ∧ SortedMembers (sortMembers ms done)
  | [], done, hk, hv => by
    rw [sortMembers]
    exact ⟨hk, hv⟩
  | (k, v) :: ms, done, hk, hv => by
    rw [sortMembers]
    refine sortedMembers_sortMembers ms _ (pairwise_insertMember hk) ?_
    rw [sortedMembers_iff] at hv ⊢
    intro m hm
    rcases mem_insertMember hm with rfl | hm
    · exact sorted_sort v
    · exact hv m hm

end

end Json

end Recipients
