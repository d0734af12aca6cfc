/-
# Ordered maps by their values and the order of their keys

An ordered map is settled by what it answers for each key and by the order of its keys. Written pair by
pair, it answers the last value that its key came with, and its keys stand as they first came.

Key theorems: `OrderedMap.find?_eq_some_iff_least`, `OrderedMap.get?_ofList`,
`OrderedMap.get?_ofList_eq_some_iff`, `OrderedMap.pairwise_keys_ofList`, `OrderedMap.ofList_entries`,
`OrderedMap.get?_filterMap`, `OrderedMap.eq_of_get?`.
-/
import Mathlib.Data.List.Basic
import Mathlib.Data.List.Induction
import Mathlib.Data.List.Perm.Subperm
import Recipients.OrderedMap

namespace Recipients
namespace OrderedMap

variable {α β : Type}

/-- The pair under a key is found wherever the map has it, since no key is listed twice. -/
theorem lookup_eq_some_of_mem {k : String} {v : α} : ∀ {es : List (String × α)},
    (es.map Prod.fst).Nodup → (k, v) ∈ es → es.lookup k = some v
  | [], _, h => by simp at h
  | (j, w) :: es, hnd, h => by
    rw [List.map_cons, List.nodup_cons] at hnd
    rcases List.mem_cons.mp h with h | h
    · cases h
      simp
    · have hne : k ≠ j := fun hkj => hnd.1 (hkj ▸ List.mem_map.mpr ⟨(k, v), h, rfl⟩)
      rw [List.lookup_cons, beq_eq_false_iff_ne.mpr hne]
      exact lookup_eq_some_of_mem hnd.2 h

theorem get?_eq_some_iff {m : OrderedMap α} {k : String} {v : α} :
    m.get? k = some v ↔ (k, v) ∈ m.entries := by
  refine ⟨fun h => ?_, lookup_eq_some_of_mem m.distinct⟩
  obtain ⟨before, after, he, -⟩ := List.lookup_eq_some_iff.mp h
  rw [he]
  exact List.mem_append_right _ List.mem_cons_self

theorem mem_keys_iff {m : OrderedMap α} {k : String} : k ∈ m.keys ↔ ∃ v, m.get? k = some v := by
  simp only [keys, List.mem_map, Prod.exists, exists_and_right, exists_eq_right, get?_eq_some_iff]

/-- In a list that stands in an order, the first element with a property is the least one that has it. -/
theorem find?_eq_some_iff_least (le : α → α → Prop) {p : α → Bool} {as : List α} {a : α}
    (hrefl : ∀ b, le b b) (h : as.Pairwise fun b c => le b c ∧ (le c b → b = c)) :
    as.find? p = some a ↔ (a ∈ as ∧ p a = true) ∧ ∀ b, b ∈ as ∧ p b = true → le a b := by
  rw [List.find?_eq_some_iff_append]
  constructor
  · rintro ⟨ha, before, after, rfl, hbefore⟩
    refine ⟨⟨by simp, ha⟩, fun b ⟨hmem, hb⟩ => ?_⟩
    have hnot : b ∉ before := fun hearly => by simpa [hb] using hbefore b hearly
    rcases List.mem_cons.mp ((List.mem_append.mp hmem).resolve_left hnot) with rfl | hlate
    · exact hrefl b
    · have hafter := (List.pairwise_cons.mp (List.pairwise_append.mp h).2.1).1
      exact (hafter b hlate).1
  · rintro ⟨⟨hmem, ha⟩, hleast⟩
    -- an element before the first `a` that has the property would be `a` itself
    obtain ⟨before, after, rfl, hnew⟩ := List.eq_append_cons_of_mem hmem
    refine ⟨ha, before, after, rfl, fun b hearly => ?_⟩
    have hsame : le a b → b = a :=
      ((List.pairwise_append.mp h).2.2 b hearly a List.mem_cons_self).2
    by_contra hb
    have hle : le a b := hleast b ⟨List.mem_append_left _ hearly, by simpa using hb⟩
    exact hnew (hsame hle ▸ hearly)

/-! ### Equality -/

/-- The entries are the keys with their values. -/
theorem entries_eq_filterMap (m : OrderedMap α) :
    m.entries = m.keys.filterMap fun k => (m.get? k).map (k, ·) := by
  rw [keys, List.filterMap_map]
  symm
  refine (List.filterMap_congr fun e he => ?_).trans List.filterMap_some
  rw [Function.comp_apply, get?_eq_some_iff.mpr (show (e.1, e.2) ∈ m.entries from he)]
  rfl

/-- Maps with the same keys in the same order and the same values are equal. -/
theorem eq_of_keys {m n : OrderedMap α} (hk : m.keys = n.keys) (hv : ∀ k, m.get? k = n.get? k) :
    m = n := by
  refine ext_entries ?_
  rw [entries_eq_filterMap m, entries_eq_filterMap n, hk]
  simp only [hv]

/-- Maps with the same values are equal if their keys stand in one order, given by strict ranks. -/
theorem eq_of_get? {m n : OrderedMap α} (rank : String → Nat)
    (hm : m.keys.Pairwise fun j k => rank j < rank k) (hn : n.keys.Pairwise fun j k => rank j < rank k)
    (hv : ∀ k, m.get? k = n.get? k) : m = n := by
  have hperm : m.keys.Perm n.keys :=
    (List.perm_ext_iff_of_nodup m.distinct n.distinct).mpr fun k => by
      rw [← keys, ← keys, mem_keys_iff, mem_keys_iff, hv k]
  refine eq_of_keys (hperm.eq_of_pairwise (fun j k _ _ hjk hkj => ?_) hm hn) hv
  exact absurd (Nat.lt_trans hjk hkj) (Nat.lt_irrefl _)

/-! ### Writing pairs one after the other -/

theorem ofList_concat (pairs : List (String × α)) (e : String × α) :
    ofList (pairs ++ [e]) = (ofList pairs).insert e.1 e.2 := by
  rw [ofList, List.foldl_append]
  rfl

/-- A key has the value it came with last. -/
theorem get?_ofList (pairs : List (String × α)) (k : String) :
    (ofList pairs).get? k = pairs.reverse.lookup k := by
  induction pairs using List.reverseRecOn with
  | nil => rfl
  | append_singleton pairs e ih =>
    rw [ofList_concat, get?_insert, ih, List.reverse_concat, List.lookup_cons]
    by_cases h : k = e.1
    · simp [h]
    · simp [h, beq_eq_false_iff_ne.mpr h]

/-- A key has a value exactly if some pair has both and no later pair has the key. -/
theorem get?_ofList_eq_some_iff {pairs : List (String × α)} {k : String} {v : α} :
    (ofList pairs).get? k = some v ↔
      ∃ before after, pairs = before ++ (k, v) :: after ∧ ∀ e ∈ after, e.1 ≠ k := by
  rw [get?_ofList, List.lookup_eq_some_iff]
  constructor
  · rintro ⟨after, before, he, hlast⟩
    refine ⟨before.reverse, after.reverse, ?_, fun e h => ?_⟩
    · rw [← List.reverse_reverse pairs, he]
      simp
    · have := hlast e (List.mem_reverse.mp h)
      exact fun hk => by simp [hk] at this
  · rintro ⟨before, after, rfl, hlast⟩
    refine ⟨after.reverse, before.reverse, by simp, fun e h => ?_⟩
    simpa using Ne.symm (hlast e (List.mem_reverse.mp h))

theorem mem_keys_ofList {pairs : List (String × α)} {k : String} :
    k ∈ (ofList pairs).keys ↔ k ∈ pairs.map Prod.fst := by
  rw [mem_keys_iff]
  simp only [get?_ofList, ← Option.isSome_iff_exists, List.lookup_isSome_iff, List.mem_reverse,
    List.mem_map, beq_iff_eq]
  exact exists_congr fun e => and_congr_right fun _ => eq_comm

/-- Keys stand in the order in which they first came. -/
theorem pairwise_keys_ofList (pairs : List (String × α)) :
    (ofList pairs).keys.Pairwise fun j k =>
      (pairs.map Prod.fst).idxOf j < (pairs.map Prod.fst).idxOf k := by
  induction pairs using List.reverseRecOn with
  | nil => simp [ofList, keys, empty]
  | append_singleton pairs e ih =>
    have hold : ∀ {k}, k ∈ (ofList pairs).keys →
        ((pairs ++ [e]).map Prod.fst).idxOf k = (pairs.map Prod.fst).idxOf k := by
      intro k hk
      rw [List.map_append, List.idxOf_append_of_mem (mem_keys_ofList.mp hk)]
    have hkept : (ofList pairs).keys.Pairwise fun j k =>
        ((pairs ++ [e]).map Prod.fst).idxOf j < ((pairs ++ [e]).map Prod.fst).idxOf k := by
      refine ih.imp_of_mem fun hj hk h => ?_
      rwa [hold hj, hold hk]
    rw [ofList_concat, keys, entries_insert, keys_insertEntry]
    split
    · exact hkept
    · -- the key is new: it comes after all that are there
      rename_i hnew
      refine List.pairwise_append.mpr ⟨hkept, List.pairwise_singleton _ _, fun j hj k hk => ?_⟩
      rw [List.mem_singleton] at hk
      have hnot : k ∉ pairs.map Prod.fst := fun h => hnew (hk ▸ mem_keys_ofList.mpr h)
      have hlt : (pairs.map Prod.fst).idxOf j < (pairs.map Prod.fst).length :=
        List.idxOf_lt_length_of_mem (mem_keys_ofList.mp hj)
      rw [hold hj, List.map_append, List.idxOf_append_of_notMem hnot]
      omega

theorem insertEntry_of_not_mem {k : String} {v : α} : ∀ {es : List (String × α)},
    k ∉ es.map Prod.fst → insertEntry k v es = es ++ [(k, v)]
  | [], _ => rfl
  | e :: es, h => by
    rw [List.map_cons, List.mem_cons, not_or] at h
    have hne : e.1 ≠ k := fun he => h.1 he.symm
    rw [insertEntry, if_neg hne, insertEntry_of_not_mem h.2, List.cons_append]

/-- Pairs with distinct keys are the entries of their map. -/
theorem entries_ofList {pairs : List (String × α)} (h : (pairs.map Prod.fst).Nodup) :
    (ofList pairs).entries = pairs := by
  induction pairs using List.reverseRecOn with
  | nil => rfl
  | append_singleton pairs e ih =>
    rw [List.map_append, List.nodup_append] at h
    have hentries : (ofList pairs).entries = pairs := ih h.1
    have hnew : e.1 ∉ pairs.map Prod.fst := fun he => h.2.2 e.1 he e.1 (by simp) rfl
    rw [ofList_concat, entries_insert, hentries, insertEntry_of_not_mem hnew]

/-- Among the entries of some keys, writing under one of these keys is writing, and writing under another
key changes nothing. -/
theorem filter_insertEntry (p : String → Bool) (k : String) (v : α) : ∀ es : List (String × α),
    (insertEntry k v es).filter (fun e => p e.1) =
      if p k then insertEntry k v (es.filter fun e => p e.1) else es.filter fun e => p e.1
  | [] => by
    cases h : p k <;> simp [insertEntry, h]
  | e :: es => by
    have ih := filter_insertEntry p k v es
    by_cases hk : e.1 = k
    · subst hk
      cases h : p e.1 <;> simp [insertEntry, h]
    · have hcons : ∀ es, insertEntry k v (e :: es) = e :: insertEntry k v es := fun es => by
        simp [insertEntry, hk]
      rw [hcons, List.filter_cons, ih, List.filter_cons]
      cases p e.1 with
      | true =>
        cases p k with
        | true => exact (hcons _).symm
        | false => rfl
      | false => rfl

/-- The entries of some keys are those of the map that is written from the pairs of these keys. -/
theorem filter_entries_ofList (p : String → Bool) (pairs : List (String × α)) :
    (ofList pairs).entries.filter (fun e => p e.1) = (ofList (pairs.filter fun e => p e.1)).entries := by
  induction pairs using List.reverseRecOn with
  | nil => rfl
  | append_singleton pairs e ih =>
    rw [ofList_concat, entries_insert, filter_insertEntry, ih, List.filter_append]
    cases h : p e.1 with
    | true => simp [h, ofList_concat]
    | false => simp [h]

/-- A map is written again from its entries. -/
theorem ofList_entries (m : OrderedMap α) : ofList m.entries = m :=
  ext_entries (entries_ofList m.distinct)

/-- Writing pairs makes one entry of each at most. -/
theorem size_ofList_le (pairs : List (String × α)) : (ofList pairs).size ≤ pairs.length := by
  have hsub : (ofList pairs).keys ⊆ pairs.map Prod.fst := fun _ => mem_keys_ofList.mp
  have hle : (ofList pairs).keys.length ≤ (pairs.map Prod.fst).length :=
    (List.subperm_of_subset (ofList pairs).distinct hsub).length_le
  simpa only [keys, size, List.length_map] using hle

/-! ### Keeping some entries -/

theorem get?_filterMap (f : String → α → Option β) (m : OrderedMap α) (k : String) :
    (m.filterMap f).get? k = (m.get? k).bind (f k) := by
  ext v
  rw [get?_eq_some_iff, Option.bind_eq_some_iff]
  simp only [filterMap, List.mem_filterMap, Option.map_eq_some_iff, get?_eq_some_iff]
  constructor
  · rintro ⟨⟨j, w⟩, he, u, hu, hk⟩
    cases hk
    exact ⟨w, he, hu⟩
  · rintro ⟨w, he, hv⟩
    exact ⟨(k, w), he, v, hv, rfl⟩

theorem keys_filterMap_sublist (f : String → α → Option β) (m : OrderedMap α) :
    (m.filterMap f).keys.Sublist m.keys := by
  change ((m.entries.filterMap fun e => (f e.1 e.2).map (e.1, ·)).map Prod.fst).Sublist
    (m.entries.map Prod.fst)
  generalize m.entries = es
  induction es with
  | nil => exact .slnil
  | cons e es ih =>
    cases h : f e.1 e.2 with
    | none => simpa [List.filterMap_cons, h] using ih.cons e.1
    | some b => simpa [List.filterMap_cons, h] using ih.cons_cons e.1

theorem size_filterMap_le (f : String → α → Option β) (m : OrderedMap α) :
    (m.filterMap f).size ≤ m.size := by
  have hle : (m.filterMap f).keys.length ≤ m.keys.length := (keys_filterMap_sublist f m).length_le
  simpa only [keys, size, List.length_map] using hle

end OrderedMap
end Recipients
