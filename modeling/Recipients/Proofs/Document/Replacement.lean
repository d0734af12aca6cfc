/-
# Another value at a place

A place in a JSON value is known by the tokens that lead to it from the top. Putting another value there
changes what stands at the places around it, by the same replacement further in, and nothing that stands
at a place apart from it. Places are told apart by their tokens, in arrays too: an index is written in one
way only.

Key definitions: `Json.place?`, `Json.modifyChild`, `Json.put`.
Key theorems: `arrayIndex?_injective`, `Json.place?_put_append`, `Json.place?_put_apart`,
`Json.sorted_put`, `Json.childLike?_modifyChild`.
-/
import Recipients.Proofs.Document.PointerText
import Recipients.Proofs.Document.TreeWalk

namespace Recipients

/-! ### Indices -/

/-- No two tokens name one index. -/
theorem arrayIndex?_injective {token token' : List Char} {i : Nat} (h : arrayIndex? token = some i)
    (h' : arrayIndex? token' = some i) : token = token' :=
  (toDigits_of_arrayIndex? h).symm.trans (toDigits_of_arrayIndex? h')

namespace Json

variable {v w new : Json} {token token' : String} {p q : List String} {f : Json → Json}

/-! ### Places -/

/-- The value that tokens lead to. -/
def place? (v : Json) (tokens : List String) : Option Json :=
  tokens.foldlM child? v

theorem place?_cons : v.place? (token :: p) = (v.child? token).bind (·.place? p) := by
  rw [place?, List.foldlM_cons]
  rfl

theorem place?_append : v.place? (p ++ q) = (v.place? p).bind (·.place? q) := by
  rw [place?, List.foldlM_append]
  rfl

theorem at?_eq_place? {root : Json} {pointer : String} {tokens : List String}
    (h : pointerTokens? pointer = some tokens) : root.at? pointer = root.place? tokens := by
  rw [at?, h, Option.bind_some, place?]

/-- The value with what stands under the token changed. -/
def modifyChild (v : Json) (token : String) (f : Json → Json) : Json :=
  match v with
  | obj members => obj (members.map fun m => if m.1 = token then (m.1, f m.2) else m)
  | arr items =>
    match arrayIndex? token.toList with
    | some i => arr (items.modify i f)
    | none => arr items
  | v => v

/-- A changed array is an array. -/
theorem modifyChild_arr (items : List Json) (token : String) (f : Json → Json) :
    ∃ items', (arr items).modifyChild token f = arr items' := by
  cases hi : arrayIndex? token.toList with
  | none => exact ⟨items, by simp [modifyChild, hi]⟩
  | some i => exact ⟨items.modify i f, by simp [modifyChild, hi]⟩

/-- The value with another value put at the place that the tokens lead to. -/
def put : Json → List String → Json → Json
  | _, [], new => new
  | v, token :: tokens, new => v.modifyChild token fun child => child.put tokens new

theorem map_fst_modify (f : Json → Json) (token : String) (ms : List (String × Json)) :
    (ms.map fun m => if m.1 = token then (m.1, f m.2) else m).map Prod.fst = ms.map Prod.fst := by
  rw [List.map_map]
  refine List.map_congr_left fun m _ => ?_
  by_cases hm : m.1 = token <;> simp [hm]

theorem lookup_map_modify (f : Json → Json) (token key : String) : ∀ ms : List (String × Json),
    (ms.map fun m => if m.1 = token then (m.1, f m.2) else m).lookup key =
      if key = token then (ms.lookup key).map f else ms.lookup key
  | [] => by simp
  | (k, u) :: ms => by
    have ih := lookup_map_modify f token key ms
    have hfirst : (if k = token then (k, f u) else (k, u)) = (k, if k = token then f u else u) := by
      split <;> rfl
    rw [List.map_cons, hfirst, List.lookup_cons, List.lookup_cons, ih]
    by_cases hk : key = k
    · subst hk
      by_cases ht : key = token <;> simp [ht]
    · simp [beq_eq_false_iff_ne.mpr hk]

theorem child?_modifyChild : (v.modifyChild token f).child? token = (v.child? token).map f := by
  cases v with
  | obj members => simp [modifyChild, child?, lookup_map_modify]
  | arr items =>
    cases hi : arrayIndex? token.toList with
    | none => simp [modifyChild, child?, hi]
    | some i => simp [modifyChild, child?, hi, List.getElem?_modify]
  | null => rfl
  | bool _ => rfl
  | num _ => rfl
  | str _ => rfl

theorem child?_modifyChild_of_ne (h : token' ≠ token) :
    (v.modifyChild token f).child? token' = v.child? token' := by
  cases v with
  | obj members => simp [modifyChild, child?, lookup_map_modify, h]
  | arr items =>
    cases hi : arrayIndex? token.toList with
    | none => simp [modifyChild, hi]
    | some i =>
      cases hj : arrayIndex? token'.toList with
      | none => simp [modifyChild, child?, hi, hj]
      | some j =>
        have hij : i ≠ j := by
          rintro rfl
          exact h (String.toList_inj.mp (arrayIndex?_injective hj hi))
        simp [modifyChild, child?, hi, hj, List.getElem?_modify, hij]
  | null => rfl
  | bool _ => rfl
  | num _ => rfl
  | str _ => rfl

/-- Around the place stand the values that stood there, with the replacement further in. -/
theorem place?_put_append : ∀ {p : List String} {v : Json},
    (v.put (p ++ q) new).place? p = (v.place? p).map (·.put q new)
  | [], v => rfl
  | token :: p, v => by
    rw [List.cons_append, put, place?_cons, place?_cons, child?_modifyChild]
    cases v.child? token with
    | none => rfl
    | some w => exact place?_put_append

/-- Apart from the place stands what stood there. -/
theorem place?_put_apart : ∀ {p q : List String} {v : Json}, ¬ p <+: q → ¬ q <+: p →
    (v.put q new).place? p = v.place? p
  | [], q, _, h, _ => absurd List.nil_prefix h
  | _ :: _, [], _, _, h => absurd List.nil_prefix h
  | token' :: p, token :: q, v, hpq, hqp => by
    rw [put, place?_cons, place?_cons]
    by_cases ht : token' = token
    · subst ht
      rw [child?_modifyChild]
      cases v.child? token' with
      | none => rfl
      | some w =>
        have hpq' : ¬ p <+: q := fun h => hpq (List.cons_prefix_cons.mpr ⟨rfl, h⟩)
        have hqp' : ¬ q <+: p := fun h => hqp (List.cons_prefix_cons.mpr ⟨rfl, h⟩)
        exact place?_put_apart hpq' hqp'
    · rw [child?_modifyChild_of_ne ht]

/-! ### Standard form -/

theorem sorted_modifyChild (hv : v.Sorted) (hf : ∀ w : Json, w.Sorted → (f w).Sorted) :
    (v.modifyChild token f).Sorted := by
  cases v with
  | obj members =>
    rw [Sorted, sortedMembers_iff] at hv
    rw [modifyChild, Sorted, map_fst_modify, sortedMembers_iff]
    refine ⟨hv.1, fun m hm => ?_⟩
    obtain ⟨n, hn, rfl⟩ := List.mem_map.mp hm
    split
    · exact hf _ (hv.2 n hn)
    · exact hv.2 n hn
  | arr items =>
    rw [Sorted, sortedItems_iff] at hv
    rw [modifyChild]
    split
    · rw [Sorted, sortedItems_iff]
      intro w hw
      obtain ⟨j, hj⟩ := List.mem_iff_getElem?.mp hw
      rw [List.getElem?_modify] at hj
      obtain ⟨u, hu, rfl⟩ := Option.map_eq_some_iff.mp hj
      have hsorted : u.Sorted := hv u (List.mem_of_getElem? hu)
      split
      · exact hf u hsorted
      · exact hsorted
    · rwa [Sorted, sortedItems_iff]
  | null => exact hv
  | bool _ => exact hv
  | num _ => exact hv
  | str _ => exact hv

/-- A sorted value at a place of a sorted one leaves it sorted. -/
theorem sorted_put (hnew : new.Sorted) : ∀ {p : List String} {v : Json}, v.Sorted → (v.put p new).Sorted
  | [], _, _ => hnew
  | _ :: _, _, hv => sorted_modifyChild hv fun _ hw => sorted_put hnew hw

/-! ### Look-ups under a segment -/

theorem childLike?_congr {s s' : String} (h : camelCase s = camelCase s') :
    v.childLike? s = v.childLike? s' := by
  unfold childLike?
  rw [h]

/-- What a segment leads to is a member. -/
theorem child?_of_childLike? {s : String} (h : v.childLike? s = some w) :
    ∃ key, v.child? key = some w := by
  cases v with
  | obj members =>
    obtain ⟨key, -, hkey⟩ := Option.bind_eq_some_iff.mp h
    exact ⟨key, hkey⟩
  | null => cases h
  | bool _ => cases h
  | num _ => cases h
  | str _ => cases h
  | arr _ => cases h

/-- A segment leads to the same member as before, changed if it is the one under the token. -/
theorem childLike?_modifyChild (s : String) :
    (v.modifyChild token f).childLike? s = v.childLike? s ∨
    ∃ w, v.child? token = some w ∧ v.childLike? s = some w ∧
      (v.modifyChild token f).childLike? s = some (f w) := by
  cases v with
  | obj members =>
    simp only [modifyChild, childLike?, map_fst_modify, lookup_map_modify, child?]
    cases (members.map Prod.fst).mergeSort.find? fun key => camelCase key == camelCase s with
    | none => exact .inl rfl
    | some key =>
      simp only [Option.bind_some]
      by_cases hkey : key = token
      · subst hkey
        cases hw : members.lookup key with
        | none => exact .inl (by simp)
        | some w => exact .inr ⟨w, rfl, rfl, by simp⟩
      · exact .inl (by simp [hkey])
  | arr items =>
    obtain ⟨items', hitems⟩ := modifyChild_arr items token f
    rw [hitems]
    exact .inl rfl
  | null => exact .inl rfl
  | bool _ => exact .inl rfl
  | num _ => exact .inl rfl
  | str _ => exact .inl rfl

theorem modifyChild_object_iff : (∃ ms, v = .obj ms) ↔ ∃ ms, v.modifyChild token f = .obj ms := by
  cases v with
  | obj members => exact ⟨fun _ => ⟨_, rfl⟩, fun _ => ⟨_, rfl⟩⟩
  | arr items =>
    obtain ⟨items', hitems⟩ := modifyChild_arr items token f
    simp [hitems]
  | null => exact Iff.rfl
  | bool _ => exact Iff.rfl
  | num _ => exact Iff.rfl
  | str _ => exact Iff.rfl

/-- Only values without text have something under a token. -/
theorem text?_modifyChild :
    TreeValue.text? (.scalar v) = TreeValue.text? (.scalar (v.modifyChild token f)) := by
  cases v with
  | arr items =>
    obtain ⟨items', hitems⟩ := modifyChild_arr items token f
    rw [hitems]
    rfl
  | obj _ => rfl
  | null => rfl
  | bool _ => rfl
  | num _ => rfl
  | str _ => rfl

end Json

end Recipients
