/-
# Handles of a document

An object of a document is held by a pointer. Asking it for an accessor and loading a reference hand out
further values, and each value is looked up before it is handed out: an object at its pointer, a
reference to be looked up when it is loaded. So however long a sequence of questions and loads is, and
whatever pointers the document writes into its references, an object that it leads to is there, and no
reference. Only the root is held without a look.

Key definitions: `Move`, `Graph.reach?`, `Grounded`.
Key theorems: `at?_writtenToken`, `Graph.hasGetter_eq_isSome`, `grounded_move`, `grounded_reach?`,
`handles_never_dangle`.
-/
import Recipients.Proofs.Document.PointerText
import Recipients.Proofs.Document.TreeWalk

namespace Recipients

/-! ### Accessors of one object -/

/-- The member of a key stands where the pointer of the key leads. -/
theorem at?_writtenToken {d : Document} {pointer key : String} {members : List (String × Json)} {v : Json}
    (hplace : d.root.at? pointer = some (.obj members)) (hmember : (key, v) ∈ members) :
    d.root.at? (pointer ++ "/" ++ writtenToken key) = some v := by
  have hsorted : (Json.obj members).Sorted := Json.sorted_of_at? d.sorted hplace
  rw [Json.Sorted] at hsorted
  have hdistinct : (members.map Prod.fst).Nodup := hsorted.1.imp fun hlt => String.ne_of_lt hlt
  rw [← childPointer_eq, Json.at?_childPointer key hplace]
  exact OrderedMap.lookup_eq_some_of_mem hdistinct hmember

/-- A place of a document hands out a value. -/
theorem Graph.isSome_valueAt {g : Graph} {i : Nat} {d : Document} {pointer : String} {v : Json}
    (hd : g.documents[i]? = some d) (hv : d.root.at? pointer = some v) :
    (g.valueAt i pointer).isSome = true := by
  unfold valueAt
  cases v with
  | obj members => cases hr : (Json.obj members).reference? <;> simp [hd, hv, hr]
  | null => simp [hd, hv]
  | bool _ => simp [hd, hv]
  | num _ => simp [hd, hv]
  | str _ => simp [hd, hv]
  | arr _ => simp [hd, hv]

/-- A key that answers an accessor is a key of the object at the pointer. -/
theorem Graph.member_of_keyFor? {g : Graph} {i : Nat} {pointer accessor key : String}
    (h : g.keyFor? i pointer accessor = some key) :
    ∃ d members v, g.documents[i]? = some d ∧ d.root.at? pointer = some (.obj members) ∧
      (key, v) ∈ members := by
  obtain ⟨d, hd, hkey⟩ := Option.bind_eq_some_iff.mp h
  obtain ⟨stem, -, hkey⟩ := Option.bind_eq_some_iff.mp hkey
  obtain ⟨members, hmembers, hfind⟩ := Option.bind_eq_some_iff.mp hkey
  obtain ⟨⟨_, v⟩, hmember, rfl⟩ := List.mem_map.mp (List.mem_of_find?_eq_some hfind)
  exact ⟨d, members, v, hd, Document.members?_eq_some_iff.mp hmembers, hmember⟩

/-- An object has an accessor exactly if it answers it. -/
theorem Graph.hasGetter_eq_isSome (g : Graph) (object : ObjectRef) (accessor : String) :
    g.hasGetter object accessor = (g.callGetter object accessor).isSome := by
  cases object with
  | record id =>
    show (g.records[id]?).any (·.fields.contains accessor) =
      ((g.records[id]?).bind (·.fields.get? accessor)).isSome
    cases g.records[id]? with
    | none => rfl
    | some record => rfl
  | node i pointer =>
    show (g.keyFor? i pointer accessor).isSome =
      ((g.keyFor? i pointer accessor).bind fun key => g.valueAt i (childPointer pointer key)).isSome
    cases hkey : g.keyFor? i pointer accessor with
    | none => rfl
    | some key =>
      obtain ⟨d, members, v, hd, hplace, hmember⟩ := member_of_keyFor? hkey
      have hchild : d.root.at? (childPointer pointer key) = some v := by
        rw [childPointer_eq]
        exact at?_writtenToken hplace hmember
      rw [Option.isSome_some, Option.bind_some, isSome_valueAt hd hchild]

/-! ### Moves -/

/-- One move from a value to the next: an accessor of an object, or the load of a deferred value. -/
inductive Move where
  | call (accessor : String)
  | load

namespace Graph

/-- What a move leads to. -/
def move? (g : Graph) : FieldValue → Move → Option FieldValue
  | .object o, .call accessor => g.callGetter o accessor
  | .deferred ref, .load => g.load ref
  | _, _ => none

/-- What moves one after the other lead to. -/
def reach? (g : Graph) (v : FieldValue) (moves : List Move) : Option FieldValue :=
  moves.foldlM g.move? v

end Graph

/-- A value that a document can hand out: an object is there and no reference, and a deferred value is a
reference into the document. -/
inductive Grounded (d : Document) : FieldValue → Prop
  | scalar (v : Json) : Grounded d (.scalar v)
  | object {pointer : String} {members : List (String × Json)}
    (hplace : d.root.at? pointer = some (.obj members))
    (hobject : (Json.obj members).reference? = none) : Grounded d (.object (.node 0 pointer))
  | reference (target : String) : Grounded d (.deferred (.reference 0 target))

variable {d : Document}

theorem grounded_valueAt {pointer : String} {v : FieldValue}
    (h : (Graph.ofDocument d).valueAt 0 pointer = some v) : Grounded d v := by
  rw [valueAt_ofDocument] at h
  obtain ⟨w, hw, rfl⟩ := Option.map_eq_some_iff.mp h
  cases hr : w.reference? with
  | some target =>
    rw [handedOut_of_reference hr]
    exact .reference target
  | none =>
    cases w with
    | obj members =>
      have hout : handedOut pointer (.obj members) = .object (.node 0 pointer) := by
        simp only [handedOut, hr]
      rw [hout]
      exact .object hw hr
    | null => exact .scalar _
    | bool _ => exact .scalar _
    | num _ => exact .scalar _
    | str _ => exact .scalar _
    | arr _ => exact .scalar _

/-- Other documents hand out nothing. -/
theorem eq_zero_of_valueAt {i : Nat} {pointer : String} {v : FieldValue}
    (h : (Graph.ofDocument d).valueAt i pointer = some v) : i = 0 := by
  obtain ⟨_, hdocument, -⟩ := Option.bind_eq_some_iff.mp h
  obtain ⟨hlt, -⟩ := List.getElem?_eq_some_iff.mp hdocument
  exact Nat.lt_one_iff.mp hlt

/-- One move: whatever it starts from, it leads to a value that the document hands out. -/
theorem grounded_move {v w : FieldValue} {m : Move} (h : (Graph.ofDocument d).move? v m = some w) :
    Grounded d w := by
  unfold Graph.move? at h
  split at h
  · rename_i o accessor
    cases o with
    | record id => cases h
    | node i pointer =>
      obtain ⟨key, -, hvalue⟩ := Option.bind_eq_some_iff.mp h
      obtain rfl := eq_zero_of_valueAt hvalue
      exact grounded_valueAt hvalue
  · rename_i ref
    cases ref with
    | stored id => cases h
    | reference i target =>
      have hvalue : (Graph.ofDocument d).valueAt i target = some w := h
      obtain rfl := eq_zero_of_valueAt hvalue
      exact grounded_valueAt hvalue
  · cases h

/-- All moves: unless none is made, they lead to a value that the document hands out. -/
theorem grounded_reach? : ∀ (moves : List Move) {v w : FieldValue}, moves ≠ [] →
    (Graph.ofDocument d).reach? v moves = some w → Grounded d w
  | [], _, _, hne, _ => absurd rfl hne
  | m :: moves, v, w, _, h => by
    rw [Graph.reach?, List.foldlM_cons] at h
    obtain ⟨u, hu, hw⟩ := Option.bind_eq_some_iff.mp h
    by_cases hlast : moves = []
    · subst hlast
      cases hw
      exact grounded_move hu
    · exact grounded_reach? moves hlast hw

/-- **Handles never dangle, and their pointers lose nothing.** Take any document and any object that is
reached from its root by calling accessors and loading references, in any order. Unless it is the root
itself, its pointer leads to an object of the document that is no reference. The pointer of each key of
the object leads to exactly the value under the key, whatever tildes and slashes the key holds, and
different keys have different pointers. And the object has an accessor exactly if it answers it, whatever
keys are remembered at either question. -/
theorem handles_never_dangle (d : Document) (moves : List Move) (o : ObjectRef)
    (h : (Graph.ofDocument d).reach? (.object Graph.root) moves = some (.object o)) :
    ∃ pointer, o = .node 0 pointer ∧
      (moves = [] → o = Graph.root) ∧
      (moves ≠ [] → ∃ members, d.root.at? pointer = some (.obj members) ∧
        ∀ s, members ≠ [("$ref", .str s)]) ∧
      (∀ members, d.root.at? pointer = some (.obj members) → ∀ key v, (key, v) ∈ members →
        d.root.at? (pointer ++ "/" ++ writtenToken key) = some v) ∧
      (∀ key key', pointer ++ "/" ++ writtenToken key = pointer ++ "/" ++ writtenToken key' →
        key = key') ∧
      ∀ accessor c c', ((Graph.ofDocument d).hasGetterCached o accessor c).1 = true ↔
        ((Graph.ofDocument d).callGetterCached o accessor c').1 ≠ none := by
  have hgetter : ∀ accessor c c', ((Graph.ofDocument d).hasGetterCached o accessor c).1 = true ↔
      ((Graph.ofDocument d).callGetterCached o accessor c').1 ≠ none := by
    intro accessor c c'
    rw [Graph.hasGetterCached_fst, Graph.callGetterCached_fst, Graph.hasGetter_eq_isSome,
      Option.isSome_iff_ne_none]
  by_cases hmoves : moves = []
  · subst hmoves
    cases h
    exact ⟨"", rfl, fun _ => rfl, fun hne => absurd rfl hne, fun _ hplace _ _ => at?_writtenToken hplace,
      fun _ _ => eq_of_pointer_eq, hgetter⟩
  · cases grounded_reach? moves hmoves h with
    | @object _ members hplace hobject =>
      have hshape : ∀ s, members ≠ [("$ref", .str s)] := by
        rintro s rfl
        exact Json.reference?_eq_none_iff.mp hobject s rfl
      exact ⟨_, rfl, fun hnil => absurd hnil hmoves, fun _ => ⟨_, hplace, hshape⟩,
        fun _ hplace' _ _ => at?_writtenToken hplace', fun _ _ => eq_of_pointer_eq, hgetter⟩

/-- Two references, through an array and to keys that are nothing but marks; the last key holds a tilde in
front of two digits. -/
def knotted : Document :=
  .ofJson (.obj
    [("start", .obj [("$ref", .str "#/list/0")]),
      ("list", .arr [.obj [("x", .obj [("$ref", .str "/~01/~1~0")])]]),
      ("~1", .obj [("/~", .obj [("~01", .str "end")])])])

/-- From the root through both references. -/
def knottedMoves : List Move :=
  [.call "getStart", .load, .call "getX", .load]

/-- The moves lead to the object under two keys of marks, and the pointer of its key to the value. -/
theorem knotted_handles :
    (Graph.ofDocument knotted).reach? (.object Graph.root) knottedMoves =
      some (.object (.node 0 "/~01/~1~0")) ∧
    knotted.root.at? "/~01/~1~0" = some (.obj [("~01", .str "end")]) ∧
    knotted.root.at? ("/~01/~1~0" ++ "/" ++ writtenToken "~01") = some (.str "end") ∧
    writtenToken "~01" = "~001" := by
  have hreach : (Graph.ofDocument knotted).reach? (.object Graph.root) knottedMoves =
      some (.object (.node 0 "/~01/~1~0")) := by rfl
  have hplace : knotted.root.at? "/~01/~1~0" = some (.obj [("~01", .str "end")]) := by rfl
  obtain ⟨pointer, hpointer, -, -, hmembers, -, -⟩ := handles_never_dangle knotted knottedMoves _ hreach
  cases hpointer
  exact ⟨hreach, hplace, hmembers _ hplace "~01" _ (by simp), by decide⟩

end Recipients
