/-
# Walking a document is walking its tree

An object of a document is known by a pointer, which is read from the root each time, and a reference
by the pointer that the document writes. The walk down the tree has no places to look up: it holds a value
of the tree, goes to the child of the first key spelled like the segment, and takes the value that a
reference stands for in its place. Both end with the same value, step by step, through loops of references
too; the object that the first ends with is the place where the second stands.

The walk is a computation here, which reads texts and references by the same functions as the graph does.
What it computes is said without them in `PlainWalk`.

Key definitions: `Json.childLike?`, `Json.settle?`, `TreeValue`, `treeWalk`, `treeEvaluate`, `Shows`.
Key theorems: `shows_settle?`, `shows_step`, `shows_treeWalk`, `shows_treeEvaluate`.
-/
import Recipients.Proofs.Document.PointerText
import Recipients.Proofs.Path.Remembered

namespace Recipients

/-! ### The walk down the tree -/

namespace Json

/-- The member under the first key, in the order of code points, with the segment's camel-case form. -/
def childLike? (v : Json) (segment : String) : Option Json :=
  match v with
  | obj members =>
    ((members.map Prod.fst).mergeSort.find? fun key => camelCase key == camelCase segment).bind
      fun key => members.lookup key
  | _ => none

/-- The value that a value stands for: itself unless it is a reference, else what the value of the root
that it points to stands for. At most `bound` references are replaced. -/
def settle? (root : Json) : Nat → Json → Option Json
  | 0, v => if v.reference?.isSome then none else some v
  | bound + 1, v =>
    match v.reference? with
    | none => some v
    | some target => (root.at? target).bind (settle? root bound)

end Json

/-- What the walk holds: a place to read further from, or a value that ends it. -/
inductive TreeValue where
  | node (v : Json)
  | scalar (v : Json)

/-- An object is read further, any other value ends the walk. -/
def TreeValue.of : Json → TreeValue
  | .obj members => node (.obj members)
  | v => scalar v

/-- The text form: a text unless it is empty or a single zero, the word for true, and a number unless it is
zero. Other values have none. -/
def TreeValue.text? : TreeValue → Option String
  | scalar (.str s) => if s = "" ∨ s = "0" then none else some s
  | scalar (.bool true) => some "true"
  | scalar (.num n) => if n.isZero then none else some (String.ofList n.text)
  | _ => none

/-- Walks on along the segments. -/
def treeWalk (root : Json) : Option TreeValue → List String → Option TreeValue
  | some (.node v), segment :: rest =>
    treeWalk root (((v.childLike? segment).bind (root.settle? maxLoads)).map .of) rest
  | v, _ => v

/-- Evaluates a raw text at the root of the tree, which is read whatever it is. -/
def treeEvaluate (root : Json) (raw : String) : Option TreeValue :=
  match PathExpression.parse? raw with
  | some path => treeWalk root (some (.node root)) path.segments
  | none => some (.scalar (.str raw))

/-- A value of the graph of a document is one of the tree: both are absent, both are the same scalar, or
the object is named by a pointer to the place. -/
inductive Shows (root : Json) : Option FieldValue → Option TreeValue → Prop
  | absent : Shows root none none
  | scalar (v : Json) : Shows root (some (.scalar v)) (some (.scalar v))
  | node {pointer : String} {v : Json} (h : root.PointsTo pointer v) :
    Shows root (some (.object (.node 0 pointer))) (some (.node v))

theorem shows_none_iff {root : Json} {v : Option FieldValue} : Shows root v none ↔ v = none := by
  constructor
  · rintro ⟨⟩
    rfl
  · rintro rfl
    exact .absent

theorem shows_scalar_iff {root s : Json} {v : Option FieldValue} :
    Shows root v (some (.scalar s)) ↔ v = some (.scalar s) := by
  constructor
  · rintro ⟨⟩
    rfl
  · rintro rfl
    exact .scalar s

/-! ### Reading one accessor -/

/-- An object that does not answer an accessor has nothing under it. -/
theorem Graph.callGetter_eq_none {g : Graph} {object : ObjectRef} {accessor : String}
    (h : g.hasGetter object accessor = false) : g.callGetter object accessor = none := by
  cases object with
  | record id =>
    simp only [hasGetter] at h
    simp only [callGetter]
    cases hr : g.records[id]? with
    | none => rfl
    | some record => simpa [hr, OrderedMap.contains] using h
  | node d pointer =>
    simp only [hasGetter] at h
    simp only [callGetter]
    cases hk : g.keyFor? d pointer accessor with
    | none => rfl
    | some key => simp [hk] at h

/-- The standard chain finds what the object answers, once it is loaded. -/
theorem FieldGetterChain.retrieve_standard (identity : Nat) (g : Graph) (object : ObjectRef)
    (accessor : String) :
    (standard identity).retrieve g object accessor =
      (g.callGetter object accessor).bind g.dereference := by
  have hhandles : (FieldGetter.stock identity).handles g object accessor =
      g.hasGetter object accessor := rfl
  have hread : (FieldGetter.stock identity).retrieve g object accessor =
      (g.callGetter object accessor).bind g.dereference := rfl
  unfold retrieve consult standard
  rw [← hread, consultAll]
  cases hh : (FieldGetter.stock identity).handles g object accessor with
  | false =>
    have hnone : (FieldGetter.stock identity).retrieve g object accessor = none := by
      rw [hread, Graph.callGetter_eq_none (hhandles.symm.trans hh), Option.bind_none]
    simp [consultAll, hnone]
  | true =>
    cases hv : (FieldGetter.stock identity).retrieve g object accessor with
    | none => simp [consultAll]
    | some v => simp

theorem accessorStem?_accessorName (name : String) :
    accessorStem? (accessorName name) = some (camelCase name) := by
  simp [accessorStem?, accessorName]

/-! ### Following references -/

/-- A value that is no reference stands for itself. -/
theorem Json.settle?_of_reference?_eq_none {root v : Json} (h : v.reference? = none) :
    ∀ bound, root.settle? bound v = some v
  | 0 => by simp [settle?, h]
  | bound + 1 => by simp [settle?, h]

/-- A value that stands for another leads where that leads, with one load less. -/
theorem follow_succ_of_next_eq_some {α : Type} {next : α → Option (Option α)} {a : α} {b : Option α}
    (h : next a = some b) (bound : Nat) :
    (follow next (bound + 1) a).1 = b.bind fun b => (follow next bound b).1 := by
  cases b with
  | none => simp [follow_succ_of_absent h]
  | some b => simp [follow_succ_of_load h]

/-- What is handed out for a value at a pointer: a deferred place for a reference, the place itself for
any other object. -/
def handedOut (pointer : String) (v : Json) : FieldValue :=
  match v, v.reference? with
  | .obj _, some target => .deferred (.reference 0 target)
  | .obj _, none => .object (.node 0 pointer)
  | v, _ => .scalar v

theorem handedOut_of_reference {v : Json} {target : String} (h : v.reference? = some target)
    (pointer : String) : handedOut pointer v = .deferred (.reference 0 target) := by
  cases v with
  | obj members => simp [handedOut, h]
  | null => cases h
  | bool _ => cases h
  | num _ => cases h
  | str _ => cases h
  | arr _ => cases h

variable (d : Document)

theorem next_handedOut {v : Json} (h : v.reference? = none) (pointer : String) :
    (Graph.ofDocument d).next (handedOut pointer v) = none := by
  cases v with
  | obj members => simp [handedOut, h, Graph.next]
  | null => rfl
  | bool _ => rfl
  | num _ => rfl
  | str _ => rfl
  | arr _ => rfl

theorem shows_handedOut {root v : Json} {pointer : String} (hv : root.at? pointer = some v)
    (h : v.reference? = none) : Shows root (some (handedOut pointer v)) (some (.of v)) := by
  cases v with
  | obj members =>
    simp only [handedOut, h]
    exact .node (Json.at?_eq_some_iff.mp hv)
  | null => exact .scalar _
  | bool _ => exact .scalar _
  | num _ => exact .scalar _
  | str _ => exact .scalar _
  | arr _ => exact .scalar _

theorem valueAt_ofDocument (pointer : String) :
    (Graph.ofDocument d).valueAt 0 pointer = (d.root.at? pointer).map (handedOut pointer) := by
  unfold Graph.valueAt Graph.ofDocument
  cases h : d.root.at? pointer with
  | none => simp [h]
  | some v =>
    cases v with
    | obj members => cases hr : (Json.obj members).reference? <;> simp [h, hr, handedOut]
    | null => simp [h, handedOut]
    | bool _ => simp [h, handedOut]
    | num _ => simp [h, handedOut]
    | str _ => simp [h, handedOut]
    | arr _ => simp [h, handedOut]

/-- Loading from a place ends with what the value there stands for, whatever references it leads
through and however many loads are left. -/
theorem shows_settle? : ∀ (bound : Nat) (pointer : String),
    Shows d.root
      (((Graph.ofDocument d).valueAt 0 pointer).bind fun v =>
        (follow (Graph.ofDocument d).next bound v).1)
      (((d.root.at? pointer).bind (d.root.settle? bound)).map .of)
  | bound, pointer => by
    rw [valueAt_ofDocument]
    cases hv : d.root.at? pointer with
    | none => exact .absent
    | some v =>
      simp only [Option.map_some, Option.bind_some]
      cases hr : v.reference? with
      | none =>
        rw [follow_of_next_eq_none (next_handedOut d hr pointer),
          Json.settle?_of_reference?_eq_none hr]
        exact shows_handedOut hv hr
      | some target =>
        have hnext : (Graph.ofDocument d).next (handedOut pointer v) =
            some ((Graph.ofDocument d).valueAt 0 target) := by
          rw [handedOut_of_reference hr]
          rfl
        cases bound with
        | zero =>
          -- the walk gives up on the loop or chain here, and so does the load
          have hnone : (follow (Graph.ofDocument d).next 0 (handedOut pointer v)).1 = none := by
            rw [follow_zero (by simp [hnext])]
          rw [hnone, Json.settle?, hr]
          exact .absent
        | succ bound =>
          -- both go on from the target, with one load less
          rw [follow_succ_of_next_eq_some hnext, Json.settle?, hr]
          exact shows_settle? bound target

/-! ### The walk -/

/-- The keys of an object in a document stand in the order of code points. -/
theorem mergeSort_keys {members : List (String × Json)} (h : (Json.obj members).Sorted) :
    (members.map Prod.fst).mergeSort = members.map Prod.fst := by
  rw [Json.Sorted] at h
  refine List.mergeSort_of_pairwise (h.1.imp fun hlt => ?_)
  exact decide_eq_true (String.not_lt.mp fun hgt => String.lt_irrefl _ (String.lt_trans hlt hgt))

/-- The key that answers an accessor, at a place that holds an object. -/
theorem keyFor?_ofDocument {pointer : String} {v : Json} (hv : d.root.at? pointer = some v)
    (segment : String) :
    (Graph.ofDocument d).keyFor? 0 pointer (accessorName segment) =
      v.members?.bind fun members =>
        (members.map Prod.fst).find? fun key => camelCase key == camelCase segment := by
  have hmembers : d.members? pointer = v.members? := by
    rw [Document.members?, hv, Option.bind_some]
  have hdocument : (Graph.ofDocument d).documents[0]? = some d := rfl
  rw [Graph.keyFor?, hdocument, Option.bind_some, Document.keyFor?, accessorStem?_accessorName, hmembers]
  rfl

/-- One accessor is one step of the walk. -/
theorem shows_step {pointer : String} {v : Json} (hv : d.root.at? pointer = some v)
    (identity : Nat) (segment : String) :
    Shows d.root
      ((FieldGetterChain.standard identity).retrieve (.ofDocument d) (.node 0 pointer)
        (accessorName segment))
      (((v.childLike? segment).bind (d.root.settle? maxLoads)).map .of) := by
  rw [FieldGetterChain.retrieve_standard, Graph.callGetter, keyFor?_ofDocument d hv]
  cases v with
  | obj members =>
    have hkeys := mergeSort_keys (Json.sorted_of_at? d.sorted hv)
    simp only [Json.members?, Option.bind_some, Json.childLike?, hkeys]
    cases (members.map Prod.fst).find? fun key => camelCase key == camelCase segment with
    | none => exact .absent
    | some key =>
      have hchild : d.root.at? (childPointer pointer key) = members.lookup key :=
        Json.at?_childPointer key hv
      have hshows := shows_settle? d maxLoads (childPointer pointer key)
      rw [hchild] at hshows
      exact hshows
  | null => exact .absent
  | bool _ => exact .absent
  | num _ => exact .absent
  | str _ => exact .absent
  | arr _ => exact .absent

/-- Walking on from a place of the graph shows walking on from the place of the tree. -/
theorem shows_treeWalk (identity : Nat) : ∀ (segments : List String) {v : Option FieldValue}
    {t : Option TreeValue}, Shows d.root v t →
      Shows d.root
        (walk (.ofDocument d) (.standard identity) v (segments.map accessorName)).value
        (treeWalk d.root t segments)
  | [], _, _, h => by
    cases h with
    | absent => exact .absent
    | scalar v => exact .scalar v
    | node hv => exact .node hv
  | segment :: segments, _, _, h => by
    cases h with
    | absent => exact .absent
    | scalar v => exact .scalar v
    | node hv =>
      simp only [List.map_cons, walk, treeWalk]
      exact shows_treeWalk identity segments
        (shows_step d (Json.at?_eq_some_iff.mpr hv) identity segment)

theorem shows_treeEvaluate (identity : Nat) (raw : String) :
    Shows d.root (evaluate (.ofDocument d) (.standard identity) Graph.root raw).value
      (treeEvaluate d.root raw) := by
  unfold evaluate treeEvaluate
  cases PathExpression.parse? raw with
  | none => exact .scalar _
  | some path => exact shows_treeWalk d identity path.segments (.node .here)

/-- The text of a scalar does not depend on the graph. -/
theorem textOf_scalar (g : Graph) (v : Json) : g.textOf (.scalar v) = TreeValue.text? (.scalar v) := by
  cases v with
  | bool b => cases b <;> rfl
  | null => rfl
  | num _ => rfl
  | str _ => rfl
  | arr _ => rfl
  | obj _ => rfl

/-- Values that show each other have one text. -/
theorem Shows.textOf_eq {root : Json} {v : Option FieldValue} {t : Option TreeValue}
    (h : Shows root v t) : v.bind (Graph.ofDocument d).textOf = t.bind TreeValue.text? := by
  cases h with
  | absent => rfl
  | scalar v => exact textOf_scalar _ v
  | node hv => rfl

end Recipients
