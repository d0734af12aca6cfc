/-
# Walks along joined paths

A walk carries one value and asks the chain for the next as long as the value is an object. So a walk
along two paths, one after the other, is the walk along the first and, from where that ends, the walk
along the second: no more is carried over than the value, and of what is remembered the tables. Where the
first ends with a scalar, with a deferred value that a custom getter has handed out, or with nothing, the
second asks nothing and changes nothing, whatever its segments are.

The accessors of the whole path are named before the walk begins, so the names of a tail that is never
read are remembered too; the documents are looked at only where the chain is asked.

Key definitions: `evaluatePath`, `evaluatePathCached`, `Walk.followedBy`, `PathExpression.append`.
Key theorems: `walk_append`, `walkCached_append`, `length_asked_le`, `asked_walk_append_cons`,
`path_walks_compose`.
-/
import Recipients.Proofs.Path.Remembered

namespace Recipients

/-- Evaluates a path at an object. -/
def evaluatePath (g : Graph) (chain : FieldGetterChain) (object : ObjectRef) (path : PathExpression) :
    Walk :=
  walk g chain (some (.object object)) path.accessors

/-- Evaluates a path at an object with remembered names: all accessors first, the walk after that. -/
def evaluatePathCached (g : Graph) (chain : FieldGetterChain) (object : ObjectRef)
    (path : PathExpression) (c : Caches) : Walk × Caches :=
  let names := accessorsCached path.segments c.segments
  let w := walkCached g chain (some (.object object)) names.1 c.documents
  (w.1, ⟨names.2, w.2⟩)

/-- The segments of one path and then those of another. -/
def PathExpression.append (p q : PathExpression) : PathExpression :=
  ⟨p.segments ++ q.segments⟩

/-- The questions of two walks in order, and the value of the second. -/
def Walk.followedBy (w w' : Walk) : Walk :=
  ⟨w'.value, w.asked ++ w'.asked⟩

/-- The object that a walk ends with, if it ends with one. -/
def Walk.object? (w : Walk) : Option ObjectRef :=
  w.value.bind FieldValue.object?

theorem Walk.object?_eq_some_iff {w : Walk} {o : ObjectRef} :
    w.object? = some o ↔ w.value = some (.object o) := by
  unfold object?
  rcases w.value with _ | (_ | _ | _) <;> simp [FieldValue.object?]

/-- A walk ends with no object if it ends with a scalar, with a deferred value, or with nothing. -/
theorem Walk.object?_eq_none_iff {w : Walk} :
    w.object? = none ↔ ∀ o, w.value ≠ some (.object o) := by
  have hsome : ∀ o, w.object? = some o ↔ w.value = some (.object o) := fun o => object?_eq_some_iff
  rw [Option.eq_none_iff_forall_ne_some]
  exact forall_congr' fun o => not_congr (hsome o)

variable (g : Graph) (chain : FieldGetterChain)

theorem evaluateCached_of_parse? {raw : String} {path : PathExpression}
    (h : PathExpression.parse? raw = some path) (object : ObjectRef) (c : Caches) :
    evaluateCached g chain object raw c = evaluatePathCached g chain object path c := by
  unfold evaluateCached evaluatePathCached
  rw [h]

theorem evaluatePathCached_fst (object : ObjectRef) (path : PathExpression) (c : Caches) :
    (evaluatePathCached g chain object path c).1 = evaluatePath g chain object path := by
  unfold evaluatePathCached evaluatePath
  simp only [walkCached_fst, accessorsCached_fst, PathExpression.accessors]

/-! ### One walk after another -/

/-- A walk goes on from where an earlier one has ended. -/
theorem walk_append (q : List String) : ∀ (p : List String) (v : Option FieldValue),
    walk g chain v (p ++ q) =
      (walk g chain v p).followedBy (walk g chain (walk g chain v p).value q)
  | [], v => by
    rw [walk_nil, Walk.followedBy, List.nil_append, List.nil_append]
  | accessor :: p, v => by
    by_cases h : ∃ o, v = some (.object o)
    · obtain ⟨o, rfl⟩ := h
      have hrest := walk_append q p (chain.retrieve g o accessor)
      simp only [List.cons_append, walk, hrest, Walk.followedBy]
    · -- neither walk gets going
      have hno : ∀ o, v ≠ some (.object o) := not_exists.mp h
      simp only [walk_of_no_object g chain hno, Walk.followedBy, List.append_nil]

/-- It goes on with the documents' tables as the earlier one has left them. -/
theorem walkCached_append (q : List String) :
    ∀ (p : List String) (v : Option FieldValue) (c : DocumentCaches),
    walkCached g chain v (p ++ q) c =
      (let w := walkCached g chain v p c
       let w' := walkCached g chain w.1.value q w.2
       (w.1.followedBy w'.1, w'.2))
  | [], v, c => by
    simp only [List.nil_append, walkCached_nil, Walk.followedBy]
  | accessor :: p, v, c => by
    by_cases h : ∃ o, v = some (.object o)
    · obtain ⟨o, rfl⟩ := h
      have hrest := walkCached_append q p (chain.retrieveCached g o accessor c).1
        (chain.retrieveCached g o accessor c).2
      simp only [List.cons_append, walkCached, hrest, Walk.followedBy]
    · have hno : ∀ o, v ≠ some (.object o) := not_exists.mp h
      simp only [walkCached_of_no_object g chain hno, Walk.followedBy, List.append_nil]

/-! ### The questions of a walk -/

/-- Each segment is asked for once at most. -/
theorem length_asked_le : ∀ (accessors : List String) (v : Option FieldValue),
    (walk g chain v accessors).asked.length ≤ accessors.length
  | [], v => by
    simp [walk_nil]
  | accessor :: rest, v => by
    by_cases h : ∃ o, v = some (.object o)
    · obtain ⟨o, rfl⟩ := h
      have hrest := length_asked_le rest (chain.retrieve g o accessor)
      simp only [walk, List.length_cons]
      omega
    · simp [walk_of_no_object g chain (not_exists.mp h)]

/-- A walk that ends with an object has asked for every segment: it can only have gone on from objects. -/
theorem length_asked_of_object {o : ObjectRef} : ∀ (accessors : List String) (v : Option FieldValue),
    (walk g chain v accessors).value = some (.object o) →
    (walk g chain v accessors).asked.length = accessors.length
  | [], v, _ => by
    simp [walk_nil]
  | accessor :: rest, v, hend => by
    by_cases h : ∃ o, v = some (.object o)
    · obtain ⟨o', rfl⟩ := h
      have hrest := length_asked_of_object rest (chain.retrieve g o' accessor) hend
      simp only [walk, List.length_cons, hrest]
    · have hno : ∀ o, v ≠ some (.object o) := not_exists.mp h
      rw [walk_of_no_object g chain hno] at hend
      exact absurd hend (hno o)

/-- An accessor is asked for exactly if the walk up to it ends with an object, and then of that object. -/
theorem asked_walk_append_cons (before : List String) (accessor : String) (after : List String)
    (v : Option FieldValue) :
    (walk g chain v (before ++ accessor :: after)).asked[before.length]? =
      (walk g chain v before).object?.map fun o => (o, accessor) := by
  have happend := walk_append g chain (accessor :: after) before v
  set w := walk g chain v before with hw
  rw [happend]
  cases ho : w.object? with
  | some o =>
    have hvalue : w.value = some (.object o) := Walk.object?_eq_some_iff.mp ho
    have hlength : w.asked.length = before.length := by
      rw [hw] at hvalue ⊢
      exact length_asked_of_object g chain before v hvalue
    simp [Walk.followedBy, hvalue, walk, ← hlength]
  | none =>
    have hvalue : ∀ o, w.value ≠ some (.object o) := Walk.object?_eq_none_iff.mp ho
    have hlength : w.asked.length ≤ before.length := by
      rw [hw]
      exact length_asked_le g chain before v
    simp [Walk.followedBy, walk_of_no_object g chain hvalue, hlength]

/-! ### Paths -/

theorem length_asked_evaluatePath_le (object : ObjectRef) (path : PathExpression) :
    (evaluatePath g chain object path).asked.length ≤ path.segments.length := by
  have hle := length_asked_le g chain path.accessors (some (.object object))
  have hnames : path.accessors.length = path.segments.length := List.length_map _
  rw [hnames] at hle
  exact hle

/-- **Walks compose.** If a path ends with an object, the longer path asks on from there: it has the
questions of the first part, then those of the second at that object, and ends as the second does. If the
first part ends with anything else, be it a scalar, a deferred value or nothing, every longer path is the
same walk, and no document is looked at any more. A walk asks for a segment exactly if the segments
before it lead to an object, and asks that object; so there are at most as many questions as segments.
All this is what the evaluation of a raw text does, whatever names are remembered. -/
theorem path_walks_compose (object : ObjectRef) (p q : PathExpression) :
    (∀ o, (evaluatePath g chain object p).value = some (.object o) →
      evaluatePath g chain object (p.append q) =
        (evaluatePath g chain object p).followedBy (evaluatePath g chain o q)) ∧
    ((∀ o, (evaluatePath g chain object p).value ≠ some (.object o)) →
      evaluatePath g chain object (p.append q) = evaluatePath g chain object p ∧
      ∀ c, (evaluatePathCached g chain object (p.append q) c).2.documents =
        (evaluatePathCached g chain object p c).2.documents) ∧
    (evaluatePath g chain object p).asked.length ≤ p.segments.length ∧
    (∀ before segment after, p.segments = before ++ segment :: after →
      (evaluatePath g chain object p).asked[before.length]? =
        (evaluatePath g chain object ⟨before⟩).object?.map fun o => (o, accessorName segment)) ∧
    ∀ raw c, PathExpression.parse? raw = some p →
      (evaluateCached g chain object raw c).1 = evaluatePath g chain object p := by
  have happend : (p.append q).accessors = p.accessors ++ q.accessors := List.map_append
  refine ⟨fun o ho => ?_, fun hno => ⟨?_, fun c => ?_⟩, ?_, fun before segment after hp => ?_,
    fun raw c hraw => ?_⟩
  · unfold evaluatePath at ho ⊢
    rw [happend, walk_append, ho]
  · unfold evaluatePath at hno ⊢
    rw [happend, walk_append, walk_of_no_object g chain hno]
    simp [Walk.followedBy]
  · have hvalue : ∀ o, (walkCached g chain (some (.object object)) p.accessors c.documents).1.value ≠
        some (.object o) := by
      rw [walkCached_fst]
      exact hno
    unfold evaluatePathCached
    simp only [accessorsCached_fst]
    show (walkCached g chain _ (p.append q).accessors c.documents).2 =
      (walkCached g chain _ p.accessors c.documents).2
    rw [happend, walkCached_append]
    simp only [walkCached_of_no_object g chain hvalue]
  · exact length_asked_evaluatePath_le g chain object p
  · have haccessors : p.accessors = before.map accessorName ++ accessorName segment ::
        after.map accessorName := by
      simp [PathExpression.accessors, hp]
    have hasked := asked_walk_append_cons g chain (before.map accessorName) (accessorName segment)
      (after.map accessorName) (some (.object object))
    rw [← haccessors, List.length_map] at hasked
    exact hasked
  · rw [evaluateCached_of_parse? g chain hraw, evaluatePathCached_fst]

/-- An order with its customer. -/
def giftOrder : Graph :=
  .ofDocument (.ofJson (.obj [("customer", .obj [("email", .str "c@example.com")])]))

/-- Names the courier of every object by a deferred value, and does not load it. -/
def courierDesk : FieldGetter where
  identity := 1
  name := "couriers"
  rule := .custom (fun _ _ accessor => accessor = "getCourier") fun _ _ _ => some (.deferred (.stored 0))

/-- The stock getter behind the courier desk. -/
def deskChain : FieldGetterChain := (FieldGetterChain.standard 0).add courierDesk

/-- From the order to the customer, and from there on to the address; the way to the customer's courier
ends with a deferred value, and what is written behind it makes no difference. -/
theorem path_walks_giftOrder :
    (evaluatePath giftOrder deskChain Graph.root ⟨["customer"]⟩).value =
      some (.object (.node 0 "/customer")) ∧
    evaluatePath giftOrder deskChain Graph.root ⟨["customer", "email"]⟩ =
      (evaluatePath giftOrder deskChain Graph.root ⟨["customer"]⟩).followedBy
        (evaluatePath giftOrder deskChain (.node 0 "/customer") ⟨["email"]⟩) ∧
    (evaluatePath giftOrder deskChain Graph.root ⟨["customer", "courier"]⟩).value.map
      FieldValue.isDeferred = some true ∧
    evaluatePath giftOrder deskChain Graph.root ⟨["customer", "courier", "email"]⟩ =
      evaluatePath giftOrder deskChain Graph.root ⟨["customer", "courier"]⟩ := by
  have hcustomer : (evaluatePath giftOrder deskChain Graph.root ⟨["customer"]⟩).value =
      some (.object (.node 0 "/customer")) := by
    apply Walk.object?_eq_some_iff.mp
    decide +kernel
  have hcourier : ∀ o, (evaluatePath giftOrder deskChain Graph.root ⟨["customer", "courier"]⟩).value ≠
      some (.object o) := by
    apply Walk.object?_eq_none_iff.mp
    decide +kernel
  have honwards := path_walks_compose giftOrder deskChain Graph.root ⟨["customer"]⟩ ⟨["email"]⟩
  have hended := path_walks_compose giftOrder deskChain Graph.root ⟨["customer", "courier"]⟩ ⟨["email"]⟩
  exact ⟨hcustomer, honwards.1 _ hcustomer, by decide +kernel, (hended.2.1 hcourier).1⟩

end Recipients
