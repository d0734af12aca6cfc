/-
# Evaluation with remembered names

Camel-case names are computed once. An evaluator remembers the segments of the paths it is given, all
of them before the walk begins, and each document remembers the keys that were looked at while one of
its objects searched for an accessor, up to and including the one that matched. The values are those of
`evaluate` and `resolveReceivers`; what is new is which names each table holds afterwards.

Key definitions: `Caches`, `Graph.hasGetterCached`, `Graph.callGetterCached`, `evaluateCached`,
`accessorsCached`, `resolveReceiversCached`.
Key theorems: `walkCached_nil`, `walkCached_of_no_object`.
-/
import Recipients.CamelCache
import Recipients.Receivers

namespace Recipients

/-- The keys that each document has looked at. -/
abbrev DocumentCaches : Type := Nat → CamelCache

namespace DocumentCaches

/-- No document has looked at any key. -/
def empty : DocumentCaches := fun _ => .empty

/-- Replaces the table of one document. -/
def update (c : DocumentCaches) (d : Nat) (table : CamelCache) : DocumentCaches :=
  fun d' => if d' = d then table else c d'

end DocumentCaches

/-- What an evaluator remembers of segments, and the documents of their keys. -/
structure Caches where
  segments : CamelCache
  documents : DocumentCaches

namespace Caches

/-- Nothing is remembered. -/
def empty : Caches := ⟨.empty, .empty⟩

end Caches

/-! ### Objects -/

/-- The first key with the given camel-case form, and the table after the search. -/
def findKeyCached (stem : String) : List String → CamelCache → Option String × CamelCache
  | [], c => (none, c)
  | key :: keys, c =>
    let r := c.normalize key
    if r.1 = stem then (some key, r.2) else findKeyCached stem keys r.2

namespace Graph

/-- The key that answers an accessor at a place in a document. -/
def keyForCached (g : Graph) (d : Nat) (pointer accessor : String) (c : DocumentCaches) :
    Option String × DocumentCaches :=
  match accessorStem? accessor, (g.documents[d]?).bind (·.members? pointer) with
  | some stem, some members =>
    let r := findKeyCached stem (members.map Prod.fst) (c d)
    (r.1, c.update d r.2)
  | _, _ => (none, c)

/-- Whether the object answers the accessor. -/
def hasGetterCached (g : Graph) (object : ObjectRef) (accessor : String) (c : DocumentCaches) :
    Bool × DocumentCaches :=
  match object with
  | .record id => (g.hasGetter (.record id) accessor, c)
  | .node d pointer =>
    let r := g.keyForCached d pointer accessor c
    (r.1.isSome, r.2)

/-- What the object answers to the accessor. -/
def callGetterCached (g : Graph) (object : ObjectRef) (accessor : String) (c : DocumentCaches) :
    Option FieldValue × DocumentCaches :=
  match object with
  | .record id => (g.callGetter (.record id) accessor, c)
  | .node d pointer =>
    let r := g.keyForCached d pointer accessor c
    (r.1.bind fun key => g.valueAt d (childPointer pointer key), r.2)

end Graph

/-! ### Getters -/

namespace FieldGetter

/-- Whether the getter takes care of the accessor on the object. -/
def handlesCached (f : FieldGetter) (g : Graph) (object : ObjectRef) (accessor : String)
    (c : DocumentCaches) : Bool × DocumentCaches :=
  match f.rule with
  | .stock => g.hasGetterCached object accessor c
  | .custom handles _ => (handles g object accessor, c)

/-- What the getter finds. -/
def retrieveCached (f : FieldGetter) (g : Graph) (object : ObjectRef) (accessor : String)
    (c : DocumentCaches) : Option FieldValue × DocumentCaches :=
  match f.rule with
  | .stock =>
    let r := g.callGetterCached object accessor c
    (r.1.bind g.dereference, r.2)
  | .custom _ retrieve => (retrieve g object accessor, c)

end FieldGetter

namespace FieldGetterChain

/-- Asks getters in order for the first value found. -/
def retrieveAllCached (g : Graph) (object : ObjectRef) (accessor : String) :
    List FieldGetter → DocumentCaches → Option FieldValue × DocumentCaches
  | [], c => (none, c)
  | f :: fs, c =>
    let h := f.handlesCached g object accessor c
    if h.1 then
      let r := f.retrieveCached g object accessor h.2
      match r.1 with
      | some v => (some v, r.2)
      | none => retrieveAllCached g object accessor fs r.2
    else retrieveAllCached g object accessor fs h.2

/-- The value that the chain finds. -/
def retrieveCached (chain : FieldGetterChain) (g : Graph) (object : ObjectRef) (accessor : String)
    (c : DocumentCaches) : Option FieldValue × DocumentCaches :=
  retrieveAllCached g object accessor chain.getters c

end FieldGetterChain

/-! ### Paths and receivers -/

/-- Walks on from a value along the accessors. -/
def walkCached (g : Graph) (chain : FieldGetterChain) :
    Option FieldValue → List String → DocumentCaches → Walk × DocumentCaches
  | some (.object o), accessor :: rest, c =>
    let r := chain.retrieveCached g o accessor c
    let w := walkCached g chain r.1 rest r.2
    (⟨w.1.value, (o, accessor) :: w.1.asked⟩, w.2)
  | v, _, c => (⟨v, []⟩, c)

theorem walkCached_nil (g : Graph) (chain : FieldGetterChain) (v : Option FieldValue)
    (c : DocumentCaches) : walkCached g chain v [] c = (⟨v, []⟩, c) := by
  rcases v with _ | (_ | _ | _) <;> rfl

/-- What is no object is carried to the end, and no document is looked at. -/
theorem walkCached_of_no_object (g : Graph) (chain : FieldGetterChain) {v : Option FieldValue}
    (h : ∀ o, v ≠ some (.object o)) (accessors : List String) (c : DocumentCaches) :
    walkCached g chain v accessors c = (⟨v, []⟩, c) := by
  unfold walkCached
  split
  · rename_i o _ _
    exact absurd rfl (h o)
  · rfl

/-- The accessors of segments, and the table that knows the segments. -/
def accessorsCached : List String → CamelCache → List String × CamelCache
  | [], c => ([], c)
  | segment :: segments, c =>
    let r := c.normalize segment
    let rest := accessorsCached segments r.2
    (("get" ++ r.1) :: rest.1, rest.2)

/-- Evaluates a raw text at an object. -/
def evaluateCached (g : Graph) (chain : FieldGetterChain) (object : ObjectRef) (raw : String)
    (c : Caches) : Walk × Caches :=
  match PathExpression.parse? raw with
  | some path =>
    let names := accessorsCached path.segments c.segments
    let w := walkCached g chain (some (.object object)) names.1 c.documents
    (w.1, ⟨names.2, w.2⟩)
  | none => (⟨some (.ofText raw), []⟩, c)

/-- The texts of raw addresses and names, in order. -/
def resolvedPairsCached (g : Graph) (chain : FieldGetterChain) (object : ObjectRef) :
    List (String × String) → Caches → List (String × Option String) × Caches
  | [], c => ([], c)
  | (rawAddress, rawName) :: es, c =>
    let address := evaluateCached g chain object rawAddress c
    let name := evaluateCached g chain object rawName address.2
    let rest := resolvedPairsCached g chain object es name.2
    (((address.1.value.bind g.textOf).getD "", name.1.value.bind g.textOf) :: rest.1, rest.2)

/-- Resolves a configuration at an object. -/
def resolveReceiversCached (g : Graph) (chain : FieldGetterChain) (object : ObjectRef)
    (raw : ReceiverConfig) (c : Caches) : Receivers × Caches :=
  let r := resolvedPairsCached g chain object raw.entries c
  (collectReceivers r.1, r.2)

end Recipients
