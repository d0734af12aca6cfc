/-
# Walking a path through the graph

A walk starts at an object and asks the chain for one accessor after the other, each time on the object
found before. It ends early where the value it holds is no object: a scalar or a deferred value is
carried to the end, and what is absent stays absent. A literal denotes itself, without a walk.

The chain is pure, so the calls made during a walk are those of its questions, one after the other.

Key definitions: `Walk`, `walk`, `evaluate`, `callsOf`, `textAt`.
Key theorems: `walk_nil`, `walk_of_no_object`.
-/
import Recipients.Getter.Chain
import Recipients.Path.Expression

namespace Recipients

/-- The value a walk ends with, and the questions it asked the chain. -/
structure Walk where
  value : Option FieldValue
  asked : List (ObjectRef × String)

/-- Walks on from a value along the accessors. -/
def walk (g : Graph) (chain : FieldGetterChain) : Option FieldValue → List String → Walk
  | some (.object o), accessor :: rest =>
    let w := walk g chain (chain.retrieve g o accessor) rest
    ⟨w.value, (o, accessor) :: w.asked⟩
  | v, _ => ⟨v, []⟩

theorem walk_nil (g : Graph) (chain : FieldGetterChain) (v : Option FieldValue) :
    walk g chain v [] = ⟨v, []⟩ := by
  rcases v with _ | (_ | _ | _) <;> rfl

/-- What is no object is carried to the end without a question. -/
theorem walk_of_no_object (g : Graph) (chain : FieldGetterChain) {v : Option FieldValue}
    (h : ∀ o, v ≠ some (.object o)) (accessors : List String) :
    walk g chain v accessors = ⟨v, []⟩ := by
  unfold walk
  split
  · rename_i o _ _
    exact absurd rfl (h o)
  · rfl

/-- Evaluates a raw text at an object: a path by walking it, a literal as itself. -/
def evaluate (g : Graph) (chain : FieldGetterChain) (object : ObjectRef) (raw : String) : Walk :=
  match PathExpression.parse? raw with
  | some path => walk g chain (some (.object object)) path.accessors
  | none => ⟨some (.ofText raw), []⟩

/-- The calls that the chain's getters receive for the questions. -/
def callsOf (g : Graph) (chain : FieldGetterChain) (asked : List (ObjectRef × String)) : List Call :=
  asked.flatMap fun q => (chain.consult g q.1 q.2).2

/-- The text form of a raw text evaluated at an object. -/
def textAt (g : Graph) (chain : FieldGetterChain) (object : ObjectRef) (raw : String) :
    Option String :=
  (evaluate g chain object raw).value.bind g.textOf

end Recipients
