/-
# Calls of one evaluator

An evaluator is used for many calls: to evaluate a raw text, to name the accessors of a parsed path, and
to resolve a configuration. Between them its getters may be changed, and the objects may be asked
directly. What goes on from call to call is the getter chain, and what the evaluator remembers of
segments and the documents of their keys.

Key definitions: `EvaluatorCall`, `EvaluatorAnswer`, `EvaluatorCall.answerCached`,
`Evaluator.callCached`, `Evaluator.runCached`.
-/
import Recipients.Getter.Edits
import Recipients.Path.Evaluator

namespace Recipients

/-- A call of an evaluator; a direct question to an object, whether it has an accessor or for the value;
or an edit of the getters. A path comes with the text it was parsed from. -/
inductive EvaluatorCall where
  | evaluate (object : ObjectRef) (raw : String)
  | accessors (raw : String) (path : PathExpression) (parsed : PathExpression.parse? raw = some path)
  | resolve (object : ObjectRef) (raw : ReceiverConfig)
  | asks (object : ObjectRef) (accessor : String)
  | reads (object : ObjectRef) (accessor : String)
  | edits (edit : ChainEdit)

/-- The answer to a call of the kind of the same place. -/
inductive EvaluatorAnswer where
  | walk (w : Walk)
  | names (accessors : List String)
  | receivers (receivers : Receivers)
  | has (has : Bool)
  | value (value : Option FieldValue)
  | found (found : Option Bool)

/-- The getters of an evaluator, and what is remembered by it and by the documents. -/
structure Evaluator where
  getters : FieldGetterChain
  caches : Caches

namespace EvaluatorCall

/-- Answers a call with the getters at hand. -/
def answerCached (g : Graph) (chain : FieldGetterChain) (call : EvaluatorCall) (c : Caches) :
    EvaluatorAnswer × Caches :=
  match call with
  | .evaluate object raw =>
    let r := evaluateCached g chain object raw c
    (.walk r.1, r.2)
  | .accessors _ path _ =>
    let r := accessorsCached path.segments c.segments
    (.names r.1, ⟨r.2, c.documents⟩)
  | .resolve object raw =>
    let r := resolveReceiversCached g chain object raw c
    (.receivers r.1, r.2)
  | .asks object accessor =>
    let r := g.hasGetterCached object accessor c.documents
    (.has r.1, ⟨c.segments, r.2⟩)
  | .reads object accessor =>
    let r := g.callGetterCached object accessor c.documents
    (.value r.1, ⟨c.segments, r.2⟩)
  | .edits edit => (.found (chain.edit edit).2, c)

/-- The edit that a call makes, if it is one. -/
def edit? : EvaluatorCall → Option ChainEdit
  | .edits edit => some edit
  | _ => none

/-- The raw texts that a call hands to the evaluator. -/
def raws : EvaluatorCall → List String
  | .evaluate _ raw => [raw]
  | .accessors raw _ _ => [raw]
  | .resolve _ raw => raw.entries.flatMap fun e => [e.1, e.2]
  | _ => []

end EvaluatorCall

namespace Evaluator

/-- An evaluator with these getters, with nothing remembered anywhere. -/
def fresh (chain : FieldGetterChain) : Evaluator := ⟨chain, .empty⟩

/-- Answers one call. -/
def callCached (e : Evaluator) (g : Graph) (call : EvaluatorCall) : EvaluatorAnswer × Evaluator :=
  let answered := call.answerCached g e.getters e.caches
  (answered.1, ⟨e.getters.edited call.edit?.toList, answered.2⟩)

/-- Answers calls one after the other. -/
def runCached (g : Graph) : Evaluator → List EvaluatorCall → List EvaluatorAnswer × Evaluator
  | e, [] => ([], e)
  | e, call :: calls =>
    let answered := e.callCached g call
    let rest := runCached g answered.2 calls
    (answered.1 :: rest.1, rest.2)

end Evaluator

end Recipients
