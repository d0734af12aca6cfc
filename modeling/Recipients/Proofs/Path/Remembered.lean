/-
# Remembered names change no answer

Every entry of a table of names is the camel case of its key, so a name answers the same whether the
table knows it or not. This carries up from one look-up to searching a key, asking a getter or a chain,
walking a path and resolving a configuration: whatever the tables hold at the start, the values are
those of the plain functions.

Key theorems: `CamelCache.normalize_fst`, `evaluateCached_fst`, `resolveReceiversCached_fst`.
-/
import Recipients.Path.Evaluator
import Recipients.Proofs.OrderedMap

namespace Recipients

theorem CamelCache.normalize_fst (c : CamelCache) (name : String) :
    (c.normalize name).1 = camelCase name := by
  unfold normalize
  cases h : c.table.get? name with
  | none => rfl
  | some known => exact c.exact _ (OrderedMap.get?_eq_some_iff.mp h)

theorem findKeyCached_fst (stem : String) : ∀ (keys : List String) (c : CamelCache),
    (findKeyCached stem keys c).1 = keys.find? fun key => camelCase key == stem
  | [], _ => rfl
  | key :: keys, c => by
    simp only [findKeyCached, CamelCache.normalize_fst, List.find?_cons]
    by_cases h : camelCase key = stem
    · simp [h]
    · simp [beq_eq_false_iff_ne.mpr h, h, findKeyCached_fst stem keys]

namespace Graph

variable (g : Graph) (object : ObjectRef) (accessor : String) (c : DocumentCaches)

theorem keyForCached_fst (d : Nat) (pointer : String) :
    (g.keyForCached d pointer accessor c).1 = g.keyFor? d pointer accessor := by
  unfold keyForCached keyFor? Document.keyFor?
  cases accessorStem? accessor with
  | none => cases g.documents[d]? <;> rfl
  | some stem =>
    cases hd : g.documents[d]? with
    | none => rfl
    | some document =>
      cases hm : document.members? pointer with
      | none => simp [hm]
      | some members => simp [hm, findKeyCached_fst]

theorem hasGetterCached_fst :
    (g.hasGetterCached object accessor c).1 = g.hasGetter object accessor := by
  cases object with
  | record id => rfl
  | node d pointer => exact congrArg Option.isSome (g.keyForCached_fst accessor c d pointer)

theorem callGetterCached_fst :
    (g.callGetterCached object accessor c).1 = g.callGetter object accessor := by
  cases object with
  | record id => rfl
  | node d pointer => simp only [callGetterCached, callGetter, keyForCached_fst]

end Graph

namespace FieldGetter

variable (f : FieldGetter) (g : Graph) (object : ObjectRef) (accessor : String) (c : DocumentCaches)

theorem handlesCached_fst : (f.handlesCached g object accessor c).1 = f.handles g object accessor := by
  unfold handlesCached handles
  cases f.rule with
  | stock => exact g.hasGetterCached_fst object accessor c
  | custom _ _ => rfl

theorem retrieveCached_fst :
    (f.retrieveCached g object accessor c).1 = f.retrieve g object accessor := by
  unfold retrieveCached retrieve
  cases f.rule with
  | stock => simp only [Graph.callGetterCached_fst]
  | custom _ _ => rfl

end FieldGetter

namespace FieldGetterChain

variable (g : Graph) (object : ObjectRef) (accessor : String)

theorem retrieveAllCached_fst : ∀ (fs : List FieldGetter) (c : DocumentCaches),
    (retrieveAllCached g object accessor fs c).1 = (consultAll g object accessor fs).1
  | [], _ => rfl
  | f :: fs, c => by
    simp only [retrieveAllCached, consultAll, FieldGetter.handlesCached_fst]
    cases f.handles g object accessor with
    | false => exact retrieveAllCached_fst fs _
    | true =>
      simp only [if_true, FieldGetter.retrieveCached_fst]
      cases f.retrieve g object accessor with
      | none => exact retrieveAllCached_fst fs _
      | some v => rfl

theorem retrieveCached_fst (chain : FieldGetterChain) (c : DocumentCaches) :
    (chain.retrieveCached g object accessor c).1 = chain.retrieve g object accessor :=
  retrieveAllCached_fst g object accessor chain.getters c

end FieldGetterChain

variable (g : Graph) (chain : FieldGetterChain)

theorem walkCached_fst : ∀ (accessors : List String) (v : Option FieldValue) (c : DocumentCaches),
    (walkCached g chain v accessors c).1 = walk g chain v accessors
  | [], v, c => by rw [walkCached_nil, walk_nil]
  | _ :: _, none, _ => rfl
  | _ :: _, some (.scalar _), _ => rfl
  | _ :: _, some (.deferred _), _ => rfl
  | accessor :: rest, some (.object o), c => by
    simp only [walkCached, walk, FieldGetterChain.retrieveCached_fst, walkCached_fst rest]

theorem accessorsCached_fst : ∀ (segments : List String) (c : CamelCache),
    (accessorsCached segments c).1 = segments.map accessorName
  | [], _ => rfl
  | segment :: segments, c => by
    simp only [accessorsCached, CamelCache.normalize_fst, accessorsCached_fst segments, List.map_cons,
      accessorName]

/-- Evaluation with remembered names is evaluation. -/
theorem evaluateCached_fst (object : ObjectRef) (raw : String) (c : Caches) :
    (evaluateCached g chain object raw c).1 = evaluate g chain object raw := by
  unfold evaluateCached evaluate
  cases PathExpression.parse? raw with
  | none => rfl
  | some path => simp only [walkCached_fst, accessorsCached_fst, PathExpression.accessors]

theorem resolvedPairsCached_fst (object : ObjectRef) : ∀ (es : List (String × String)) (c : Caches),
    (resolvedPairsCached g chain object es c).1 =
      es.map fun e => ((textAt g chain object e.1).getD "", textAt g chain object e.2)
  | [], _ => rfl
  | (rawAddress, rawName) :: es, c => by
    simp only [resolvedPairsCached, evaluateCached_fst, resolvedPairsCached_fst object es, List.map_cons,
      textAt]

/-- Resolving with remembered names is resolving. -/
theorem resolveReceiversCached_fst (object : ObjectRef) (raw : ReceiverConfig) (c : Caches) :
    (resolveReceiversCached g chain object raw c).1 = resolveReceivers g chain object raw := by
  simp only [resolveReceiversCached, resolvedPairsCached_fst, resolveReceivers, resolvedPairs]

end Recipients
