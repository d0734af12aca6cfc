/-
# Edits of a getter chain

A chain is edited in three ways: a getter is put in front, every entry of an identity is taken out, or
all getters are replaced. A history is a list of edits, made one after the other. Taking out answers
whether there was an entry; the other edits answer nothing.

Key definitions: `ChainEdit`, `FieldGetterChain.edit`, `FieldGetterChain.editAll`,
`FieldGetterChain.edited`.
-/
import Recipients.Getter.Chain

namespace Recipients

/-- One edit of a chain. -/
inductive ChainEdit where
  | add (getter : FieldGetter)
  | remove (identity : Nat)
  | set (getters : List FieldGetter)

namespace FieldGetterChain

/-- The chain after an edit, and the edit's answer. -/
def edit (chain : FieldGetterChain) : ChainEdit → FieldGetterChain × Option Bool
  | .add getter => (chain.add getter, none)
  | .remove identity => ((chain.remove identity).1, some (chain.remove identity).2)
  | .set getters => (chain.set getters, none)

/-- Makes edits in order; each of them has its answer. -/
def editAll : FieldGetterChain → List ChainEdit → FieldGetterChain × List (Option Bool)
  | chain, [] => (chain, [])
  | chain, e :: es =>
    let r := chain.edit e
    let rest := editAll r.1 es
    (rest.1, r.2 :: rest.2)

/-- The chain after a history of edits. -/
def edited (chain : FieldGetterChain) (edits : List ChainEdit) : FieldGetterChain :=
  (chain.editAll edits).1

end FieldGetterChain

end Recipients
