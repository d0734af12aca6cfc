/-
# Chains of field getters

A chain asks its getters one after the other, the latest first. A getter that declines, and one that
handles the pair but finds nothing, pass the question on; the first value found is the answer, falsy or
not. `consult` also lists the calls it makes: one `handles` for each getter it comes to, and one
`retrieves` after it if the getter handles the pair.

Key definitions: `FieldGetterChain`, `Call`, `FieldGetterChain.add`, `FieldGetterChain.remove`,
`FieldGetterChain.consult`, `FieldGetterChain.retrieve`.
-/
import Recipients.Getter.Basic

namespace Recipients

/-- What a call asks of a getter. -/
inductive CallKind where
  | handles
  | retrieves
  deriving DecidableEq

/-- One call of a getter about an accessor of an object. -/
structure Call where
  getter : Nat
  kind : CallKind
  object : ObjectRef
  accessor : String
  deriving DecidableEq

/-- Getters in the order in which they are asked. -/
structure FieldGetterChain where
  getters : List FieldGetter

namespace FieldGetterChain

/-- The chain without getters. -/
def empty : FieldGetterChain := ⟨[]⟩

/-- The chain of one stock getter. -/
def standard (identity : Nat) : FieldGetterChain := ⟨[.stock identity]⟩

/-- Puts a getter in front of all others. -/
def add (chain : FieldGetterChain) (getter : FieldGetter) : FieldGetterChain :=
  ⟨getter :: chain.getters⟩

/-- Takes every entry of the identity out, and tells whether there was one. -/
def remove (chain : FieldGetterChain) (identity : Nat) : FieldGetterChain × Bool :=
  let kept := chain.getters.filter (·.identity != identity)
  (⟨kept⟩, kept.length != chain.getters.length)

/-- Replaces all getters. -/
def set (_ : FieldGetterChain) (getters : List FieldGetter) : FieldGetterChain :=
  ⟨getters⟩

/-- The names of the getters in order. -/
def names (chain : FieldGetterChain) : List String :=
  chain.getters.map FieldGetter.name

/-- The number of entries. -/
def size (chain : FieldGetterChain) : Nat :=
  chain.getters.length

/-- Asks getters in order for the first value found, and lists the calls made on the way. -/
def consultAll (g : Graph) (object : ObjectRef) (accessor : String) :
    List FieldGetter → Option FieldValue × List Call
  | [] => (none, [])
  | f :: fs =>
    let asked : Call := ⟨f.identity, .handles, object, accessor⟩
    if f.handles g object accessor then
      let read : Call := ⟨f.identity, .retrieves, object, accessor⟩
      match f.retrieve g object accessor with
      | some v => (some v, [asked, read])
      | none =>
        let r := consultAll g object accessor fs
        (r.1, asked :: read :: r.2)
    else
      let r := consultAll g object accessor fs
      (r.1, asked :: r.2)

/-- Asks the chain about an accessor of an object. -/
def consult (chain : FieldGetterChain) (g : Graph) (object : ObjectRef) (accessor : String) :
    Option FieldValue × List Call :=
  consultAll g object accessor chain.getters

/-- The value that the chain finds. -/
def retrieve (chain : FieldGetterChain) (g : Graph) (object : ObjectRef) (accessor : String) :
    Option FieldValue :=
  (chain.consult g object accessor).1

end FieldGetterChain

end Recipients
