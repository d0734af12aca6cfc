/-
# Field getters

A field getter is one way to read an accessor off an object. The stock getter asks the object itself and
loads what comes deferred; a custom getter decides on its own which objects and accessors it handles and
what it finds there. Getters are told apart by identity, not by name.

Key definitions: `FieldGetter`, `FieldGetter.handles`, `FieldGetter.retrieve`.
-/
import Recipients.Graph.Value

namespace Recipients

/-- How a getter works: by asking the object, or by rules of its own, which may look at the graph. -/
inductive GetterRule where
  | stock
  | custom (handles : Graph → ObjectRef → String → Bool)
      (retrieve : Graph → ObjectRef → String → Option FieldValue)

/-- A getter with its identity and its name. -/
structure FieldGetter where
  identity : Nat
  name : String
  rule : GetterRule

namespace FieldGetter

/-- A stock getter. -/
def stock (identity : Nat) : FieldGetter :=
  ⟨identity, "default", .stock⟩

/-- Whether the getter takes care of the accessor on the object. -/
def handles (f : FieldGetter) (g : Graph) (object : ObjectRef) (accessor : String) : Bool :=
  match f.rule with
  | .stock => g.hasGetter object accessor
  | .custom handles _ => handles g object accessor

/-- What the getter finds. -/
def retrieve (f : FieldGetter) (g : Graph) (object : ObjectRef) (accessor : String) :
    Option FieldValue :=
  match f.rule with
  | .stock => (g.callGetter object accessor).bind g.dereference
  | .custom _ retrieve => retrieve g object accessor

end FieldGetter

end Recipients
