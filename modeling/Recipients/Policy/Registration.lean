/-
# Registering siblings

A determiner takes a policy as sibling unless it lists that policy already, or a cycle of links is
reachable from the policy. The new sibling goes to the end of the list. All siblings can be replaced at
once: the new ones are taken one after the other, and if one of them is refused, the old list stays.

Key definitions: `RegistrationError`, `Registry.enlist`, `Registry.enlistAll`, `Registry.addSibling`,
`Registry.setSiblings`.
-/
import Recipients.Policy.Cycle

namespace Recipients

/-- Why a policy is refused as sibling; it is named. -/
inductive RegistrationError where
  | duplicate (name : String)
  | cycle (name : String)
  deriving DecidableEq

namespace Registry

/-- Takes a policy into a list of siblings, or refuses it. -/
def enlist (r : Registry) (listed : List PolicyId) (candidate : PolicyId) :
    Except RegistrationError (List PolicyId) :=
  if candidate ∈ listed then .error (.duplicate (r.nameOf candidate))
  else if r.hasCycle candidate then .error (.cycle (r.nameOf candidate))
  else .ok (listed ++ [candidate])

/-- Takes policies one after the other, up to the first that is refused. -/
def enlistAll (r : Registry) : List PolicyId → List PolicyId → Except RegistrationError (List PolicyId)
  | listed, [] => .ok listed
  | listed, p :: ps =>
    match r.enlist listed p with
    | .error e => .error e
    | .ok listed => enlistAll r listed ps

/-- Stores a new list of siblings, or keeps the registry as it is and tells why. -/
def store (r : Registry) (parent : PolicyId) :
    Except RegistrationError (List PolicyId) → Registry × Option RegistrationError
  | .ok siblings => (r.setLinks parent siblings, none)
  | .error e => (r, some e)

/-- Adds a sibling to a determiner. -/
def addSibling (r : Registry) (parent candidate : PolicyId) : Registry × Option RegistrationError :=
  r.store parent (r.enlist (r.links parent) candidate)

/-- Replaces the siblings of a determiner. -/
def setSiblings (r : Registry) (parent : PolicyId) (candidates : List PolicyId) :
    Registry × Option RegistrationError :=
  r.store parent (r.enlistAll [] candidates)

end Registry

end Recipients
