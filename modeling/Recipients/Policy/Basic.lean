/-
# Policies

A policy determines the receivers of a notification. A determiner claims some pairs of object and event,
or all of them, resolves receivers with a getter chain of its own, and lists siblings to which it would
rather leave a pair. A leaf is a policy of any other kind: it accepts pairs, answers receivers by a rule
of its own, and never passes a question on, but may be linked to further policies.

A registry holds the policies; each is named by its place, which is its identity. Sibling lists and links
name policies of the same registry, so that policies can be shared and changed.

Key definitions: `Claim`, `Determiner`, `Leaf`, `Policy`, `Registry`, `Registry.links`.
-/
import Recipients.Receivers
import Recipients.Text.Quoted

namespace Recipients

/-- The place of a policy in its registry. -/
abbrev PolicyId : Type := Nat

/-- Whether an object and an event, or no event, are claimed. -/
abbrev Claim : Type := Graph → ObjectRef → Option String → Bool

namespace Claim

/-- Claims one event, for any object. -/
def ofEvent (event : String) : Claim := fun _ _ e => e == some event

/-- Claims the objects of one type, for any event or none. -/
def ofType (typeName : String) : Claim := fun g object _ => g.typeName object == typeName

end Claim

/-- A policy with siblings and a getter chain; without a claim it takes every pair. -/
structure Determiner where
  name : String
  claim : Option Claim
  siblings : List PolicyId
  getters : FieldGetterChain

namespace Determiner

/-- The determiner that takes every pair, with one stock getter of the given identity. -/
def catchAll (getter : Nat) : Determiner :=
  ⟨"default", none, [], .standard getter⟩

/-- A determiner for the pairs of a claim, with one stock getter of the given identity. -/
def claiming (name : String) (claim : Claim) (getter : Nat) : Determiner :=
  ⟨name, some claim, [], .standard getter⟩

end Determiner

/-- A policy that answers by its own rule and follows none of its links. -/
structure Leaf where
  name : String
  accepts : Claim
  answer : Graph → ObjectRef → Option String → ReceiverConfig → Receivers
  links : List PolicyId

/-- A determiner or a leaf. -/
inductive Policy where
  | determiner (d : Determiner)
  | leaf (l : Leaf)

namespace Policy

/-- The name of the policy. -/
def name : Policy → String
  | determiner d => d.name
  | leaf l => l.name

/-- The policies it is linked to: siblings of a determiner, links of a leaf. -/
def links : Policy → List PolicyId
  | determiner d => d.siblings
  | leaf l => l.links

/-- The policy with other links. -/
def withLinks (p : Policy) (links : List PolicyId) : Policy :=
  match p with
  | determiner d => determiner { d with siblings := links }
  | leaf l => leaf { l with links := links }

/-- The policy with its getter chain changed; a leaf has none. -/
def mapGetters (p : Policy) (f : FieldGetterChain → FieldGetterChain) : Policy :=
  match p with
  | determiner d => determiner { d with getters := f d.getters }
  | leaf l => leaf l

/-- Whether the policy claims the pair for itself. -/
def isHandler (p : Policy) (g : Graph) (object : ObjectRef) (event : Option String) : Bool :=
  match p with
  | determiner d => d.claim.all fun claim => claim g object event
  | leaf l => l.accepts g object event

/-- Whether the policy has a claim to be asked. -/
def hasClaim : Policy → Bool
  | determiner d => d.claim.isSome
  | leaf _ => false

end Policy

/-- The policies, each named by its place. -/
structure Registry where
  policies : List Policy

namespace Registry

/-- The registry without policies. -/
def empty : Registry := ⟨[]⟩

/-- The number of policies. -/
def size (r : Registry) : Nat :=
  r.policies.length

/-- The policy at a place. -/
def policy? (r : Registry) (id : PolicyId) : Option Policy :=
  r.policies[id]?

/-- The policy's name. -/
def nameOf (r : Registry) (id : PolicyId) : String :=
  (r.policy? id).elim "" Policy.name

/-- The policies that a policy is linked to. -/
def links (r : Registry) (id : PolicyId) : List PolicyId :=
  (r.policy? id).elim [] Policy.links

/-- The policy's getter chain. -/
def gettersOf (r : Registry) (id : PolicyId) : FieldGetterChain :=
  match r.policy? id with
  | some (.determiner d) => d.getters
  | _ => .empty

/-- Adds a policy and answers its place. -/
def add (r : Registry) (p : Policy) : PolicyId × Registry :=
  (r.size, ⟨r.policies ++ [p]⟩)

/-- Changes the policy at a place. -/
def modify (r : Registry) (id : PolicyId) (f : Policy → Policy) : Registry :=
  ⟨r.policies.modify id f⟩

/-- Links a policy to others than before. -/
def setLinks (r : Registry) (id : PolicyId) (links : List PolicyId) : Registry :=
  r.modify id (·.withLinks links)

/-- Changes the getter chain of a determiner. -/
def modifyGetters (r : Registry) (id : PolicyId) (f : FieldGetterChain → FieldGetterChain) :
    Registry :=
  r.modify id (·.mapGetters f)

/-- Shows a determiner: its name, whether it takes every pair, and the names of its siblings. -/
def describe? (r : Registry) (id : PolicyId) : Option String :=
  match r.policy? id with
  | some (.determiner d) =>
    some ("Determiner \x7b name: " ++ Text.quote d.name ++ ", catch_all: " ++
      (if d.claim.isNone then "true" else "false") ++ ", determiners: " ++
      Text.quoteAll (d.siblings.map r.nameOf) ++ " \x7d")
  | _ => none

end Registry

end Recipients
