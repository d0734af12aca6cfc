/-
# Finding the handler of a pair

A determiner leaves a pair of object and event to the first sibling that finds a handler for it, and
takes the pair itself only if none does and its claim holds. A leaf is its own handler if it accepts the
pair. The search also lists the determiners whose claims it asked, in order.

Receivers asked of a determiner come from its handler: from the handler's own rule if that is another
policy, and else from resolving with the determiner's own getters. Siblings of determiners form no loop,
so no path through them is longer than the registry, which bounds both the search and the redirections.

Key definitions: `Search`, `Registry.search`, `Registry.handler?`, `Dispatch`, `Registry.dispatch`,
`Registry.receivers`.
-/
import Recipients.Policy.Basic

namespace Recipients

/-- The handler found, and the policies whose claims were asked, in order. -/
structure Search where
  found : Option PolicyId
  consulted : List PolicyId

/-- Searches from the policies in order, up to the first that finds a handler. -/
def firstFound (search : PolicyId → Search) : List PolicyId → Search
  | [] => ⟨none, []⟩
  | p :: ps =>
    let s := search p
    match s.found with
    | some _ => s
    | none =>
      let rest := firstFound search ps
      ⟨rest.found, s.consulted ++ rest.consulted⟩

/-- The receivers, and the policies whose claims were asked, in order. -/
structure Dispatch where
  receivers : Receivers
  consulted : List PolicyId

namespace Registry

variable (r : Registry) (g : Graph) (object : ObjectRef) (event : Option String)

/-- Whether the policy claims the pair for itself. -/
def isHandler (p : PolicyId) : Bool :=
  (r.policy? p).any (·.isHandler g object event)

/-- Searches for the handler along paths of at most `depth` policies. -/
def searchWithin : Nat → PolicyId → Search
  | 0, _ => ⟨none, []⟩
  | depth + 1, p =>
    match r.policy? p with
    | none => ⟨none, []⟩
    | some (.leaf l) => ⟨if l.accepts g object event then some p else none, []⟩
    | some (.determiner d) =>
      let s := firstFound (searchWithin depth) d.siblings
      match s.found, d.claim with
      | some _, _ => s
      | none, none => ⟨some p, s.consulted⟩
      | none, some claim => ⟨if claim g object event then some p else none, s.consulted ++ [p]⟩

/-- Searches for the handler of the pair from a policy on. -/
def search (p : PolicyId) : Search :=
  r.searchWithin g object event r.size p

/-- The policy that handles the pair, if any. -/
def handler? (p : PolicyId) : Option PolicyId :=
  (r.search g object event p).found

/-- Resolves a configuration with the policy's own getters, whoever handles the pair. -/
def resolve (p : PolicyId) (raw : ReceiverConfig) : Receivers :=
  resolveReceivers g (r.gettersOf p) object raw

/-- Asks a policy for receivers, with at most so many redirections. -/
def dispatchWithin (raw : ReceiverConfig) : Nat → PolicyId → Dispatch
  | 0, p => ⟨r.resolve g object p raw, []⟩
  | bound + 1, p =>
    match r.policy? p with
    | none => ⟨.empty, []⟩
    | some (.leaf l) => ⟨l.answer g object event raw, []⟩
    | some (.determiner _) =>
      let s := r.search g object event p
      match s.found with
      | none => ⟨r.resolve g object p raw, s.consulted⟩
      | some h =>
        if h = p then ⟨r.resolve g object p raw, s.consulted⟩
        else
          let d := dispatchWithin raw bound h
          ⟨d.receivers, s.consulted ++ d.consulted⟩

/-- Asks a policy for the receivers of a pair. -/
def dispatch (p : PolicyId) (raw : ReceiverConfig) : Dispatch :=
  r.dispatchWithin g object event raw (r.size + 1) p

/-- The receivers that a policy determines for a pair. -/
def receivers (p : PolicyId) (raw : ReceiverConfig) : Receivers :=
  (r.dispatch g object event p raw).receivers

end Registry

end Recipients
