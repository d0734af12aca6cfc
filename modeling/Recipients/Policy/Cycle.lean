/-
# Looking for a cycle of links

A depth-first search from one policy along the links. It keeps the path from the start to where it
stands, and the policies it is done with. Meeting a policy of the path again is a cycle; a policy that
is done is passed over. No path without a repetition is longer than the registry, which bounds the
search.

Key definitions: `anyVisit`, `visit`, `Registry.hasCycle`.
-/
import Recipients.Policy.Basic

namespace Recipients

/-- Visits the policies in order, up to the first visit that finds a cycle. The policies done with pass
from one visit to the next. -/
def anyVisit (visit : List PolicyId → PolicyId → Bool × List PolicyId) :
    List PolicyId → List PolicyId → Bool × List PolicyId
  | done, [] => (false, done)
  | done, p :: ps =>
    match visit done p with
    | (true, done) => (true, done)
    | (false, done) => anyVisit visit done ps

/-- Visits a policy: whether a cycle is met from it, and the policies done with afterwards. -/
def visit (links : PolicyId → List PolicyId) :
    Nat → List PolicyId → List PolicyId → PolicyId → Bool × List PolicyId
  | 0, _, done, _ => (false, done)
  | depth + 1, path, done, p =>
    if p ∈ path then (true, done)
    else if p ∈ done then (false, done)
    else
      let below := anyVisit (visit links depth (p :: path)) done (links p)
      (below.1, p :: below.2)

namespace Registry

/-- Whether a cycle of links is reachable from the policy. -/
def hasCycle (r : Registry) (p : PolicyId) : Bool :=
  (visit r.links (r.size + 1) [] [] p).1

end Registry

end Recipients
