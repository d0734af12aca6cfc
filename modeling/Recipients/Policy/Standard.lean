/-
# Receivers without further policies

The standard registry holds one determiner, which takes every pair. It is what answers when no policy
has been set up.

Key definitions: `Registry.standard`, `receiversFor`.
-/
import Recipients.Policy.Dispatch

namespace Recipients

/-- The registry of one determiner that takes every pair. -/
def Registry.standard : Registry :=
  ⟨[.determiner (.catchAll 0)]⟩

/-- The receivers of a configuration at the root of a document. -/
def receiversFor (d : Document) (event : Option String) (raw : ReceiverConfig) : Receivers :=
  Registry.standard.receivers (.ofDocument d) Graph.root event 0 raw

end Recipients
