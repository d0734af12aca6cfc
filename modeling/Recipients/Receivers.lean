/-
# Receivers

A receiver configuration maps raw addresses to raw names, each a literal or a path. Resolving it
replaces every address and every name by its text at an object. Addresses that come out equal are one
entry, at the place of the first and with the name of the last. An entry stays if its address is not
empty and its name has a text; an address without a text counts as empty.

Key definitions: `ReceiverConfig`, `Receivers`, `resolveReceivers`.
-/
import Recipients.Path.Walk

namespace Recipients

/-- Raw names under raw addresses. -/
abbrev ReceiverConfig : Type := OrderedMap String

/-- Names under addresses. -/
abbrev Receivers : Type := OrderedMap String

/-- The entries with their texts, in order. -/
def resolvedPairs (text : String → Option String) (raw : ReceiverConfig) :
    List (String × Option String) :=
  raw.entries.map fun e => ((text e.1).getD "", text e.2)

/-- Merges the pairs by address and keeps the entries with an address and a name. -/
def collectReceivers (pairs : List (String × Option String)) : Receivers :=
  (OrderedMap.ofList pairs).filterMap fun address name => if address = "" then none else name

/-- Resolves a configuration at an object. -/
def resolveReceivers (g : Graph) (chain : FieldGetterChain) (object : ObjectRef)
    (raw : ReceiverConfig) : Receivers :=
  collectReceivers (resolvedPairs (textAt g chain object) raw)

end Recipients
