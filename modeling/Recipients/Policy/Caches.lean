/-
# Asking policies with remembered names

Every determiner evaluates with a table of segments of its own, and all of them share the tables of the
documents. A search for the handler evaluates nothing; the policy that resolves in the end fills its own
table and those of the documents. The receivers are those of `Registry.receivers`.

Key definitions: `PolicyCaches`, `Registry.resolveCached`, `Registry.receiversCached`.
-/
import Recipients.Path.Evaluator
import Recipients.Policy.Dispatch

namespace Recipients

/-- What each policy remembers of segments, and the documents of their keys. -/
structure PolicyCaches where
  segments : PolicyId → CamelCache
  documents : DocumentCaches

namespace PolicyCaches

/-- Nothing is remembered. -/
def empty : PolicyCaches := ⟨fun _ => .empty, .empty⟩

/-- The tables with which a policy evaluates. -/
def evaluator (c : PolicyCaches) (p : PolicyId) : Caches :=
  ⟨c.segments p, c.documents⟩

/-- The tables after a policy has evaluated. -/
def update (c : PolicyCaches) (p : PolicyId) (e : Caches) : PolicyCaches :=
  ⟨fun q => if q = p then e.segments else c.segments q, e.documents⟩

end PolicyCaches

namespace Registry

variable (r : Registry) (g : Graph) (object : ObjectRef) (event : Option String)

/-- Resolves a configuration with the policy's own getters and tables. -/
def resolveCached (p : PolicyId) (raw : ReceiverConfig) (c : PolicyCaches) :
    Receivers × PolicyCaches :=
  let resolved := resolveReceiversCached g (r.gettersOf p) object raw (c.evaluator p)
  (resolved.1, c.update p resolved.2)

/-- Asks a policy for receivers, with at most so many redirections. -/
def receiversWithinCached (raw : ReceiverConfig) :
    Nat → PolicyId → PolicyCaches → Receivers × PolicyCaches
  | 0, p, c => r.resolveCached g object p raw c
  | bound + 1, p, c =>
    match r.policy? p with
    | none => (.empty, c)
    | some (.leaf l) => (l.answer g object event raw, c)
    | some (.determiner _) =>
      match r.handler? g object event p with
      | none => r.resolveCached g object p raw c
      | some h =>
        if h = p then r.resolveCached g object p raw c else receiversWithinCached raw bound h c

/-- The receivers that a policy determines for a pair, and the tables afterwards. -/
def receiversCached (p : PolicyId) (raw : ReceiverConfig) (c : PolicyCaches) :
    Receivers × PolicyCaches :=
  r.receiversWithinCached g object event raw (r.size + 1) p c

end Registry

end Recipients
