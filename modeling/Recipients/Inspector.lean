/-
# Inspecting a graph by hand

An inspector keeps values in numbered registers and answers questions about them. It tells objects and
deferred values apart by identity. A record, a stored value and a document as a whole are the same
wherever they turn up; what a document hands out, on reading an accessor or loading a reference, is a
new handle each time, which is equal only to copies of itself.

Key definitions: `Held`, `Inspector`, `Inspector.get`, `Inspector.load`, `Inspector.dereference`,
`Inspector.same`.
-/
import Recipients.Path.Evaluator

namespace Recipients

/-- A value in a register, with the number of its handle if a document handed it out. -/
structure Held where
  value : FieldValue
  handle : Option Nat

namespace Held

/-- Whether the two are one value: scalars by value, objects and deferred values by identity. -/
def same (a b : Held) : Bool :=
  match a.value, b.value with
  | .scalar v, .scalar w => v.same w
  | .object v, .object w => v == w && a.handle == b.handle
  | .deferred v, .deferred w => v == w && a.handle == b.handle
  | _, _ => false

/-- The value that a deferred value loads to. The number names the handle that a document hands out. -/
def load? (g : Graph) (number : Nat) (h : Held) : Option (Option Held) :=
  match h.value with
  | .deferred (.stored id) => some ((g.load (.stored id)).map (⟨·, none⟩))
  | .deferred (.reference d target) => some ((g.load (.reference d target)).map (⟨·, some number⟩))
  | _ => none

end Held

/-- A graph, the names its documents remember, and the registers. -/
structure Inspector where
  graph : Graph
  caches : DocumentCaches
  registers : List (Option Held)

namespace Inspector

/-- What a register holds; a register that does not exist holds nothing. -/
def held? (s : Inspector) (r : Nat) : Option Held :=
  (s.registers[r]?).join

/-- Writes a new register. -/
def push (s : Inspector) (h : Option Held) : Inspector :=
  { s with registers := s.registers ++ [h] }

/-- Writes a value that nobody handed out to a new register. -/
def put (s : Inspector) (v : FieldValue) : Inspector :=
  s.push (some ⟨v, none⟩)

/-- Reads an accessor of an object into a new register. -/
def get (s : Inspector) (r : Nat) (accessor : String) : Inspector :=
  match (s.held? r).map Held.value with
  | some (.object object) =>
    let answer := s.graph.callGetterCached object accessor s.caches
    let handle := match object with
      | .record _ => none
      | .node _ _ => some s.registers.length
    { s with caches := answer.2 }.push (answer.1.map (⟨·, handle⟩))
  | _ => s.push none

/-- Loads a deferred value once into a new register. -/
def load (s : Inspector) (r : Nat) : Inspector :=
  s.push (((s.held? r).bind (Held.load? s.graph s.registers.length)).join)

/-- Follows a value to a concrete one into a new register. -/
def dereference (s : Inspector) (r : Nat) : Inspector :=
  s.push ((s.held? r).bind fun h =>
    (follow (Held.load? s.graph s.registers.length) maxLoads h).1)

/-- Whether an object answers an accessor. -/
def has (s : Inspector) (r : Nat) (accessor : String) : Option Bool × Inspector :=
  match (s.held? r).map Held.value with
  | some (.object object) =>
    let answer := s.graph.hasGetterCached object accessor s.caches
    (some answer.1, { s with caches := answer.2 })
  | _ => (none, s)

/-- The text form of a register. -/
def text? (s : Inspector) (r : Nat) : Option String :=
  (s.held? r).bind fun h => s.graph.textOf h.value

/-- Whether two registers hold one value; two that hold nothing do. -/
def same (s : Inspector) (a b : Nat) : Bool :=
  match s.held? a, s.held? b with
  | some a, some b => a.same b
  | none, none => true
  | _, _ => false

/-- The names that the document of an object remembers. -/
def cache? (s : Inspector) (r : Nat) : Option CamelCache :=
  match (s.held? r).map Held.value with
  | some (.object (.node d _)) => some (s.caches d)
  | _ => none

end Inspector

end Recipients
