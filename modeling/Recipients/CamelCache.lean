/-
# A table of camel-case names

Normalising a name is done once: the table keeps the result under the name as it was given. Entries are
only ever added, and each of them is the camel case of its key, which is part of the type. So the table
changes how often `camelCase` runs and never what it answers.

Key definitions: `CamelCache`, `CamelCache.normalize`, `CamelCache.contains`, `CamelCache.size`.
-/
import Recipients.CamelCase
import Recipients.OrderedMap

namespace Recipients

/-- Names with their camel-case forms. -/
structure CamelCache where
  table : OrderedMap String
  exact : ∀ e ∈ table.entries, e.2 = camelCase e.1

theorem insertEntry_exact {f : String → String} {key : String} : ∀ {es : List (String × String)},
    (∀ e ∈ es, e.2 = f e.1) → ∀ e ∈ insertEntry key (f key) es, e.2 = f e.1
  | [], _, e, he => by
    simp only [insertEntry, List.mem_singleton] at he
    rw [he]
  | d :: es, h, e, he => by
    unfold insertEntry at he
    split at he
    · rcases List.mem_cons.mp he with rfl | he
      · rfl
      · exact h e (List.mem_cons_of_mem _ he)
    · rcases List.mem_cons.mp he with rfl | he
      · exact h e List.mem_cons_self
      · exact insertEntry_exact (fun x hx => h x (List.mem_cons_of_mem _ hx)) e he

namespace CamelCache

/-- The table without entries. -/
def empty : CamelCache := ⟨.empty, by simp⟩

/-- The camel case of a name, and the table that knows it. -/
def normalize (c : CamelCache) (name : String) : String × CamelCache :=
  match c.table.get? name with
  | some known => (known, c)
  | none =>
    (camelCase name, ⟨c.table.insert name (camelCase name), insertEntry_exact c.exact⟩)

/-- The number of names the table knows. -/
def size (c : CamelCache) : Nat :=
  c.table.size

/-- Whether the table knows no name. -/
def isEmpty (c : CamelCache) : Bool :=
  c.table.isEmpty

/-- Whether the table knows the name. -/
def contains (c : CamelCache) (name : String) : Bool :=
  c.table.contains name

end CamelCache

end Recipients
