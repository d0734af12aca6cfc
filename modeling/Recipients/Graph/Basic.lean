/-
# The graph of context objects

What a notification is about is a graph of objects, read only through accessors. There are two kinds of
objects. A record lists its fields under their accessors. A node is an object of a JSON document, named
by a pointer into the document; its members answer the accessors of their keys, in whatever spelling,
and the first member in key order wins when two keys have one camel-case form.

A field holds a scalar, an object, or a deferred value that has to be loaded first: one that the graph
stores, or a place in a document. A JSON object that only holds a `$ref` is handed out as deferred.

Key definitions: `FieldValue`, `ObjectRef`, `Deferred`, `Document`, `Record`, `Graph`, `Graph.hasGetter`,
`Graph.callGetter`, `Graph.load`.
-/
import Recipients.CamelCase
import Recipients.Json.Pointer
import Recipients.Json.Reader
import Recipients.OrderedMap

namespace Recipients

/-- An object: a record of the graph, or the place in a document that a pointer names. -/
inductive ObjectRef where
  | record (id : Nat)
  | node (document : Nat) (pointer : String)
  deriving DecidableEq

/-- A value to be loaded: one that the graph stores, or the place in a document that a target names. -/
inductive Deferred where
  | stored (id : Nat)
  | reference (document : Nat) (target : String)
  deriving DecidableEq

/-- What a field holds. -/
inductive FieldValue where
  | scalar (value : Json)
  | object (ref : ObjectRef)
  | deferred (ref : Deferred)

namespace FieldValue

/-- A text as a value. -/
def ofText (s : String) : FieldValue :=
  scalar (.str s)

/-- The object, if the value is one. -/
def object? : FieldValue → Option ObjectRef
  | object ref => some ref
  | _ => none

/-- Whether the value is an object. -/
def isObject (v : FieldValue) : Bool :=
  v.object?.isSome

/-- Whether the value has to be loaded first. -/
def isDeferred : FieldValue → Bool
  | deferred _ => true
  | _ => false

end FieldValue

/-- A JSON value in standard form. -/
structure Document where
  root : Json
  sorted : root.Sorted

namespace Document

/-- The document of a value. -/
def ofJson (v : Json) : Document :=
  ⟨v.sort, v.sorted_sort⟩

/-- Reads a document from its text. -/
def read (text : String) : Except ReadError Document :=
  (Json.readOrdered text).map ofJson

/-- The members of the object at a pointer, if there is one. -/
def members? (d : Document) (pointer : String) : Option (List (String × Json)) :=
  (d.root.at? pointer).bind Json.members?

/-- The type name of the place at a pointer: its member `@type` if that is a string. -/
def typeName (d : Document) (pointer : String) : String :=
  match ((d.members? pointer).getD []).lookup "@type" with
  | some (.str name) => name
  | _ => "object"

/-- The key that answers an accessor at a pointer: the first whose camel-case form it asks for. -/
def keyFor? (d : Document) (pointer accessor : String) : Option String := do
  let stem ← accessorStem? accessor
  let members ← d.members? pointer
  (members.map Prod.fst).find? fun key => camelCase key == stem

end Document

/-- An object with fields listed under their accessors, and perhaps a text form. -/
structure Record where
  typeName : String
  fields : OrderedMap FieldValue
  text : Option String

namespace Record

/-- A record without fields and without text. -/
def ofType (typeName : String) : Record :=
  ⟨typeName, .empty, none⟩

/-- Adds a field, over the field whose name has the same camel-case form. -/
def withField (r : Record) (name : String) (value : FieldValue) : Record :=
  { r with fields := r.fields.insert (accessorName name) value }

/-- Gives the record a text form. -/
def withText (r : Record) (text : String) : Record :=
  { r with text := some text }

end Record

/-- Records, documents, and what the stored deferred values load to; each is named by its place. -/
structure Graph where
  records : List Record
  documents : List Document
  stored : List (Option FieldValue)

namespace Graph

/-- The graph that holds nothing. -/
def empty : Graph := ⟨[], [], []⟩

/-- Adds a record. -/
def addRecord (g : Graph) (r : Record) : ObjectRef × Graph :=
  (.record g.records.length, { g with records := g.records ++ [r] })

/-- Adds a document and answers its root. -/
def addDocument (g : Graph) (d : Document) : ObjectRef × Graph :=
  (.node g.documents.length "", { g with documents := g.documents ++ [d] })

/-- Adds a deferred value, given what it loads to. -/
def addStored (g : Graph) (target : Option FieldValue) : Deferred × Graph :=
  (.stored g.stored.length, { g with stored := g.stored ++ [target] })

/-- The graph of one document. -/
def ofDocument (d : Document) : Graph :=
  ⟨[], [d], []⟩

/-- The root of the only document of `ofDocument`. -/
def root : ObjectRef := .node 0 ""

/-- The type name of an object. -/
def typeName (g : Graph) : ObjectRef → String
  | .record id => (g.records[id]?).elim "" Record.typeName
  | .node d pointer => (g.documents[d]?).elim "" (·.typeName pointer)

/-- The text form of an object; only records have one. -/
def text? (g : Graph) : ObjectRef → Option String
  | .record id => (g.records[id]?).bind Record.text
  | .node _ _ => none

/-- The value at a place in a document: a reference comes deferred, any other object as an object. -/
def valueAt (g : Graph) (d : Nat) (pointer : String) : Option FieldValue := do
  let document ← g.documents[d]?
  let v ← document.root.at? pointer
  match v with
  | .obj _ =>
    match v.reference? with
    | some target => some (.deferred (.reference d target))
    | none => some (.object (.node d pointer))
  | v => some (.scalar v)

/-- The key of a document that answers an accessor at a pointer. -/
def keyFor? (g : Graph) (d : Nat) (pointer accessor : String) : Option String :=
  (g.documents[d]?).bind (·.keyFor? pointer accessor)

/-- Whether the object answers the accessor. -/
def hasGetter (g : Graph) (object : ObjectRef) (accessor : String) : Bool :=
  match object with
  | .record id => (g.records[id]?).any (·.fields.contains accessor)
  | .node d pointer => (g.keyFor? d pointer accessor).isSome

/-- What the object answers to the accessor. -/
def callGetter (g : Graph) (object : ObjectRef) (accessor : String) : Option FieldValue :=
  match object with
  | .record id => (g.records[id]?).bind (·.fields.get? accessor)
  | .node d pointer =>
    (g.keyFor? d pointer accessor).bind fun key => g.valueAt d (childPointer pointer key)

/-- What a deferred value loads to. -/
def load (g : Graph) : Deferred → Option FieldValue
  | .stored id => (g.stored[id]?).join
  | .reference d target => g.valueAt d target

end Graph

end Recipients
