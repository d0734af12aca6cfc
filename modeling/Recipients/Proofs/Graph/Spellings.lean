/-
# Fields and keys in any spelling

A record files a field under the accessor of its name, so a field added in one spelling of a name answers
the accessor of the name, and of every other spelling, until a field that spells the same name is added.
An object of a document compares the accessors of its keys with the one it is asked for, and the first key
in order answers: a key in any spelling does, unless a smaller key spells the same name.

Key definitions: `Record.withFields`, `Graph.Responds`.
Key theorems: `Record.get?_withField`, `Record.get?_withFields_of_apart`, `Graph.keyFor?_eq_find?`,
`Graph.responds_field`, `Graph.responds_key`, `spellings_answer_alike`.
-/
import Recipients.Proofs.CamelCase
import Recipients.Proofs.Document.Handles
import Recipients.Proofs.Document.Records
import Recipients.Proofs.Path.Remembered

namespace Recipients

namespace Record

/-- A field that is added is found under its accessor, and the fields under other accessors stay. -/
theorem get?_withField (r : Record) (name : String) (value : FieldValue) (accessor : String) :
    (r.withField name value).fields.get? accessor =
      if accessor = accessorName name then some value else r.fields.get? accessor :=
  OrderedMap.get?_insert r.fields (accessorName name) accessor value

/-- The record with the fields added one after the other. -/
def withFields (r : Record) (fields : List (String × FieldValue)) : Record :=
  fields.foldl (fun r e => r.withField e.1 e.2) r

/-- A field stays while fields of other forms are added. -/
theorem get?_withFields_of_apart {name : String} : ∀ (later : List (String × FieldValue)) (r : Record),
    (∀ e ∈ later, camelCase e.1 ≠ camelCase name) →
      (r.withFields later).fields.get? (accessorName name) = r.fields.get? (accessorName name)
  | [], _, _ => rfl
  | e :: later, r, h => by
    obtain ⟨hne, hlater⟩ := List.forall_mem_cons.mp h
    have hstays : (r.withField e.1 e.2).fields.get? (accessorName name) =
        r.fields.get? (accessorName name) := by
      rw [get?_withField, if_neg fun heq => hne (accessorName_inj.mp heq).symm]
    have hrest : ((r.withField e.1 e.2).withFields later).fields.get? (accessorName name) =
        (r.withField e.1 e.2).fields.get? (accessorName name) :=
      get?_withFields_of_apart later _ hlater
    exact hrest.trans hstays

/-- An accessor is never lost by adding fields. -/
theorem contains_withFields {accessor : String} : ∀ (later : List (String × FieldValue)) (r : Record),
    r.fields.contains accessor = true → (r.withFields later).fields.contains accessor = true
  | [], _, h => h
  | e :: later, r, h => by
    refine contains_withFields later _ ?_
    rw [OrderedMap.contains, get?_withField]
    split
    · rfl
    · exact h

end Record

namespace Graph

variable {g : Graph} {object : ObjectRef} {accessor : String} {value : FieldValue}

/-- The object has the accessor and answers it with the value, whatever names are remembered. -/
def Responds (g : Graph) (object : ObjectRef) (accessor : String) (value : Option FieldValue) : Prop :=
  ∀ c, (g.hasGetterCached object accessor c).1 = true ∧
    (g.callGetterCached object accessor c).1 = value

/-- A record responds with what is filed under the accessor. -/
theorem responds_record {id : Nat} {record : Record} (hrecord : g.records[id]? = some record)
    (hfield : record.fields.get? accessor = some value) : g.Responds (.record id) accessor (some value) := by
  have hcall : g.callGetter (.record id) accessor = some value := by
    rw [callGetter, hrecord, Option.bind_some, hfield]
  intro c
  rw [hasGetterCached_fst, callGetterCached_fst, hasGetter_eq_isSome, hcall]
  exact ⟨rfl, rfl⟩

section Field

variable {id : Nat} {record r : Record} {name : String} {later : List (String × FieldValue)}

/-- A record has the accessor of a field that was added, whatever was added after it. -/
theorem hasGetter_field (hrecord : g.records[id]? = some record)
    (hfields : record.fields = ((r.withField name value).withFields later).fields) :
    g.hasGetter (.record id) (accessorName name) = true := by
  have hadded : (r.withField name value).fields.contains (accessorName name) = true := by
    rw [OrderedMap.contains, Record.get?_withField, if_pos rfl]
    rfl
  rw [hasGetter, hrecord, Option.any_some, hfields]
  exact Record.contains_withFields later _ hadded

/-- It responds with the field if no field of the same form was added after it. -/
theorem responds_field (hrecord : g.records[id]? = some record)
    (hfields : record.fields = ((r.withField name value).withFields later).fields)
    (hlast : ∀ e ∈ later, camelCase e.1 ≠ camelCase name) :
    g.Responds (.record id) (accessorName name) (some value) := by
  apply responds_record hrecord
  rw [hfields, Record.get?_withFields_of_apart later _ hlast, Record.get?_withField, if_pos rfl]

end Field

section Key

variable {d : Nat} {document : Document} {pointer key : String} {members : List (String × Json)} {v : Json}

/-- The key that answers an accessor is the first one that has it. -/
theorem keyFor?_eq_find? (hd : g.documents[d]? = some document)
    (hplace : document.root.at? pointer = some (.obj members)) (accessor : String) :
    g.keyFor? d pointer accessor =
      (members.map Prod.fst).find? fun key => accessorName key == accessor := by
  have hmembers : document.members? pointer = some members := Document.members?_eq_some_iff.mpr hplace
  have hname : ∀ key, accessorName key = accessor ↔ accessorStem? accessor = some (camelCase key) :=
    fun key => accessorName_eq_iff
  rw [keyFor?, hd, Option.bind_some, Document.keyFor?, hmembers]
  cases hstem : accessorStem? accessor with
  | none =>
    have hnot : ∀ key ∈ members.map Prod.fst, ¬ (accessorName key == accessor) = true := by
      intro key _ h
      rw [beq_iff_eq, hname, hstem] at h
      cases h
    rw [List.find?_eq_none.mpr hnot]
    rfl
  | some stem =>
    have hsame : ∀ key, (camelCase key == stem) = (accessorName key == accessor) := by
      intro key
      rw [Bool.eq_iff_iff, beq_iff_eq, beq_iff_eq, hname, hstem, Option.some.injEq]
      exact eq_comm
    simp only [Option.bind_eq_bind, Option.bind_some, hsame]

/-- An object of a document has the accessors of its keys. -/
theorem hasGetter_key (hd : g.documents[d]? = some document)
    (hplace : document.root.at? pointer = some (.obj members)) (hkey : (key, v) ∈ members) :
    g.hasGetter (.node d pointer) (accessorName key) = true := by
  rw [hasGetter, keyFor?_eq_find? hd hplace, List.find?_isSome]
  exact ⟨key, List.mem_map_of_mem hkey, beq_self_eq_true _⟩

/-- The pointer to a child leads to the value of the key. -/
theorem at?_childPointer_of_mem (hplace : document.root.at? pointer = some (.obj members))
    (hkey : (key, v) ∈ members) : document.root.at? (childPointer pointer key) = some v := by
  have hsorted : (members.map Prod.fst).Pairwise (· < ·) := (Json.sorted_of_at? document.sorted hplace).1
  have hnodup : (members.map Prod.fst).Nodup := by
    refine hsorted.imp fun {j k} hlt heq => ?_
    rw [heq] at hlt
    exact String.lt_irrefl k hlt
  rw [Json.at?_childPointer key hplace]
  exact OrderedMap.lookup_eq_some_of_mem hnodup hkey

/-- A key answers its accessor if no smaller key has the same form. -/
theorem responds_key (hd : g.documents[d]? = some document)
    (hplace : document.root.at? pointer = some (.obj members)) (hkey : (key, v) ∈ members)
    (hleast : ∀ other ∈ members.map Prod.fst, other < key → camelCase other ≠ camelCase key) :
    g.Responds (.node d pointer) (accessorName key) (g.valueAt d (childPointer pointer key)) := by
  have hsorted : (members.map Prod.fst).Pairwise (· < ·) := (Json.sorted_of_at? document.sorted hplace).1
  obtain ⟨before, after, hkeys⟩ := List.append_of_mem (List.mem_map_of_mem (f := Prod.fst) hkey)
  have hfirst : g.keyFor? d pointer (accessorName key) = some key := by
    rw [keyFor?_eq_find? hd hplace, List.find?_eq_some_iff_append]
    refine ⟨beq_self_eq_true _, before, after, hkeys, fun other hother => ?_⟩
    have hmem : other ∈ members.map Prod.fst := hkeys ▸ List.mem_append_left _ hother
    have hlt : other < key :=
      (List.pairwise_append.mp (hkeys ▸ hsorted)).2.2 other hother key List.mem_cons_self
    have hne : accessorName other ≠ accessorName key := fun heq =>
      hleast other hmem hlt (accessorName_inj.mp heq)
    simpa using hne
  intro c
  rw [hasGetterCached_fst, callGetterCached_fst, hasGetter_key hd hplace hkey, callGetter, hfirst]
  exact ⟨rfl, rfl⟩

end Key

end Graph

/-- **All spellings of a name are one name.** Camel case adds up over underscores, keeps none, and changes
nothing the second time. A name, its form, and whatever comes of them by underscores in front, at the end or
beside underscores have one form. So a record to which a field in such a spelling was added has the accessor
of the name and answers it with the value of the field, unless a field of the same form was added later. So
does an object of a document with such a key, unless a smaller key of the same form answers in its place. -/
theorem spellings_answer_alike (name : String) :
    (∀ a b, camelCase (a ++ "_" ++ b) = camelCase a ++ camelCase b) ∧
    '_' ∉ (camelCase name).toList ∧
    camelCase (camelCase name) = camelCase name ∧
    ∀ spelling, Spelling name spelling →
      camelCase spelling = camelCase name ∧ accessorName spelling = accessorName name ∧
      (∀ (g : Graph) id (record r : Record) value later, g.records[id]? = some record →
        record.fields = ((r.withField spelling value).withFields later).fields →
        (∀ c, (g.hasGetterCached (.record id) (accessorName name) c).1 = true) ∧
        ((∀ e ∈ later, camelCase e.1 ≠ camelCase name) →
          g.Responds (.record id) (accessorName name) (some value))) ∧
      ∀ (g : Graph) d (document : Document) pointer members v, g.documents[d]? = some document →
        document.root.at? pointer = some (.obj members) → (spelling, v) ∈ members →
        (∀ c, (g.hasGetterCached (.node d pointer) (accessorName name) c).1 = true) ∧
        ((∀ key ∈ members.map Prod.fst, key < spelling → camelCase key ≠ camelCase name) →
          document.root.at? (childPointer pointer spelling) = some v ∧
          g.Responds (.node d pointer) (accessorName name) (g.valueAt d (childPointer pointer spelling))) := by
  refine ⟨camelCase_append, ?_, camelCase_camelCase name, fun spelling h => ?_⟩
  · rw [toList_camelCase]
    exact underscore_not_mem_camelChars name.toList
  · have hform : camelCase spelling = camelCase name := h.camelCase_eq
    have haccessor : accessorName spelling = accessorName name := h.accessorName_eq
    refine ⟨hform, haccessor, ?_, ?_⟩
    · intro g id record r value later hrecord hfields
      rw [← haccessor, ← hform]
      exact ⟨fun c => (g.hasGetterCached_fst _ _ c).trans (Graph.hasGetter_field hrecord hfields),
        Graph.responds_field hrecord hfields⟩
    · intro g d document pointer members v hd hplace hkey
      rw [← haccessor, ← hform]
      exact ⟨fun c => (g.hasGetterCached_fst _ _ c).trans (Graph.hasGetter_key hd hplace hkey),
        fun hleast => ⟨Graph.at?_childPointer_of_mem hplace hkey, Graph.responds_key hd hplace hkey hleast⟩⟩

/-- A person whose name is written down twice, in two spellings. -/
def twiceNamed : Document where
  root := .obj [("_full__name_", .str "Ann"), ("fullName", .str "Bob")]
  sorted := by
    simp only [Json.Sorted, Json.SortedMembers]
    decide

/-- A person made in code, with a text and another field after the name. -/
def namedRecord : Record :=
  (((Record.ofType "user").withField "_full__name_" (.ofText "Ann")).withText "A.").withField "name"
    (.ofText "Bob")

/-- Both answer to the plain name; of the two keys the smaller one does. -/
theorem twiceNamed_answers : Spelling "full_name" "_full__name_" ∧
    camelCase "_full__name_" = "FullName" ∧
    Graph.Responds ⟨[namedRecord], [], []⟩ (.record 0) "getFullName" (some (.ofText "Ann")) ∧
    (Graph.ofDocument twiceNamed).Responds (.node 0 "") "getFullName" (some (.ofText "Ann")) := by
  have hspelling : Spelling "full_name" "_full__name_" := by
    have hleading : Spelling "full_name" ("_full" ++ "_" ++ "name") := .leading .self
    exact .trailing hleading.doubled
  have hname : accessorName "full_name" = "getFullName" := by decide +kernel
  have hform : camelCase "full_name" = "FullName" := by decide +kernel
  obtain ⟨hsame, -, hfield, hkey⟩ := (spellings_answer_alike "full_name").2.2.2 _ hspelling
  obtain ⟨-, hlast⟩ := hfield ⟨[namedRecord], [], []⟩ 0 namedRecord (.ofType "user") (.ofText "Ann")
    [("name", .ofText "Bob")] rfl rfl
  obtain ⟨-, hleast⟩ := hkey (.ofDocument twiceNamed) 0 twiceNamed "" _ (.str "Ann") rfl rfl
    List.mem_cons_self
  have hanswer := hlast (by decide +kernel)
  obtain ⟨-, hresponds⟩ := hleast (by decide +kernel)
  rw [hname] at hanswer hresponds
  exact ⟨hspelling, hsame.trans hform, hanswer, hresponds⟩

end Recipients
