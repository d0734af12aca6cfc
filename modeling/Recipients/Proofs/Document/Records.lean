/-
# Records built from a document answer as the document does

A document can be rebuilt of records: one for each object that is reached through objects only, its fields
added one after the other in any order, and every other value as a scalar. A record files its fields under
their accessors as they are added, and the last one wins; an object of a document compares the names of
its keys when it is asked, and the first one wins. Where no object lists a name twice, each accessor has
one key or none, and both find it.

The walk down the tree stands between the two: evaluation at the document shows it, and evaluation at
the records mirrors it, step by step, since no value on the way is a reference.

Key definitions: `Record.ofFields`, `Recorded`, `Graph.addTree`, `Mirrors`.
Key theorems: `Record.get?_ofFields`, `mirrors_step`, `mirrors_treeEvaluate`, `recorded_addTree`,
`records_answer_alike`.
-/
import Recipients.Policy.Standard
import Recipients.Proofs.Document.Spelling

namespace Recipients

/-! ### Accessors and names -/

theorem accessorName_eq_iff {name accessor : String} :
    accessorName name = accessor ↔ accessorStem? accessor = some (camelCase name) := by
  constructor
  · rintro rfl
    exact accessorStem?_accessorName name
  · intro h
    unfold accessorStem? at h
    split at h
    · rename_i stem hlist
      have hstem : stem = (camelCase name).toList := by
        rw [← Option.some.inj h, String.toList_ofList]
      apply String.toList_inj.mp
      rw [hlist, hstem, accessorName, String.toList_append]
      rfl
    · cases h

/-- Names have the same accessor if they have the same form. -/
theorem accessorName_inj {j k : String} : accessorName j = accessorName k ↔ camelCase j = camelCase k := by
  rw [accessorName_eq_iff, accessorStem?_accessorName, Option.some.injEq, eq_comm]

/-! ### Fields added one after the other -/

namespace Record

variable {typeName : String} {fields : List (String × FieldValue)} {f : FieldValue} {accessor : String}

/-- The record without text that comes of adding the fields in their order. -/
def ofFields (typeName : String) (fields : List (String × FieldValue)) : Record :=
  fields.foldl (fun r e => r.withField e.1 e.2) (.ofType typeName)

theorem foldl_withField : ∀ (fields : List (String × FieldValue)) (r : Record),
    fields.foldl (fun r e => r.withField e.1 e.2) r =
      ⟨r.typeName, (fields.map fun e => (accessorName e.1, e.2)).foldl (fun m e => m.insert e.1 e.2) r.fields,
        r.text⟩
  | [], _ => rfl
  | e :: fields, r => by
    rw [List.foldl_cons, foldl_withField fields, List.map_cons, List.foldl_cons]
    rfl

theorem ofFields_eq (typeName : String) (fields : List (String × FieldValue)) :
    ofFields typeName fields = ⟨typeName, .ofList (fields.map fun e => (accessorName e.1, e.2)), none⟩ :=
  foldl_withField fields (.ofType typeName)

/-- Where each name is listed once, every field is found under its accessor, and nothing else is. -/
theorem get?_ofFields (h : (fields.map fun e => camelCase e.1).Nodup) :
    (ofFields typeName fields).fields.get? accessor = some f ↔
      ∃ k, (k, f) ∈ fields ∧ accessorStem? accessor = some (camelCase k) := by
  have hnames : fields.Pairwise fun e e' => camelCase e.1 ≠ camelCase e'.1 := List.pairwise_map.mp h
  have haccessors : ((fields.map fun e => (accessorName e.1, e.2)).map Prod.fst).Nodup := by
    rw [List.map_map]
    exact List.pairwise_map.mpr (hnames.imp fun hne heq => hne (accessorName_inj.mp heq))
  rw [ofFields_eq, OrderedMap.get?_eq_some_iff, OrderedMap.entries_ofList haccessors, List.mem_map]
  constructor
  · rintro ⟨e, he, heq⟩
    obtain ⟨hname, rfl⟩ := Prod.mk.inj heq
    exact ⟨e.1, he, accessorName_eq_iff.mp hname⟩
  · rintro ⟨k, hk, hstem⟩
    exact ⟨(k, f), hk, Prod.ext (accessorName_eq_iff.mpr hstem) rfl⟩

end Record

/-! ### Records that stand for a tree -/

mutual

/-- The field value stands for the tree: an object is a record of the graph with a field for each member,
added in any order, and any other value is a scalar. -/
inductive Recorded (g : Graph) : Json → FieldValue → Prop
  | scalar {v : Json} : (∀ members, v ≠ .obj members) → Recorded g v (.scalar v)
  | record {members : List (String × Json)} {fields added : List (String × FieldValue)}
    {typeName : String} {id : Nat} : RecordedFields g members fields → fields.Perm added →
    g.records[id]? = some (.ofFields typeName added) → Recorded g (.obj members) (.object (.record id))

/-- The fields stand for the members, one by one, under the same keys. -/
inductive RecordedFields (g : Graph) : List (String × Json) → List (String × FieldValue) → Prop
  | nil : RecordedFields g [] []
  | cons {k : String} {v : Json} {f : FieldValue} {members : List (String × Json)}
    {fields : List (String × FieldValue)} : Recorded g v f → RecordedFields g members fields →
    RecordedFields g ((k, v) :: members) ((k, f) :: fields)

end

section Recorded

variable {g : Graph} {v : Json} {f : FieldValue}

/-- Each member has its field. -/
theorem RecordedFields.forth {k : String} : ∀ {members : List (String × Json)}
    {fields : List (String × FieldValue)}, RecordedFields g members fields → (k, v) ∈ members →
      ∃ f, (k, f) ∈ fields ∧ Recorded g v f
  | _, _, .nil, h => absurd h List.not_mem_nil
  | _, _, .cons hv hmembers, h => by
    rcases List.mem_cons.mp h with heq | h
    · cases heq
      exact ⟨_, List.mem_cons_self, hv⟩
    · obtain ⟨f, hf, hv⟩ := forth hmembers h
      exact ⟨f, List.mem_cons_of_mem _ hf, hv⟩

/-- Each field is the one of a member. -/
theorem RecordedFields.back {k : String} : ∀ {members : List (String × Json)}
    {fields : List (String × FieldValue)}, RecordedFields g members fields → (k, f) ∈ fields →
      ∃ v, (k, v) ∈ members ∧ Recorded g v f
  | _, _, .nil, h => absurd h List.not_mem_nil
  | _, _, .cons hv hmembers, h => by
    rcases List.mem_cons.mp h with heq | h
    · cases heq
      exact ⟨_, List.mem_cons_self, hv⟩
    · obtain ⟨v, hm, hv⟩ := back hmembers h
      exact ⟨v, List.mem_cons_of_mem _ hm, hv⟩

theorem RecordedFields.keys : ∀ {members : List (String × Json)} {fields : List (String × FieldValue)},
    RecordedFields g members fields → fields.map Prod.fst = members.map Prod.fst
  | _, _, .nil => rfl
  | _, _, .cons _ hmembers => by rw [List.map_cons, List.map_cons, keys hmembers]

/-- A record that stands for an object answers an accessor with the field of the only key that it asks for. -/
theorem Recorded.exists_fields {members : List (String × Json)} {o : ObjectRef}
    (h : Recorded g (.obj members) (.object o)) (hnames : (members.map fun m => camelCase m.1).Nodup) :
    ∃ fields, RecordedFields g members fields ∧ ∀ accessor f, g.callGetter o accessor = some f ↔
      ∃ k, (k, f) ∈ fields ∧ accessorStem? accessor = some (camelCase k) := by
  cases h with
  | @record _ fields added _ _ hmembers hperm hrecord =>
    have hadded : (added.map fun e => camelCase e.1).Nodup := by
      have hkeys : (fields.map fun e => camelCase e.1) = members.map fun m => camelCase m.1 := by
        have := congrArg (List.map camelCase) hmembers.keys
        rwa [List.map_map, List.map_map] at this
      rw [← hkeys] at hnames
      exact ((hperm.map _).nodup_iff).mp hnames
    refine ⟨fields, hmembers, fun accessor f => ?_⟩
    rw [Graph.callGetter, hrecord, Option.bind_some, Record.get?_ofFields hadded]
    simp only [hperm.mem_iff]

/-- It has a getter for just the accessors of its keys. -/
theorem Recorded.hasGetter_iff {members : List (String × Json)} {o : ObjectRef} {accessor : String}
    (h : Recorded g (.obj members) (.object o)) (hnames : (members.map fun m => camelCase m.1).Nodup) :
    g.hasGetter o accessor = true ↔
      ∃ k ∈ members.map Prod.fst, accessorStem? accessor = some (camelCase k) := by
  obtain ⟨fields, hmembers, hcall⟩ := h.exists_fields hnames
  have hanswers : g.hasGetter o accessor = (g.callGetter o accessor).isSome := by
    cases h with
    | record _ _ hrecord => simp only [Graph.hasGetter, Graph.callGetter, hrecord]; rfl
  rw [hanswers, Option.isSome_iff_exists, ← hmembers.keys]
  simp only [hcall, List.mem_map, Prod.exists, exists_and_right, exists_eq_right]
  constructor
  · rintro ⟨f, k, hk, hstem⟩
    exact ⟨k, ⟨f, hk⟩, hstem⟩
  · rintro ⟨k, ⟨f, hk⟩, hstem⟩
    exact ⟨f, k, hk, hstem⟩

end Recorded

/-- So does an object of a document, whether a name is listed once or not. -/
theorem hasGetter_ofDocument_iff {d : Document} {pointer accessor : String} {members : List (String × Json)}
    (h : d.root.at? pointer = some (.obj members)) :
    (Graph.ofDocument d).hasGetter (.node 0 pointer) accessor = true ↔
      ∃ k ∈ members.map Prod.fst, accessorStem? accessor = some (camelCase k) := by
  have hmembers : d.members? pointer = some members := Document.members?_eq_some_iff.mpr h
  have hdocument : (Graph.ofDocument d).documents[0]? = some d := rfl
  rw [Graph.hasGetter, Graph.keyFor?, hdocument, Option.bind_some, Document.keyFor?, hmembers]
  cases accessorStem? accessor with
  | none => simp
  | some stem =>
    simp only [Option.bind_eq_bind, Option.bind_some, List.find?_isSome, beq_iff_eq, Option.some.injEq]
    exact exists_congr fun k => and_congr_right fun _ => eq_comm

/-! ### Every tree has records -/

namespace Graph

mutual

/-- Adds a record for each object of the tree that is reached through objects only, the inner ones first,
and answers what stands for the tree. -/
def addTree (typeName : String) (g : Graph) : Json → FieldValue × Graph
  | .obj members =>
    let r := g.addTrees typeName members
    let added := r.2.addRecord (.ofFields typeName r.1)
    (.object added.1, added.2)
  | v => (.scalar v, g)

/-- The fields that stand for the members, in their order. -/
def addTrees (typeName : String) (g : Graph) : List (String × Json) → List (String × FieldValue) × Graph
  | [] => ([], g)
  | (k, v) :: members =>
    let r := g.addTree typeName v
    let rest := r.2.addTrees typeName members
    ((k, r.1) :: rest.1, rest.2)

end

/-- The second graph has the records of the first one at the same places. -/
def Keeps (g g' : Graph) : Prop :=
  ∀ (id : Nat) (r : Record), g.records[id]? = some r → g'.records[id]? = some r

theorem Keeps.trans {g g' g'' : Graph} (h : g.Keeps g') (h' : g'.Keeps g'') : g.Keeps g'' :=
  fun id r hr => h' id r (h id r hr)

theorem getElem?_addRecord (g : Graph) (r : Record) :
    (g.addRecord r).2.records[g.records.length]? = some r :=
  List.getElem?_concat_length

theorem keeps_addRecord (g : Graph) (r : Record) : g.Keeps (g.addRecord r).2 := by
  intro id r' h
  have hid : id < g.records.length := (List.getElem?_eq_some_iff.mp h).1
  rw [← h]
  exact List.getElem?_append_left hid

end Graph

mutual

/-- What stands for a tree still does when records are added. -/
theorem Recorded.keep {g g' : Graph} (hg : g.Keeps g') : ∀ {v : Json} {f : FieldValue},
    Recorded g v f → Recorded g' v f
  | _, _, .scalar hne => .scalar hne
  | _, _, .record hmembers hperm hrecord => .record (hmembers.keep hg) hperm (hg _ _ hrecord)

theorem RecordedFields.keep {g g' : Graph} (hg : g.Keeps g') : ∀ {members : List (String × Json)}
    {fields : List (String × FieldValue)}, RecordedFields g members fields → RecordedFields g' members fields
  | _, _, .nil => .nil
  | _, _, .cons hv hmembers => .cons (hv.keep hg) (hmembers.keep hg)

end

namespace Graph

mutual

theorem keeps_addTree (typeName : String) : ∀ (g : Graph) (v : Json), g.Keeps (g.addTree typeName v).2
  | g, .obj members => by
    rw [addTree]
    exact (keeps_addTrees typeName g members).trans (keeps_addRecord _ _)
  | _, .null => fun _ _ h => h
  | _, .bool _ => fun _ _ h => h
  | _, .num _ => fun _ _ h => h
  | _, .str _ => fun _ _ h => h
  | _, .arr _ => fun _ _ h => h

theorem keeps_addTrees (typeName : String) : ∀ (g : Graph) (members : List (String × Json)),
    g.Keeps (g.addTrees typeName members).2
  | _, [] => fun _ _ h => h
  | g, (_, v) :: members => by
    rw [addTrees]
    exact (keeps_addTree typeName g v).trans (keeps_addTrees typeName _ members)

end

end Graph

mutual

/-- What is answered when a tree is added stands for it. -/
theorem recorded_addTree (typeName : String) : ∀ (g : Graph) (v : Json),
    Recorded (g.addTree typeName v).2 v (g.addTree typeName v).1
  | g, .obj members => by
    rw [Graph.addTree]
    have hmembers := recordedFields_addTrees typeName g members
    exact .record (hmembers.keep (Graph.keeps_addRecord _ _)) (.refl _) (Graph.getElem?_addRecord _ _)
  | _, .null => .scalar fun _ => Json.noConfusion
  | _, .bool _ => .scalar fun _ => Json.noConfusion
  | _, .num _ => .scalar fun _ => Json.noConfusion
  | _, .str _ => .scalar fun _ => Json.noConfusion
  | _, .arr _ => .scalar fun _ => Json.noConfusion

theorem recordedFields_addTrees (typeName : String) : ∀ (g : Graph) (members : List (String × Json)),
    RecordedFields (g.addTrees typeName members).2 members (g.addTrees typeName members).1
  | _, [] => .nil
  | g, (_, v) :: members => by
    rw [Graph.addTrees]
    have hv := recorded_addTree typeName g v
    have hmembers := recordedFields_addTrees typeName (g.addTree typeName v).2 members
    exact .cons (hv.keep (Graph.keeps_addTrees typeName _ members)) hmembers

end

/-! ### The walk -/

/-- A value of the graph stands for one of the tree: both are absent, both are the same scalar, or the
object stands for the place, from which no name is read twice and no reference is met. -/
inductive Mirrors (g : Graph) : Option FieldValue → Option TreeValue → Prop
  | absent : Mirrors g none none
  | scalar (v : Json) : Mirrors g (some (.scalar v)) (some (.scalar v))
  | node {o : ObjectRef} {members : List (String × Json)} : Recorded g (.obj members) (.object o) →
    (Json.obj members).Unequivocal → Mirrors g (some (.object o)) (some (.node (.obj members)))

section Mirrors

variable {g : Graph} {o : ObjectRef}

theorem mirrors_of {v : Json} {f : FieldValue} (h : Recorded g v f) (hv : v.Unequivocal) :
    Mirrors g (some f) (some (.of v)) := by
  cases h with
  | scalar hne =>
    cases v with
    | obj members => exact absurd rfl (hne members)
    | null => exact .scalar _
    | bool _ => exact .scalar _
    | num _ => exact .scalar _
    | str _ => exact .scalar _
    | arr _ => exact .scalar _
  | record hmembers hperm hrecord => exact .node (.record hmembers hperm hrecord) hv

/-- What stands for a value is concrete. -/
theorem Recorded.dereference {v : Json} {f : FieldValue} (h : Recorded g v f) : g.dereference f = some f := by
  have hnext : g.next f = none := by
    cases h with
    | scalar _ => rfl
    | record _ _ _ => rfl
  exact congrArg Prod.fst (follow_of_next_eq_none hnext maxLoads)

/-- One accessor is one step of the walk, in which no reference is followed. -/
theorem mirrors_step {members : List (String × Json)} (h : Recorded g (.obj members) (.object o))
    (hmembers : (Json.obj members).Unequivocal) (root : Json) (identity : Nat) (segment : String) :
    Mirrors g ((FieldGetterChain.standard identity).retrieve g o (accessorName segment))
      ((((Json.obj members).childLike? segment).bind (root.settle? maxLoads)).map .of) := by
  obtain ⟨fields, hfields, hcall⟩ := h.exists_fields hmembers.names_nodup
  rw [FieldGetterChain.retrieve_standard]
  cases hchild : (Json.obj members).childLike? segment with
  | some v =>
    obtain ⟨k, hk, hspelling⟩ := (Json.childLike?_eq_some_iff hmembers.names_nodup).mp hchild
    obtain ⟨f, hf, hrecorded⟩ := hfields.forth hk
    have hv : v.Unequivocal := hmembers.member hk
    have hfound : g.callGetter o (accessorName segment) = some f :=
      (hcall _ _).mpr ⟨k, hf, by rw [accessorStem?_accessorName, hspelling]⟩
    rw [hfound, Option.bind_some, hrecorded.dereference, Option.bind_some,
      Json.settle?_of_reference?_eq_none hv.reference?]
    exact mirrors_of hrecorded hv
  | none =>
    have hnone : g.callGetter o (accessorName segment) = none := by
      refine Option.eq_none_iff_forall_ne_some.mpr fun f hf => ?_
      obtain ⟨k, hk, hstem⟩ := (hcall _ _).mp hf
      obtain ⟨v, hv, -⟩ := hfields.back hk
      rw [accessorStem?_accessorName] at hstem
      have hchild' := (Json.childLike?_eq_some_iff hmembers.names_nodup).mpr
        ⟨k, hv, (Option.some.inj hstem).symm⟩
      rw [hchild] at hchild'
      cases hchild'
    rw [hnone]
    exact .absent

/-- Walking on from what stands for a value mirrors walking on from the value. -/
theorem mirrors_treeWalk (root : Json) (identity : Nat) : ∀ (segments : List String)
    {v : Option FieldValue} {t : Option TreeValue}, Mirrors g v t →
      Mirrors g (walk g (.standard identity) v (segments.map accessorName)).value (treeWalk root t segments)
  | [], _, _, h => by
    cases h with
    | absent => exact .absent
    | scalar v => exact .scalar v
    | node h hmembers => exact .node h hmembers
  | segment :: segments, _, _, h => by
    cases h with
    | absent => exact .absent
    | scalar v => exact .scalar v
    | node h hmembers =>
      simp only [List.map_cons, walk, treeWalk]
      exact mirrors_treeWalk root identity segments (mirrors_step h hmembers root identity segment)

theorem mirrors_treeEvaluate {root : Json} (h : Recorded g root (.object o)) (hroot : root.Unequivocal)
    (identity : Nat) (raw : String) :
    Mirrors g (evaluate g (.standard identity) o raw).value (treeEvaluate root raw) := by
  unfold evaluate treeEvaluate
  cases PathExpression.parse? raw with
  | none => exact .scalar _
  | some path =>
    obtain ⟨members, rfl⟩ : ∃ members, root = .obj members := by
      cases h with
      | record _ _ _ => exact ⟨_, rfl⟩
    exact mirrors_treeWalk _ identity path.segments (.node h hroot)

/-- Records that were given no text have none. -/
theorem Mirrors.textOf_eq {v : Option FieldValue} {t : Option TreeValue} (h : Mirrors g v t) :
    v.bind g.textOf = t.bind TreeValue.text? := by
  cases h with
  | absent => rfl
  | scalar v => exact textOf_scalar g v
  | node h _ =>
    cases h with
    | record _ _ hrecord =>
      simp only [Option.bind_some, Graph.textOf, Graph.text?, hrecord, Record.ofFields_eq]
      rfl

end Mirrors

/-! ### Answers -/

variable {g : Graph} {d : Document} {o : ObjectRef}

/-- Two objects that stand for one place have getters for the same accessors. -/
theorem hasGetter_eq {members : List (String × Json)} {pointer : String}
    (h : Recorded g (.obj members) (.object o)) (hnames : (members.map fun m => camelCase m.1).Nodup)
    (hplace : d.root.at? pointer = some (.obj members)) (accessor : String) :
    (Graph.ofDocument d).hasGetter (.node 0 pointer) accessor = g.hasGetter o accessor := by
  rw [Bool.eq_iff_iff, hasGetter_ofDocument_iff hplace, h.hasGetter_iff hnames]

/-- Evaluation at either root shows what the walk down the tree ends with. -/
theorem Recorded.exists_treeValue (h : Recorded g d.root (.object o)) (hd : d.root.Unequivocal) (raw : String)
    (identity identity' : Nat) :
    ∃ t, Shows d.root (evaluate (.ofDocument d) (.standard identity) Graph.root raw).value t ∧
      Mirrors g (evaluate g (.standard identity') o raw).value t :=
  ⟨_, shows_treeEvaluate d identity raw, mirrors_treeEvaluate h hd identity' raw⟩

/-- What shows and what mirrors one value of the tree cannot be told apart. -/
theorem Mirrors.alike {v v' : Option FieldValue} {t : Option TreeValue} (hmirrors : Mirrors g v' t)
    (hshows : Shows d.root v t) :
    ValueKind.of v = ValueKind.of v' ∧
    (∀ s, v = some (.scalar s) ↔ v' = some (.scalar s)) ∧
    v.bind (Graph.ofDocument d).textOf = v'.bind g.textOf ∧
    ∀ a b, v = some (.object a) → v' = some (.object b) → ∀ accessor,
      (Graph.ofDocument d).hasGetter a accessor = g.hasGetter b accessor := by
  have htext : v.bind (Graph.ofDocument d).textOf = v'.bind g.textOf :=
    (hshows.textOf_eq d).trans hmirrors.textOf_eq.symm
  cases hmirrors with
  | absent =>
    cases hshows
    exact ⟨rfl, fun _ => Iff.rfl, htext, by simp⟩
  | scalar _ =>
    cases hshows
    exact ⟨rfl, fun _ => Iff.rfl, htext, by simp⟩
  | node hrecorded hmembers =>
    cases hshows with
    | node hplace =>
      refine ⟨rfl, by simp, htext, ?_⟩
      rintro _ _ ⟨⟩ ⟨⟩
      exact hasGetter_eq hrecorded hmembers.names_nodup (Json.at?_eq_some_iff.mpr hplace)

/-- The library's receivers are the same at both. -/
theorem Recorded.receivers_eq (h : Recorded g d.root (.object o)) (hd : d.root.Unequivocal)
    (event : Option String) (raw : ReceiverConfig) :
    receiversFor d event raw = Registry.standard.receivers g o event 0 raw := by
  have htexts : textAt (.ofDocument d) (.standard 0) Graph.root = textAt g (.standard 0) o := by
    funext s
    obtain ⟨t, hshows, hmirrors⟩ := h.exists_treeValue hd s 0 0
    exact (hmirrors.alike hshows).2.2.1
  have hresolve : resolveReceivers (.ofDocument d) (.standard 0) Graph.root raw =
      resolveReceivers g (.standard 0) o raw := by
    rw [resolveReceivers, resolveReceivers, htexts]
  exact hresolve

/-- **Records and documents answer alike.** A document whose root is an object, and in which no object
lists a name twice or is a reference, can be rebuilt of records. Whenever records stand for it, whatever
the order in which their fields were added, their type names and the rest of the graph, every raw text
ends at both with a value of the same kind, with the same scalar and with the same text, whatever names
are remembered; where it ends with objects, they have getters for the same accessors. So every
configuration has the same receivers at both. -/
theorem records_answer_alike {members : List (String × Json)} (hroot : d.root = .obj members)
    (hd : d.root.Unequivocal) :
    (∃ g o, Recorded g d.root (.object o)) ∧
    ∀ (g : Graph) (o : ObjectRef), Recorded g d.root (.object o) →
      (∀ (raw : String) (identity identity' : Nat) (c c' : Caches),
        let v := (evaluateCached (.ofDocument d) (.standard identity) Graph.root raw c).1.value
        let v' := (evaluateCached g (.standard identity') o raw c').1.value
        ValueKind.of v = ValueKind.of v' ∧
        (∀ s, v = some (.scalar s) ↔ v' = some (.scalar s)) ∧
        v.bind (Graph.ofDocument d).textOf = v'.bind g.textOf ∧
        ∀ a b, v = some (.object a) → v' = some (.object b) → ∀ accessor,
          (Graph.ofDocument d).hasGetter a accessor = g.hasGetter b accessor) ∧
      ∀ (event : Option String) (raw : ReceiverConfig),
        receiversFor d event raw = Registry.standard.receivers g o event 0 raw := by
  refine ⟨?_, fun g o h => ⟨fun raw identity identity' c c' => ?_, h.receivers_eq hd⟩⟩
  · have hrecorded := recorded_addTree "" Graph.empty d.root
    rw [hroot, Graph.addTree] at hrecorded
    rw [hroot]
    exact ⟨_, _, hrecorded⟩
  · simp only [evaluateCached_fst]
    obtain ⟨t, hshows, hmirrors⟩ := h.exists_treeValue hd raw identity identity'
    exact hmirrors.alike hshows

/-- A town with a person. -/
def town : Document where
  root := .obj [("mayor", .obj [("full_name", .str "Ann"), ("terms", .arr [.obj [], .null])]),
    ("name", .str "Bonn")]
  sorted := by
    simp only [Json.Sorted, Json.SortedMembers, Json.SortedItems]
    decide

/-- The same of records, with the fields in another order. -/
def townRecords : Graph where
  records := [
    .ofFields "person" [("terms", .scalar (.arr [.obj [], .null])), ("full_name", .ofText "Ann")],
    .ofFields "town" [("name", .ofText "Bonn"), ("mayor", .object (.record 0))]]
  documents := []
  stored := []

theorem recorded_town : Recorded townRecords town.root (.object (.record 1)) := by
  have hstr : ∀ s, Recorded townRecords (.str s) (.ofText s) := fun s => .scalar fun _ => Json.noConfusion
  have hterms : Recorded townRecords (.arr [.obj [], .null]) (.scalar (.arr [.obj [], .null])) :=
    .scalar fun _ => Json.noConfusion
  have hmayor : Recorded townRecords
      (.obj [("full_name", .str "Ann"), ("terms", .arr [.obj [], .null])]) (.object (.record 0)) :=
    .record (.cons (hstr _) (.cons hterms .nil)) (.swap _ _ _) rfl
  exact .record (.cons hmayor (.cons (hstr _) .nil)) (.swap _ _ _) rfl

/-- The records of the town have the receivers and the getters of the document. -/
theorem town_answers_alike :
    town.root.Unequivocal ∧ Recorded townRecords town.root (.object (.record 1)) ∧
    (∀ raw, receiversFor town none raw = Registry.standard.receivers townRecords (.record 1) none 0 raw) ∧
    (receiversFor town none
      (.ofList [("\x7b\x7bmayor.fullName\x7d\x7d", "\x7b\x7bname\x7d\x7d")])).entries = [("Ann", "Bonn")] ∧
    ∀ accessor, (Graph.ofDocument town).hasGetter Graph.root accessor =
      townRecords.hasGetter (.record 1) accessor := by
  have hstr : ∀ s, (Json.str s).Unequivocal := fun s =>
    Json.unequivocal_of_ne_obj fun _ => Json.noConfusion
  have harr : ∀ vs, (Json.arr vs).Unequivocal := fun vs =>
    Json.unequivocal_of_ne_obj fun _ => Json.noConfusion
  have hmayor : (Json.obj [("full_name", .str "Ann"), ("terms", .arr [.obj [], .null])]).Unequivocal := by
    refine Json.unequivocal_obj (by decide) rfl ?_
    simp [hstr, harr]
  have htown : town.root.Unequivocal := by
    refine Json.unequivocal_obj (by decide) rfl ?_
    simp [hstr, hmayor]
  obtain ⟨hanswers, hreceivers⟩ := (records_answer_alike rfl htown).2 _ _ recorded_town
  obtain ⟨-, -, -, hgetters⟩ := hanswers "\x7b\x7b\x7d\x7d" 0 0 .empty .empty
  exact ⟨htown, recorded_town, hreceivers none, by decide +kernel, hgetters _ _ rfl rfl⟩

end Recipients
