/-
# What is remembered over many calls

Two kinds of tables fill while an evaluator is in use. Its own knows segments: all of a path before the
walk begins, however soon the walk ends, and nothing of a literal. That of a document knows keys: those
that were looked at on the way to a match, whichever of its objects was asked, and whether it was asked
for the value or not. A call adds names to both and takes none away, and what a table holds of a name is
its camel case, by its type; so over a whole run the tables only grow. Answers do not depend on them.

Key definitions: `WritesSegment`, `Graph.HasKey`, `CamelCache.Grows`, `Graph.Grows`.
Key theorems: `writesSegment_iff`, `contains_evaluateCached`, `grows_evaluateCached`,
`Evaluator.contains_runCached`, `Evaluator.grows_runCached`, `Evaluator.getElem?_runCached`,
`Evaluator.remembering_invisible_and_exact`.
-/
import Recipients.Path.Calls
import Recipients.Proofs.Getter.EditHistory
import Recipients.Proofs.Path.Remembered
import Recipients.Proofs.Document.Pointers
import Recipients.Proofs.Path.Segments

namespace Recipients

/-! ### One table -/

namespace CamelCache

/-- What a table holds: for each name that it knows the camel case, and nothing else. -/
theorem mem_entries_iff {c : CamelCache} {name known : String} :
    (name, known) ∈ c.table.entries ↔ c.contains name = true ∧ known = camelCase name := by
  have hcontains : c.contains name = true ↔ ∃ w, (name, w) ∈ c.table.entries := by
    rw [contains, OrderedMap.contains, Option.isSome_iff_exists]
    exact exists_congr fun w => OrderedMap.get?_eq_some_iff
  constructor
  · intro h
    exact ⟨hcontains.mpr ⟨known, h⟩, c.exact _ h⟩
  · rintro ⟨h, rfl⟩
    obtain ⟨w, hw⟩ := hcontains.mp h
    have hexact : w = camelCase name := c.exact _ hw
    exact hexact ▸ hw

theorem contains_empty (name : String) : empty.contains name = false := rfl

/-- Normalising a name adds the name, if it is new, and nothing else. -/
theorem contains_normalize (c : CamelCache) (name other : String) :
    (c.normalize name).2.contains other = true ↔ c.contains other = true ∨ other = name := by
  unfold normalize
  cases h : c.table.get? name with
  | some known =>
    have hknown : c.contains name = true := by rw [contains, OrderedMap.contains, h]; rfl
    constructor
    · exact .inl
    · rintro (hother | rfl)
      · exact hother
      · exact hknown
  | none =>
    show ((c.table.insert name (camelCase name)).get? other).isSome = true ↔
      (c.table.get? other).isSome = true ∨ other = name
    rw [OrderedMap.get?_insert]
    by_cases hother : other = name
    · simp [hother]
    · simp [hother]

/-- A table that has grown: it knows what it knew, and else only what is allowed. -/
structure Grows (allowed : String → Prop) (c c' : CamelCache) : Prop where
  kept : ∀ {name}, c.contains name = true → c'.contains name = true
  new : ∀ {name}, c'.contains name = true → c.contains name = true ∨ allowed name

variable {allowed : String → Prop} {a b c : CamelCache}

theorem Grows.refl (allowed : String → Prop) (c : CamelCache) : Grows allowed c c :=
  ⟨fun h => h, .inl⟩

theorem Grows.trans (h : Grows allowed a b) (h' : Grows allowed b c) : Grows allowed a c where
  kept hname := h'.kept (h.kept hname)
  new hname := by
    rcases h'.new hname with hname | hallowed
    · exact h.new hname
    · exact .inr hallowed

/-- A table that has grown lists what it listed. -/
theorem Grows.entries_subset (h : Grows allowed a b) : a.table.entries ⊆ b.table.entries := by
  rintro ⟨name, known⟩ he
  obtain ⟨hname, hknown⟩ := mem_entries_iff.mp he
  exact mem_entries_iff.mpr ⟨h.kept hname, hknown⟩

theorem grows_normalize (c : CamelCache) {name : String} (h : allowed name) :
    Grows allowed c (c.normalize name).2 where
  kept hother := (c.contains_normalize name _).mpr (.inl hother)
  new hother := by
    rcases (c.contains_normalize name _).mp hother with hother | rfl
    · exact .inl hother
    · exact .inr h

end CamelCache

/-! ### Segments -/

/-- The segment is written in the text: the text has the form of a path, and the segment is one of the
pieces between its dots, with a character that is not blank. -/
def WritesSegment (raw segment : String) : Prop :=
  ∃ inner piece, raw.toList = PathExpression.braced inner ∧ piece ∈ Text.pieces '.' inner ∧
    (∃ c ∈ piece, Text.isBlank c = false) ∧ segment = String.ofList piece

/-- The segments of a path are those that its text writes. -/
theorem writesSegment_iff {raw segment : String} :
    WritesSegment raw segment ↔ ∃ path, PathExpression.parse? raw = some path ∧ segment ∈ path.segments := by
  constructor
  · rintro ⟨inner, piece, hraw, hpiece, ⟨ch, hch, hblank⟩, rfl⟩
    have hkept : (!piece.all Text.isBlank) = true := by
      simp only [Bool.not_eq_true', List.all_eq_false]
      exact ⟨ch, hch, by simp [hblank]⟩
    have hpath : PathExpression.parse? raw =
        some ⟨((Text.pieces '.' inner).filter fun p => !p.all Text.isBlank).map String.ofList⟩ := by
      rw [PathExpression.parse?, PathExpression.inner?_eq_some_iff.mpr hraw, Option.map_some]
    exact ⟨_, hpath, List.mem_map_of_mem (List.mem_filter.mpr ⟨hpiece, hkept⟩)⟩
  · rintro ⟨path, hpath, hsegment⟩
    obtain ⟨inner, hinner, rfl⟩ := Option.map_eq_some_iff.mp hpath
    obtain ⟨piece, hpiece, rfl⟩ := List.mem_map.mp hsegment
    obtain ⟨hmem, hkept⟩ := List.mem_filter.mp hpiece
    refine ⟨inner, piece, PathExpression.inner?_eq_some_iff.mp hinner, hmem, ?_, rfl⟩
    simp only [Bool.not_eq_true', List.all_eq_false] at hkept
    obtain ⟨ch, hch, hblank⟩ := hkept
    exact ⟨ch, hch, by simpa using hblank⟩

/-- All segments of a path are remembered. -/
theorem contains_accessorsCached (segment : String) : ∀ (segments : List String) (c : CamelCache),
    (accessorsCached segments c).2.contains segment = true ↔
      c.contains segment = true ∨ segment ∈ segments
  | [], c => by simp [accessorsCached]
  | s :: segments, c => by
    have hrest := contains_accessorsCached segment segments (c.normalize s).2
    rw [accessorsCached, hrest, CamelCache.contains_normalize, List.mem_cons, or_assoc]

variable (g : Graph) (chain : FieldGetterChain) (object : ObjectRef)

/-- Evaluating remembers the segments of the text, wherever the walk ends. -/
theorem contains_evaluateCached (raw segment : String) (c : Caches) :
    (evaluateCached g chain object raw c).2.segments.contains segment = true ↔
      c.segments.contains segment = true ∨ WritesSegment raw segment := by
  rw [writesSegment_iff]
  unfold evaluateCached
  cases hpath : PathExpression.parse? raw with
  | none => simp
  | some path =>
    have hpaths : (∃ p, some path = some p ∧ segment ∈ p.segments) ↔ segment ∈ path.segments := by simp
    rw [hpaths]
    exact contains_accessorsCached segment path.segments c.segments

theorem contains_resolvedPairsCached (segment : String) : ∀ (es : List (String × String)) (c : Caches),
    (resolvedPairsCached g chain object es c).2.segments.contains segment = true ↔
      c.segments.contains segment = true ∨
        ∃ raw ∈ es.flatMap (fun e => [e.1, e.2]), WritesSegment raw segment
  | [], c => by simp [resolvedPairsCached]
  | (rawAddress, rawName) :: es, c => by
    rw [resolvedPairsCached]
    simp only [contains_resolvedPairsCached segment es, contains_evaluateCached, List.flatMap_cons,
      List.mem_append, List.mem_cons, List.not_mem_nil, or_false, or_and_right, exists_or,
      exists_eq_left, or_assoc]

/-! ### Keys -/

/-- The key is one of an object of the document, which stands at some pointer. -/
def Graph.HasKey (g : Graph) (d : Nat) (key : String) : Prop :=
  ∃ document pointer members, g.documents[d]? = some document ∧
    document.root.at? pointer = some (.obj members) ∧ key ∈ members.map Prod.fst

/-- The tables of all documents have grown by keys of their own documents. -/
def Graph.Grows (g : Graph) (c c' : DocumentCaches) : Prop :=
  ∀ d, (c d).Grows (g.HasKey d) (c' d)

variable {g chain object} {a b c : DocumentCaches}

theorem Graph.Grows.refl (g : Graph) (c : DocumentCaches) : g.Grows c c :=
  fun d => .refl (g.HasKey d) (c d)

theorem Graph.Grows.trans (h : g.Grows a b) (h' : g.Grows b c) : g.Grows a c :=
  fun d => (h d).trans (h' d)

/-- A search remembers keys among those it goes through. -/
theorem grows_findKeyCached {allowed : String → Prop} (stem : String) :
    ∀ (keys : List String) (c : CamelCache), (∀ key ∈ keys, allowed key) →
      c.Grows allowed (findKeyCached stem keys c).2
  | [], c, _ => .refl allowed c
  | key :: keys, c, h => by
    have hfirst : c.Grows allowed (c.normalize key).2 := c.grows_normalize (h key List.mem_cons_self)
    unfold findKeyCached
    by_cases hstem : (c.normalize key).1 = stem
    · simp only [hstem, if_true]
      exact hfirst
    · simp only [hstem, if_false]
      exact hfirst.trans (grows_findKeyCached stem keys _ fun k hk => h k (List.mem_cons_of_mem key hk))

/-- Looking for a key grows the table of the object's document, and no other. -/
theorem grows_keyForCached (d : Nat) (pointer accessor : String) (c : DocumentCaches) :
    g.Grows c (g.keyForCached d pointer accessor c).2 := by
  unfold Graph.keyForCached
  split
  · rename_i stem members _ hmembers
    obtain ⟨document, hdocument, hmembers⟩ := Option.bind_eq_some_iff.mp hmembers
    have hkeys : ∀ key ∈ members.map Prod.fst, g.HasKey d key := fun key hkey =>
      ⟨document, pointer, members, hdocument, Document.members?_eq_some_iff.mp hmembers, hkey⟩
    intro i
    unfold DocumentCaches.update
    by_cases hi : i = d
    · subst hi
      simp only [if_true]
      exact grows_findKeyCached stem _ _ hkeys
    · simp only [hi, if_false]
      exact .refl _ _
  · exact .refl g c

theorem grows_hasGetterCached (accessor : String) (c : DocumentCaches) :
    g.Grows c (g.hasGetterCached object accessor c).2 := by
  cases object with
  | record id => exact .refl g c
  | node d pointer => exact grows_keyForCached d pointer accessor c

theorem grows_callGetterCached (accessor : String) (c : DocumentCaches) :
    g.Grows c (g.callGetterCached object accessor c).2 := by
  cases object with
  | record id => exact .refl g c
  | node d pointer => exact grows_keyForCached d pointer accessor c

theorem grows_handlesCached (f : FieldGetter) (accessor : String) (c : DocumentCaches) :
    g.Grows c (f.handlesCached g object accessor c).2 := by
  unfold FieldGetter.handlesCached
  cases f.rule with
  | stock => exact grows_hasGetterCached accessor c
  | custom _ _ => exact .refl g c

theorem grows_retrieveCached (f : FieldGetter) (accessor : String) (c : DocumentCaches) :
    g.Grows c (f.retrieveCached g object accessor c).2 := by
  unfold FieldGetter.retrieveCached
  cases f.rule with
  | stock => exact grows_callGetterCached accessor c
  | custom _ _ => exact .refl g c

/-- Whichever getters are asked, and for whatever, the tables only grow. -/
theorem grows_retrieveAllCached (accessor : String) : ∀ (fs : List FieldGetter) (c : DocumentCaches),
    g.Grows c (FieldGetterChain.retrieveAllCached g object accessor fs c).2
  | [], c => .refl g c
  | f :: fs, c => by
    have hasked : g.Grows c (f.handlesCached g object accessor c).2 := grows_handlesCached f accessor c
    have hread : g.Grows c (f.retrieveCached g object accessor (f.handlesCached g object accessor c).2).2 :=
      hasked.trans (grows_retrieveCached f accessor _)
    unfold FieldGetterChain.retrieveAllCached
    dsimp only
    split
    · split
      · exact hread
      · exact hread.trans (grows_retrieveAllCached accessor fs _)
    · exact hasked.trans (grows_retrieveAllCached accessor fs _)

/-- Step by step a walk grows the tables of the documents that it goes through. -/
theorem grows_walkCached : ∀ (accessors : List String) (v : Option FieldValue) (c : DocumentCaches),
    g.Grows c (walkCached g chain v accessors c).2
  | [], v, c => by
    rw [walkCached_nil]
    exact .refl g c
  | _ :: _, none, c => .refl g c
  | _ :: _, some (.scalar _), c => .refl g c
  | _ :: _, some (.deferred _), c => .refl g c
  | accessor :: rest, some (.object o), c => by
    have hstep : g.Grows c (chain.retrieveCached g o accessor c).2 :=
      grows_retrieveAllCached accessor chain.getters c
    exact hstep.trans (grows_walkCached rest _ _)

theorem grows_evaluateCached (raw : String) (c : Caches) :
    g.Grows c.documents (evaluateCached g chain object raw c).2.documents := by
  unfold evaluateCached
  cases PathExpression.parse? raw with
  | none => exact .refl g c.documents
  | some path => exact grows_walkCached _ _ _

theorem grows_resolvedPairsCached : ∀ (es : List (String × String)) (c : Caches),
    g.Grows c.documents (resolvedPairsCached g chain object es c).2.documents
  | [], c => .refl g c.documents
  | (rawAddress, rawName) :: es, c => by
    have haddress : g.Grows c.documents (evaluateCached g chain object rawAddress c).2.documents :=
      grows_evaluateCached rawAddress c
    have hname : g.Grows c.documents
        (evaluateCached g chain object rawName (evaluateCached g chain object rawAddress c).2).2.documents :=
      haddress.trans (grows_evaluateCached rawName _)
    exact hname.trans (grows_resolvedPairsCached es _)

/-! ### One call -/

namespace EvaluatorCall

/-- What a call is answered without tables. -/
def answer (g : Graph) (chain : FieldGetterChain) : EvaluatorCall → EvaluatorAnswer
  | .evaluate object raw => .walk (Recipients.evaluate g chain object raw)
  | .accessors _ path _ => .names path.accessors
  | .resolve object raw => .receivers (resolveReceivers g chain object raw)
  | .asks object accessor => .has (g.hasGetter object accessor)
  | .reads object accessor => .value (g.callGetter object accessor)
  | .edits edit => .found (chain.edit edit).2

/-- A call is answered without regard to what is remembered. -/
theorem answerCached_fst (g : Graph) (chain : FieldGetterChain) (call : EvaluatorCall) (c : Caches) :
    (call.answerCached g chain c).1 = call.answer g chain := by
  cases call with
  | evaluate object raw => exact congrArg EvaluatorAnswer.walk (evaluateCached_fst g chain object raw c)
  | accessors raw path parsed =>
    exact congrArg EvaluatorAnswer.names (accessorsCached_fst path.segments c.segments)
  | resolve object raw =>
    exact congrArg EvaluatorAnswer.receivers (resolveReceiversCached_fst g chain object raw c)
  | asks object accessor =>
    exact congrArg EvaluatorAnswer.has (g.hasGetterCached_fst object accessor c.documents)
  | reads object accessor =>
    exact congrArg EvaluatorAnswer.value (g.callGetterCached_fst object accessor c.documents)
  | edits edit => rfl

/-- A call remembers the segments of its raw texts. -/
theorem contains_answerCached (g : Graph) (chain : FieldGetterChain) (call : EvaluatorCall) (c : Caches)
    (segment : String) : (call.answerCached g chain c).2.segments.contains segment = true ↔
      c.segments.contains segment = true ∨ ∃ raw ∈ call.raws, WritesSegment raw segment := by
  cases call with
  | evaluate object raw =>
    simp only [raws, List.mem_singleton, exists_eq_left]
    exact contains_evaluateCached g chain object raw segment c
  | accessors raw path parsed =>
    have hpath : WritesSegment raw segment ↔ segment ∈ path.segments := by
      rw [writesSegment_iff, parsed]
      simp
    simp only [raws, List.mem_singleton, exists_eq_left, hpath]
    exact contains_accessorsCached segment path.segments c.segments
  | resolve object raw => exact contains_resolvedPairsCached g chain object segment raw.entries c
  | asks object accessor => simp [answerCached, raws]
  | reads object accessor => simp [answerCached, raws]
  | edits edit => simp [answerCached, raws]

/-- A call grows the tables of documents by keys of theirs. -/
theorem grows_answerCached (g : Graph) (chain : FieldGetterChain) (call : EvaluatorCall) (c : Caches) :
    g.Grows c.documents (call.answerCached g chain c).2.documents := by
  cases call with
  | evaluate object raw => exact grows_evaluateCached raw c
  | accessors raw path parsed => exact .refl g c.documents
  | resolve object raw => exact grows_resolvedPairsCached raw.entries c
  | asks object accessor => exact grows_hasGetterCached accessor c.documents
  | reads object accessor => exact grows_callGetterCached accessor c.documents
  | edits edit => exact .refl g c.documents

end EvaluatorCall

/-! ### Runs -/

namespace Evaluator

/-- After a run the getters have been through the edits of the run. -/
theorem getters_runCached (g : Graph) : ∀ (calls : List EvaluatorCall) (e : Evaluator),
    (e.runCached g calls).2.getters = e.getters.edited (calls.filterMap EvaluatorCall.edit?)
  | [], _ => rfl
  | call :: calls, e => by
    have hedits : (call :: calls).filterMap EvaluatorCall.edit? =
        call.edit?.toList ++ calls.filterMap EvaluatorCall.edit? := by
      cases h : call.edit? with
      | none => rw [List.filterMap_cons_none h, Option.toList_none, List.nil_append]
      | some edit => rw [List.filterMap_cons_some h, Option.toList_some, List.singleton_append]
    rw [hedits, FieldGetterChain.edited_append, runCached]
    exact getters_runCached g calls _

/-- A run remembers the segments of all raw texts of its calls. -/
theorem contains_runCached (g : Graph) (segment : String) : ∀ (calls : List EvaluatorCall) (e : Evaluator),
    (e.runCached g calls).2.caches.segments.contains segment = true ↔
      e.caches.segments.contains segment = true ∨
        ∃ call ∈ calls, ∃ raw ∈ call.raws, WritesSegment raw segment
  | [], e => by simp [runCached]
  | call :: calls, e => by
    have hcall := call.contains_answerCached g e.getters e.caches segment
    have hrest := contains_runCached g segment calls (e.callCached g call).2
    rw [List.exists_mem_cons_iff, ← or_assoc, ← hcall]
    exact hrest

/-- A run grows the tables of documents by keys of theirs. -/
theorem grows_runCached (g : Graph) : ∀ (calls : List EvaluatorCall) (e : Evaluator),
    g.Grows e.caches.documents (e.runCached g calls).2.caches.documents
  | [], e => .refl g e.caches.documents
  | call :: calls, e => by
    have hcall : g.Grows e.caches.documents (e.callCached g call).2.caches.documents :=
      call.grows_answerCached g e.getters e.caches
    exact hcall.trans (grows_runCached g calls (e.callCached g call).2)

/-- A run can be made in two parts. -/
theorem runCached_append (g : Graph) (after : List EvaluatorCall) :
    ∀ (before : List EvaluatorCall) (e : Evaluator),
      e.runCached g (before ++ after) =
        ((e.runCached g before).1 ++ ((e.runCached g before).2.runCached g after).1,
          ((e.runCached g before).2.runCached g after).2)
  | [], _ => rfl
  | call :: before, e => by
    simp only [List.cons_append, runCached, runCached_append g after before]

theorem length_answers_runCached (g : Graph) : ∀ (calls : List EvaluatorCall) (e : Evaluator),
    (e.runCached g calls).1.length = calls.length
  | [], _ => rfl
  | call :: calls, e => by
    simp only [runCached, List.length_cons, length_answers_runCached g calls]

/-- In the middle of a run a call is answered as if nothing were remembered, with the getters that the
edits before it have left. -/
theorem getElem?_runCached (g : Graph) (e : Evaluator) (before after : List EvaluatorCall)
    (call : EvaluatorCall) :
    (e.runCached g (before ++ call :: after)).1[before.length]? =
      some (call.answer g (e.getters.edited (before.filterMap EvaluatorCall.edit?))) := by
  have hlength := length_answers_runCached g before e
  rw [runCached_append, List.getElem?_append_right (Nat.le_of_eq hlength), hlength, Nat.sub_self,
    runCached, List.getElem?_cons_zero, callCached, EvaluatorCall.answerCached_fst, getters_runCached]

/-- Nothing that is remembered in the course of a run is lost or changed later on. -/
theorem entries_subset_of_run (g : Graph) (e : Evaluator) (before after : List EvaluatorCall) :
    (e.runCached g before).2.caches.segments.table.entries ⊆
        (e.runCached g (before ++ after)).2.caches.segments.table.entries ∧
      ∀ d, ((e.runCached g before).2.caches.documents d).table.entries ⊆
        ((e.runCached g (before ++ after)).2.caches.documents d).table.entries := by
  have hsegments : (e.runCached g before).2.caches.segments.Grows
      (fun segment => ∃ call ∈ after, ∃ raw ∈ call.raws, WritesSegment raw segment)
      ((e.runCached g before).2.runCached g after).2.caches.segments :=
    ⟨(contains_runCached g _ after _).mpr ∘ .inl, (contains_runCached g _ after _).mp⟩
  have hdocuments := grows_runCached g after (e.runCached g before).2
  rw [runCached_append]
  exact ⟨hsegments.entries_subset, fun d => (hdocuments d).entries_subset⟩

/-- **Remembering is invisible and exact.** Take any calls of one evaluator, over any objects, with edits
of its getters and direct questions to objects among them. Every call is answered as the same call of a
fresh evaluator with the getters of the moment, before fresh documents. In the end the evaluator
remembers exactly the segments that are written in the raw texts it was handed, each with its camel case;
a document remembers only keys of its own objects, each with its camel case; and whatever was remembered
after some of the calls still is. -/
theorem remembering_invisible_and_exact (g : Graph) (chain : FieldGetterChain)
    (calls : List EvaluatorCall) :
    ((fresh chain).runCached g calls).1.length = calls.length ∧
    (∀ before call after, calls = before ++ call :: after →
      ((fresh chain).runCached g calls).1[before.length]? =
        some (call.answerCached g (chain.edited (before.filterMap EvaluatorCall.edit?)) .empty).1) ∧
    (∀ segment known,
      (segment, known) ∈ ((fresh chain).runCached g calls).2.caches.segments.table.entries ↔
        known = camelCase segment ∧ ∃ call ∈ calls, ∃ raw ∈ call.raws, WritesSegment raw segment) ∧
    (∀ d key known,
      (key, known) ∈ (((fresh chain).runCached g calls).2.caches.documents d).table.entries →
        known = camelCase key ∧ g.HasKey d key) ∧
    ∀ before after, calls = before ++ after →
      ((fresh chain).runCached g before).2.caches.segments.table.entries ⊆
          ((fresh chain).runCached g calls).2.caches.segments.table.entries ∧
        ∀ d, (((fresh chain).runCached g before).2.caches.documents d).table.entries ⊆
          (((fresh chain).runCached g calls).2.caches.documents d).table.entries := by
  refine ⟨length_answers_runCached g calls _, ?_, fun segment known => ?_, fun d key known hentry => ?_,
    ?_⟩
  · rintro before call after rfl
    rw [getElem?_runCached, EvaluatorCall.answerCached_fst]
    rfl
  · have hnothing : (fresh chain).caches.segments.contains segment = false :=
      CamelCache.contains_empty segment
    rw [CamelCache.mem_entries_iff, contains_runCached, hnothing]
    simp only [Bool.false_eq_true, false_or]
    exact and_comm
  · obtain ⟨hkey, hknown⟩ := CamelCache.mem_entries_iff.mp hentry
    refine ⟨hknown, ?_⟩
    rcases (grows_runCached g calls (fresh chain) d).new hkey with hbefore | hhas
    · cases (CamelCache.contains_empty key).symm.trans hbefore
    · exact hhas
  · rintro before after rfl
    exact entries_subset_of_run g (fresh chain) before after

/-- A walk that stops at its first step: all segments are remembered by the evaluator, and by the document
the key that was compared in vain. A literal adds nothing, and a second evaluation neither. -/
example :
    let g := Graph.ofDocument (.ofJson (.obj [("HomeAddress", .obj [("city", .str "Bonn")])]))
    let path := "\x7b\x7bowner_name.first\x7d\x7d"
    let caches := ((fresh (.standard 0)).runCached g
      [.evaluate Graph.root path, .evaluate Graph.root "owner", .evaluate Graph.root path]).2.caches
    caches.segments.table.entries = [("owner_name", "OwnerName"), ("first", "First")] ∧
      (caches.documents 0).table.entries = [("HomeAddress", "HomeAddress")] := by
  decide +kernel

end Evaluator

end Recipients
