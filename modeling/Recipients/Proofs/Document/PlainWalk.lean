/-
# The plain walk over a document

What a raw text stands for at a document can be said of the tree alone. A text that does not stand between
two pairs of braces stands for itself. Otherwise the inner text is cut at its dots, and the walk goes along
the pieces that are not blank, from the root, whatever the root is. From an object it goes to the value
under the first key, in the order of code points, that has the camel-case form of the piece, and takes in
the place of a reference what the reference stands for; no more than eight references are replaced one
after the other. The walk ends with nothing where nothing is found, and it ends with any value that is no
object, whatever pieces are left.

The walk is given as a relation, by its rules. It knows no handles, getters, loads or remembered names, and
each text has exactly one outcome: the one that evaluation ends with.

Key definitions: `Json.StandsFor`, `Json.Under`, `PlainWalk`, `PlainValue`.
Key theorems: `Json.settle?_eq_some_iff`, `Json.childLike?_eq_some_iff_under`, `plainWalk_iff`,
`plainValue_iff`, `evaluateCached_walks_plainly`.
-/
import Recipients.Proofs.Document.TreeWalk
import Recipients.Proofs.OrderedMap
import Recipients.Proofs.Path.Grammar

namespace Recipients

/-! ### The rules of the walk -/

namespace Json

/-- What a value of the document stands for if no more than so many references may be replaced: itself
unless it is a reference, which stands for what the value that it points to stands for. -/
inductive StandsFor (root : Json) : Nat → Json → Json → Prop
  | itself {n : Nat} {v : Json} : (∀ s, v ≠ .obj [("$ref", .str s)]) → StandsFor root n v v
  | reference {n : Nat} {s pointer : String} {v w : Json} : Targets s pointer →
    root.PointsTo pointer v → StandsFor root n v w → StandsFor root (n + 1) (.obj [("$ref", .str s)]) w

/-- The value of an object under a name: the one of the first key, in the order of code points, that has
the camel-case form of the name. -/
inductive Under : Json → String → Json → Prop
  | first {ms : List (String × Json)} {key name : String} {v : Json} : ms.lookup key = some v →
    camelCase key = camelCase name → (∀ m ∈ ms, camelCase m.1 = camelCase name → key ≤ m.1) →
    Under (.obj ms) name v

end Json

/-- The walk along the pieces of a path, and what it ends with. -/
inductive PlainWalk (root : Json) : TreeValue → List String → Option TreeValue → Prop
  | arrived {t : TreeValue} : PlainWalk root t [] (some t)
  | ended {v : Json} {name : String} {rest : List String} :
    PlainWalk root (.scalar v) (name :: rest) (some (.scalar v))
  | onward {v u w : Json} {name : String} {rest : List String} {outcome : Option TreeValue} :
    v.Under name u → root.StandsFor 8 u w → PlainWalk root (.of w) rest outcome →
    PlainWalk root (.node v) (name :: rest) outcome
  | missing {v : Json} {name : String} {rest : List String} :
    (∀ u w, v.Under name u → ¬ root.StandsFor 8 u w) → PlainWalk root (.node v) (name :: rest) none

/-- What a raw text stands for at the root of a document. -/
inductive PlainValue (root : Json) : String → Option TreeValue → Prop
  | literal {raw : String} : (∀ inner, raw ≠ "\x7b\x7b" ++ inner ++ "\x7d\x7d") →
    PlainValue root raw (some (.scalar (.str raw)))
  | path {inner : String} {outcome : Option TreeValue} :
    PlainWalk root (.node root) ((dotPieces inner).filter fun piece => !Text.isBlankText piece) outcome →
    PlainValue root ("\x7b\x7b" ++ inner ++ "\x7d\x7d") outcome

/-! ### The walk is computed -/

namespace Json

variable {root v w : Json}

theorem standsFor_of_settle? : ∀ {n : Nat} {v : Json}, root.settle? n v = some w → root.StandsFor n v w
  | 0, v, h => by
    rw [settle?] at h
    split at h
    · -- a reference that may not be replaced any more stands for nothing
      cases h
    · rename_i hv
      cases h
      exact .itself (reference?_eq_none_iff.mp (Option.not_isSome_iff_eq_none.mp hv))
  | n + 1, v, h => by
    rw [settle?] at h
    split at h
    · rename_i hv
      cases h
      exact .itself (reference?_eq_none_iff.mp hv)
    · rename_i target hv
      obtain ⟨s, rfl, htarget⟩ := reference?_eq_some_iff.mp hv
      obtain ⟨u, hu, hw⟩ := Option.bind_eq_some_iff.mp h
      exact .reference htarget (at?_eq_some_iff.mp hu) (standsFor_of_settle? hw)

/-- A value settles for what it stands for, loops of references for nothing. -/
theorem settle?_eq_some_iff {n : Nat} : root.settle? n v = some w ↔ root.StandsFor n v w := by
  refine ⟨standsFor_of_settle?, fun h => ?_⟩
  induction h with
  | @itself n v hshape => exact settle?_of_reference?_eq_none (reference?_eq_none_iff.mpr hshape) n
  | @reference n s pointer v w htarget hpointer _ ih =>
    have hreference : (obj [("$ref", .str s)]).reference? = some pointer :=
      reference?_eq_some_iff.mpr ⟨s, rfl, htarget⟩
    rw [settle?, hreference]
    exact Option.bind_eq_some_iff.mpr ⟨v, hpointer.at?_eq, ih⟩

/-- A reference that points to itself stands for nothing. -/
theorem not_standsFor_of_self {s pointer : String} (htarget : Targets s pointer)
    (hself : root.PointsTo pointer (.obj [("$ref", .str s)])) :
    ∀ (n : Nat) (w : Json), ¬ root.StandsFor n (.obj [("$ref", .str s)]) w
  | _, _, .itself hshape => hshape s rfl
  | n + 1, w, .reference htarget' hpointer h => by
    obtain rfl := (dropHash_eq_iff.mpr htarget).symm.trans (dropHash_eq_iff.mpr htarget')
    obtain rfl := Option.some.inj (hself.at?_eq.symm.trans hpointer.at?_eq)
    exact not_standsFor_of_self htarget hself n w h

/-- The keys of an object, put in order. -/
theorem pairwise_mergeSort_keys (ks : List String) :
    ks.mergeSort.Pairwise fun j k => j ≤ k ∧ (k ≤ j → j = k) := by
  have hsorted : ks.mergeSort.Pairwise fun j k => decide (j ≤ k) = true :=
    List.pairwise_mergeSort (by simpa using fun i j k => String.le_trans)
      (by simpa using String.le_total) ks
  exact hsorted.imp fun hle =>
    ⟨of_decide_eq_true hle, String.le_antisymm (of_decide_eq_true hle)⟩

/-- The search through the keys in order ends at the key that the rule takes. -/
theorem childLike?_eq_some_iff_under {name : String} : v.childLike? name = some w ↔ v.Under name w := by
  constructor
  · intro h
    cases v with
    | obj ms =>
      obtain ⟨key, hfound, hvalue⟩ := Option.bind_eq_some_iff.mp h
      obtain ⟨⟨-, hkey⟩, hfirst⟩ := (OrderedMap.find?_eq_some_iff_least (· ≤ ·) String.le_refl
        (pairwise_mergeSort_keys _)).mp hfound
      refine .first hvalue (eq_of_beq hkey) fun m hm hname => hfirst m.1 ⟨?_, beq_iff_eq.mpr hname⟩
      exact List.mem_mergeSort.mpr (List.mem_map_of_mem hm)
    | null => cases h
    | bool _ => cases h
    | num _ => cases h
    | str _ => cases h
    | arr _ => cases h
  · intro h
    cases h with
    | @first ms key _ _ hvalue hkey hfirst =>
      refine Option.bind_eq_some_iff.mpr ⟨key, ?_, hvalue⟩
      refine (OrderedMap.find?_eq_some_iff_least (· ≤ ·) String.le_refl (pairwise_mergeSort_keys _)).mpr
        ⟨⟨?_, beq_iff_eq.mpr hkey⟩, fun other ⟨hother, hname⟩ => ?_⟩
      · exact List.mem_mergeSort.mpr (List.mem_map_of_mem (mem_of_child?_obj hvalue))
      · obtain ⟨m, hm, rfl⟩ := List.mem_map.mp (List.mem_mergeSort.mp hother)
        exact hfirst m hm (eq_of_beq hname)

/-- An object has one value under a name. -/
theorem Under.unique {name : String} {u : Json} (hv : v.Under name u) (hw : v.Under name w) : u = w :=
  Option.some.inj
    ((childLike?_eq_some_iff_under.mpr hv).symm.trans (childLike?_eq_some_iff_under.mpr hw))

end Json

variable {root : Json}

/-- One piece of a path, from an object on. -/
theorem step_eq_some_iff {v w : Json} {name : String} :
    (v.childLike? name).bind (root.settle? maxLoads) = some w ↔
      ∃ u, v.Under name u ∧ root.StandsFor 8 u w := by
  rw [Option.bind_eq_some_iff]
  exact exists_congr fun u => and_congr Json.childLike?_eq_some_iff_under Json.settle?_eq_some_iff

theorem step_eq_none_iff {v : Json} {name : String} :
    (v.childLike? name).bind (root.settle? maxLoads) = none ↔
      ∀ u w, v.Under name u → ¬ root.StandsFor 8 u w := by
  simp only [Option.eq_none_iff_forall_ne_some, ne_eq, step_eq_some_iff, not_exists, not_and]
  exact forall_comm

theorem treeWalk_none (root : Json) (names : List String) : treeWalk root none names = none := by
  cases names <;> rfl

/-- The computed walk goes by the rules, piece by piece. -/
theorem plainWalk_treeWalk : ∀ (names : List String) (t : TreeValue),
    PlainWalk root t names (treeWalk root (some t) names)
  | [], .node v => .arrived
  | [], .scalar v => .arrived
  | name :: rest, .scalar v => .ended
  | name :: rest, .node v => by
    rw [treeWalk]
    cases hstep : (v.childLike? name).bind (root.settle? maxLoads) with
    | none =>
      -- whatever pieces are left are not looked at
      rw [Option.map_none, treeWalk_none]
      exact .missing (step_eq_none_iff.mp hstep)
    | some w =>
      obtain ⟨u, hu, hw⟩ := step_eq_some_iff.mp hstep
      exact .onward hu hw (plainWalk_treeWalk rest (.of w))

/-- The rules have no other outcome. -/
theorem plainWalk_iff {t : TreeValue} {names : List String} {outcome : Option TreeValue} :
    PlainWalk root t names outcome ↔ treeWalk root (some t) names = outcome := by
  constructor
  · intro h
    induction h with
    | @arrived t => cases t <;> rfl
    | ended => rfl
    | onward hu hw _ ih => rw [treeWalk, step_eq_some_iff.mpr ⟨_, hu, hw⟩, Option.map_some, ih]
    | missing hnone => rw [treeWalk, step_eq_none_iff.mpr hnone, Option.map_none, treeWalk_none]
  · rintro rfl
    exact plainWalk_treeWalk names t

theorem plainValue_iff {raw : String} {outcome : Option TreeValue} :
    PlainValue root raw outcome ↔ treeEvaluate root raw = outcome := by
  unfold treeEvaluate
  constructor
  · intro h
    cases h with
    | literal hraw => rw [PathExpression.parse?_eq_none_iff.mpr hraw]
    | @path inner _ hwalk =>
      have hparse : PathExpression.parse? ("\x7b\x7b" ++ inner ++ "\x7d\x7d") = some ⟨segmentsIn inner⟩ :=
        PathExpression.parse?_written inner
      rw [hparse]
      exact plainWalk_iff.mp hwalk
  · rintro rfl
    cases hparse : PathExpression.parse? raw with
    | none => exact .literal (PathExpression.parse?_eq_none_iff.mp hparse)
    | some path =>
      obtain ⟨inner, rfl, hsegments⟩ := PathExpression.parse?_eq_some_iff.mp hparse
      show PlainValue root _ (treeWalk root (some (.node root)) path.segments)
      rw [hsegments]
      exact .path (plainWalk_treeWalk _ _)

/-- **Evaluating at a document is walking its tree.** At every document every raw text stands for exactly
one outcome of the plain walk. Whatever names are remembered, evaluation with the standard getters ends
with it: with nothing, with the same scalar, or with an object named by a pointer to the place where the
walk ends. Both have one text. -/
theorem evaluateCached_walks_plainly (d : Document) (identity : Nat) (raw : String) (c : Caches) :
    ∃ t, (∀ outcome, PlainValue d.root raw outcome ↔ outcome = t) ∧
      Shows d.root
        (evaluateCached (.ofDocument d) (.standard identity) Graph.root raw c).1.value t ∧
      (evaluateCached (.ofDocument d) (.standard identity) Graph.root raw c).1.value.bind
        (Graph.ofDocument d).textOf = t.bind TreeValue.text? := by
  have hshows := shows_treeEvaluate d identity raw
  rw [evaluateCached_fst]
  exact ⟨treeEvaluate d.root raw, fun _ => plainValue_iff.trans eq_comm, hshows, hshows.textOf_eq d⟩

/-- Two keys of one camel-case form, of which the first in order is a reference. It leads into an array
under a key of marks, where another reference leads to the end. One reference leads to itself. -/
def directory : Document :=
  .ofJson (.obj
    [("first_name", .str "later"),
      ("firstName", .obj [("$ref", .str "#/~0~1/1")]),
      ("~/", .arr [.str "zero", .obj [("$ref", .str "/end")]]),
      ("end", .obj [("deep", .str "found")]),
      ("loop", .obj [("$ref", .str "/loop")])])

theorem root_directory : directory.root = .obj
    [("end", .obj [("deep", .str "found")]),
      ("firstName", .obj [("$ref", .str "#/~0~1/1")]),
      ("first_name", .str "later"),
      ("loop", .obj [("$ref", .str "/loop")]),
      ("~/", .arr [.str "zero", .obj [("$ref", .str "/end")]])] := by rfl

/-- The walk takes the earlier key and goes through both references. -/
theorem plainValue_directory : PlainValue directory.root "\x7b\x7bfirst_name. .deep\x7d\x7d"
    (some (.scalar (.str "found"))) := by
  have hnames : ((dotPieces "first_name. .deep").filter fun piece => !Text.isBlankText piece) =
      ["first_name", "deep"] := by
    rw [dotPieces_eq_pieces]
    decide +kernel
  have hfirst : directory.root.Under "first_name" (.obj [("$ref", .str "#/~0~1/1")]) := by
    rw [root_directory]
    exact @Json.Under.first _ "firstName" _ _ rfl (by decide +kernel) (by decide +kernel)
  have hitem : directory.root.PointsTo "/~0~1/1" (.obj [("$ref", .str "/end")]) :=
    Json.at?_eq_some_iff.mp (by rfl)
  have hend : directory.root.PointsTo "/end" (.obj [("deep", .str "found")]) :=
    Json.at?_eq_some_iff.mp (by rfl)
  have hfollowed : directory.root.StandsFor 8 (.obj [("$ref", .str "#/~0~1/1")])
      (.obj [("deep", .str "found")]) :=
    .reference (.marked "/~0~1/1") hitem
      (.reference (Json.dropHash_eq_iff.mp (by decide)) hend (.itself (by simp)))
  have hdeep : Json.Under (.obj [("deep", .str "found")]) "deep" (.str "found") :=
    @Json.Under.first _ "deep" _ _ rfl rfl (by simp)
  refine @PlainValue.path _ "first_name. .deep" _ ?_
  rw [hnames]
  exact .onward hfirst hfollowed (.onward hdeep (.itself (by simp)) .arrived)

/-- The walk ends with nothing at the loop. -/
theorem plainValue_directory_loop : PlainValue directory.root "\x7b\x7bloop.deep\x7d\x7d" none := by
  have hnames : ((dotPieces "loop.deep").filter fun piece => !Text.isBlankText piece) =
      ["loop", "deep"] := by
    rw [dotPieces_eq_pieces]
    decide +kernel
  have hloop : directory.root.Under "loop" (.obj [("$ref", .str "/loop")]) := by
    rw [root_directory]
    exact @Json.Under.first _ "loop" _ _ rfl rfl (by decide +kernel)
  have hself : directory.root.PointsTo "/loop" (.obj [("$ref", .str "/loop")]) :=
    Json.at?_eq_some_iff.mp (by rfl)
  refine @PlainValue.path _ "loop.deep" _ ?_
  rw [hnames]
  refine .missing fun u w hu => ?_
  obtain rfl := hu.unique hloop
  exact Json.not_standsFor_of_self (Json.dropHash_eq_iff.mp (by decide)) hself 8 w

/-- Evaluation ends with what the walk ends with, whatever names are remembered. -/
theorem directory_walks :
    PlainValue directory.root "\x7b\x7bfirst_name. .deep\x7d\x7d" (some (.scalar (.str "found"))) ∧
    (∀ c, (evaluateCached (.ofDocument directory) (.standard 0) Graph.root
      "\x7b\x7bfirst_name. .deep\x7d\x7d" c).1.value = some (.scalar (.str "found"))) ∧
    PlainValue directory.root "\x7b\x7bloop.deep\x7d\x7d" none ∧
    ∀ c, (evaluateCached (.ofDocument directory) (.standard 0) Graph.root
      "\x7b\x7bloop.deep\x7d\x7d" c).1.value = none := by
  refine ⟨plainValue_directory, fun c => ?_, plainValue_directory_loop, fun c => ?_⟩
  · obtain ⟨t, hplain, hshows, -⟩ := evaluateCached_walks_plainly directory 0
      "\x7b\x7bfirst_name. .deep\x7d\x7d" c
    rw [← (hplain _).mp plainValue_directory] at hshows
    exact shows_scalar_iff.mp hshows
  · obtain ⟨t, hplain, hshows, -⟩ := evaluateCached_walks_plainly directory 0
      "\x7b\x7bloop.deep\x7d\x7d" c
    rw [← (hplain _).mp plainValue_directory_loop] at hshows
    exact shows_none_iff.mp hshows

end Recipients
