/-
# Documents that no path tells apart

Two trees answer a path alike if their values can be paired so that paired values are objects together,
have one text if they are scalars, and lead by segments of one camel-case form to paired values, once
references are followed. The pairing is kept by every step down the trees, hence by walks of any length,
through loops of references too. The walks through the pointers of the two documents then end with values
of one kind, and with one text.

Key definitions: `ValueKind`, `TreeValue.Alike`, `Json.Bisimulation`, `Answers`.
Key theorems: `Json.Bisimulation.treeWalk`, `Json.Bisimulation.answers`, `Json.Bisimulation.answers_self`,
`Json.Bisimulation.resolveReceivers_eq`.
-/
import Mathlib.Data.List.Forall2
import Recipients.Proofs.Document.TreeWalk

namespace Recipients

/-- What a path can end with, the value apart. -/
inductive ValueKind where
  | absent
  | scalar
  | object
  | deferred
  deriving DecidableEq

/-- The kind of a value that is perhaps absent. -/
def ValueKind.of : Option FieldValue → ValueKind
  | none => absent
  | some (.scalar _) => scalar
  | some (.object _) => object
  | some (.deferred _) => deferred

/-- Both are read further, or both end the walk, with related values. -/
inductive TreeValue.Alike (R : Json → Json → Prop) : TreeValue → TreeValue → Prop
  | node {v w} : R v w → Alike R (.node v) (.node w)
  | scalar {v w} : R v w → (¬ ∃ ms, v = .obj ms) → Alike R (.scalar v) (.scalar w)

/-- The relation pairs values of two trees that no segment, in whatever spelling, tells apart. -/
structure Json.Bisimulation (root root' : Json) (R : Json → Json → Prop) : Prop where
  object_iff : ∀ {v w}, R v w → ((∃ ms, v = .obj ms) ↔ ∃ ns, w = .obj ns)
  text : ∀ {v w}, R v w → TreeValue.text? (.scalar v) = TreeValue.text? (.scalar w)
  step : ∀ {v w s s'}, R v w → camelCase s = camelCase s' →
    Option.Rel R ((v.childLike? s).bind (root.settle? maxLoads))
      ((w.childLike? s').bind (root'.settle? maxLoads))

/-- The values of two graphs are absent together, related scalars or objects. -/
inductive Answers (R : Json → Json → Prop) : Option FieldValue → Option FieldValue → Prop
  | absent : Answers R none none
  | scalar {v w} : R v w → (¬ ∃ ms, v = .obj ms) → Answers R (some (.scalar v)) (some (.scalar w))
  | object {o o'} : Answers R (some (.object o)) (some (.object o'))

theorem Answers.kind_eq {R : Json → Json → Prop} {v v' : Option FieldValue} (h : Answers R v v') :
    ValueKind.of v = ValueKind.of v' := by
  cases h <;> rfl

namespace Json.Bisimulation

variable {root root' : Json} {R : Json → Json → Prop} (h : Bisimulation root root' R)

include h

theorem alike_of {v w : Json} (hvw : R v w) : TreeValue.Alike R (.of v) (.of w) := by
  have hscalar : ∀ {u : Json}, (¬ ∃ ms, u = .obj ms) → TreeValue.of u = .scalar u := by
    intro u hu
    cases u with
    | obj ms => exact absurd ⟨ms, rfl⟩ hu
    | null => rfl
    | bool _ => rfl
    | num _ => rfl
    | str _ => rfl
    | arr _ => rfl
  by_cases hv : ∃ ms, v = .obj ms
  · obtain ⟨ns, rfl⟩ := (h.object_iff hvw).mp hv
    obtain ⟨ms, rfl⟩ := hv
    exact .node hvw
  · have hw : ¬ ∃ ns, w = .obj ns := fun hw => hv ((h.object_iff hvw).mpr hw)
    rw [hscalar hv, hscalar hw]
    exact .scalar hvw hv

theorem alike_map {x y : Option Json} (hxy : Option.Rel R x y) :
    Option.Rel (TreeValue.Alike R) (x.map .of) (y.map .of) := by
  cases hxy with
  | some hvw => exact .some (h.alike_of hvw)
  | none => exact .none

/-- **Paths of one spelling lead to paired values.** -/
theorem treeWalk {ss ss' : List String} (hs : List.Forall₂ (fun s s' => camelCase s = camelCase s') ss ss') :
    ∀ {t t' : Option TreeValue}, Option.Rel (TreeValue.Alike R) t t' →
      Option.Rel (TreeValue.Alike R) (treeWalk root t ss) (treeWalk root' t' ss') := by
  induction hs with
  | nil =>
    rintro t t' (ht | _)
    · cases ht with
      | node hvw => exact .some (.node hvw)
      | scalar hvw hv => exact .some (.scalar hvw hv)
    · exact .none
  | @cons s s' ss ss' hspelling _ ih =>
    rintro t t' (ht | _)
    · cases ht with
      | node hvw =>
        simp only [Recipients.treeWalk]
        exact ih (h.alike_map (h.step hvw hspelling))
      | scalar hvw hv => exact .some (.scalar hvw hv)
    · exact .none

omit h in
/-- Values of two documents answer alike if they show alike values of the trees. -/
theorem answers_of_shows {v v' : Option FieldValue} {t t' : Option TreeValue} (hv : Shows root v t)
    (ht : Option.Rel (TreeValue.Alike R) t t') (hv' : Shows root' v' t') : Answers R v v' := by
  cases ht with
  | none =>
    cases hv
    cases hv'
    exact .absent
  | some ht =>
    cases ht with
    | node hvw =>
      cases hv
      cases hv'
      exact .object
    | scalar hvw hne =>
      cases hv
      cases hv'
      exact .scalar hvw hne

end Json.Bisimulation

section Documents

variable {d d' : Document} {R : Json → Json → Prop}

/-- No object of a document has a text. -/
theorem textOf_ofDocument_object (d : Document) (o : ObjectRef) :
    (Graph.ofDocument d).textOf (.object o) = none := by
  cases o <;> rfl

/-- Answers that are alike have one text. -/
theorem Answers.textOf_eq (h : Json.Bisimulation d.root d'.root R) {v v' : Option FieldValue}
    (hv : Answers R v v') :
    v.bind (Graph.ofDocument d).textOf = v'.bind (Graph.ofDocument d').textOf := by
  cases hv with
  | absent => rfl
  | scalar hvw _ =>
    simp only [Option.bind_some, textOf_scalar]
    exact h.text hvw
  | object => simp only [Option.bind_some, textOf_ofDocument_object]

/-- Paths of one spelling have answers of one kind at the roots, and of one text. -/
theorem Json.Bisimulation.answers (h : Json.Bisimulation d.root d'.root R) (hroot : R d.root d'.root)
    {raw raw' : String} {path path' : PathExpression} (hraw : PathExpression.parse? raw = some path)
    (hraw' : PathExpression.parse? raw' = some path')
    (hsegments : List.Forall₂ (fun s s' => camelCase s = camelCase s') path.segments path'.segments)
    (identity identity' : Nat) :
    Answers R (evaluate (.ofDocument d) (.standard identity) Graph.root raw).value
      (evaluate (.ofDocument d') (.standard identity') Graph.root raw').value := by
  have hwalk : Option.Rel (TreeValue.Alike R) (treeEvaluate d.root raw) (treeEvaluate d'.root raw') := by
    simp only [treeEvaluate, hraw, hraw']
    exact h.treeWalk hsegments (.some (.node hroot))
  exact answers_of_shows (shows_treeEvaluate d identity raw) hwalk (shows_treeEvaluate d' identity' raw')

/-- A raw text has alike answers at the two roots if texts are paired with themselves. -/
theorem Json.Bisimulation.answers_self (h : Json.Bisimulation d.root d'.root R)
    (hroot : R d.root d'.root) (htext : ∀ s, R (.str s) (.str s)) (raw : String)
    (identity identity' : Nat) :
    Answers R (evaluate (.ofDocument d) (.standard identity) Graph.root raw).value
      (evaluate (.ofDocument d') (.standard identity') Graph.root raw).value := by
  cases hraw : PathExpression.parse? raw with
  | none =>
    simp only [evaluate, hraw]
    have hne : ¬ ∃ ms, Json.str raw = .obj ms := fun ⟨_, h⟩ => Json.noConfusion h
    exact .scalar (htext raw) hne
  | some path =>
    have hsame : List.Forall₂ (fun s s' => camelCase s = camelCase s') path.segments path.segments :=
      List.forall₂_same.mpr fun _ _ => rfl
    exact h.answers hroot hraw hraw hsame identity identity'

/-- Then configurations come to the same receivers. -/
theorem Json.Bisimulation.resolveReceivers_eq (h : Json.Bisimulation d.root d'.root R)
    (hroot : R d.root d'.root) (htext : ∀ s, R (.str s) (.str s)) (raw : ReceiverConfig)
    (identity identity' : Nat) :
    resolveReceivers (.ofDocument d) (.standard identity) Graph.root raw =
      resolveReceivers (.ofDocument d') (.standard identity') Graph.root raw := by
  have htexts : textAt (.ofDocument d) (.standard identity) Graph.root =
      textAt (.ofDocument d') (.standard identity') Graph.root :=
    funext fun s => (h.answers_self hroot htext s identity identity').textOf_eq h
  rw [resolveReceivers, resolveReceivers, htexts]

end Documents

end Recipients
