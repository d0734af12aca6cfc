/-
# Spelling does not matter

Keys of one camel-case form are one name in different spellings. A document in which no object lists a
name twice can have all its keys respelled, which puts the members of its objects in another order and
changes every pointer: still each name is found under the one key that spells it, and the values found
under two spellings are the same values, respelled again. So is the path respelled without effect.

Objects are respelled where they are reached through objects only; what stands in an array is left alone.

Key definitions: `Json.Inside`, `Json.Unequivocal`, `Json.Respelled`, `RespelledPath`.
Key theorems: `Json.childLike?_eq_some_iff`, `Json.bisimulation_twins`, `respelled_answers_alike`.
-/
import Mathlib.Data.List.Nodup
import Recipients.Proofs.Document.Bisimulation
import Recipients.Proofs.OrderedMap
import Recipients.Proofs.Path.Segments

namespace Recipients

open Text

namespace Json

/-! ### Objects that list each name once -/

/-- The second value is reached from the first one through objects only. -/
inductive Inside : Json → Json → Prop
  | self {v : Json} : Inside v v
  | member {k : String} {v w : Json} {members : List (String × Json)} :
    (k, v) ∈ members → Inside v w → Inside (.obj members) w

/-- No object that is reached through objects only is a reference or has two keys with one camel-case
form. -/
def Unequivocal (v : Json) : Prop :=
  ∀ members, Inside v (.obj members) →
    (members.map fun m => camelCase m.1).Nodup ∧ (obj members).reference? = none

variable {k s s' : String} {v w : Json} {ms ns : List (String × Json)}

theorem Unequivocal.member (h : (obj ms).Unequivocal) (hm : (k, v) ∈ ms) : v.Unequivocal :=
  fun members hv => h members (.member hm hv)

theorem Unequivocal.names_nodup (h : (obj ms).Unequivocal) : (ms.map fun m => camelCase m.1).Nodup :=
  (h ms .self).1

theorem Unequivocal.reference? (h : v.Unequivocal) : v.reference? = none := by
  cases v with
  | obj members => exact (h members .self).2
  | null => rfl
  | bool _ => rfl
  | num _ => rfl
  | str _ => rfl
  | arr _ => rfl

theorem unequivocal_of_ne_obj (h : ∀ members, v ≠ .obj members) : v.Unequivocal := by
  intro members hv
  cases hv with
  | self => exact absurd rfl (h members)
  | member _ _ => exact absurd rfl (h _)

/-- What is to be checked of an object, level by level. -/
theorem unequivocal_obj (hnames : (ms.map fun m => camelCase m.1).Nodup)
    (hreference : (obj ms).reference? = none) (hms : ∀ m ∈ ms, m.2.Unequivocal) :
    (obj ms).Unequivocal := by
  intro members hv
  cases hv with
  | self => exact ⟨hnames, hreference⟩
  | member hm hv => exact hms _ hm members hv

/-- Where each name is listed once, the only key that spells a segment leads to its value. -/
theorem childLike?_eq_some_iff (h : (ms.map fun m => camelCase m.1).Nodup) :
    (obj ms).childLike? s = some w ↔ ∃ k, (k, w) ∈ ms ∧ camelCase k = camelCase s := by
  have hnames : ((ms.map Prod.fst).map camelCase).Nodup := by rwa [List.map_map]
  have hkeys : (ms.map Prod.fst).Nodup := List.Nodup.of_map camelCase hnames
  have hsorted : (ms.map Prod.fst).mergeSort.Perm (ms.map Prod.fst) := List.mergeSort_perm _ _
  unfold childLike?
  constructor
  · intro hchild
    obtain ⟨k, hk, hw⟩ := Option.bind_eq_some_iff.mp hchild
    have hspelling : camelCase k = camelCase s := by simpa using List.find?_some hk
    exact ⟨k, mem_of_child?_obj hw, hspelling⟩
  · rintro ⟨k, hm, hspelling⟩
    have hk : k ∈ (ms.map Prod.fst).mergeSort := hsorted.mem_iff.mpr (List.mem_map_of_mem hm)
    refine Option.bind_eq_some_iff.mpr ⟨k, ?_, OrderedMap.lookup_eq_some_of_mem hkeys hm⟩
    cases hfound : (ms.map Prod.fst).mergeSort.find? fun key => camelCase key == camelCase s with
    | none => exact absurd hspelling (by simpa using List.find?_eq_none.mp hfound k hk)
    | some j =>
      have hj : j ∈ ms.map Prod.fst := hsorted.mem_iff.mp (List.mem_of_find?_eq_some hfound)
      have hsame : camelCase j = camelCase k := by
        rw [hspelling]
        simpa using List.find?_some hfound
      rw [List.inj_on_of_nodup_map hnames hj (hsorted.mem_iff.mp hk) hsame]

/-! ### Respelled documents -/

mutual

/-- The second value is the first one with the keys of its objects respelled, in every object that is
reached through objects only, and its members put in any order. -/
inductive Respelled : Json → Json → Prop
  | same {a : Json} : (∀ members, a ≠ .obj members) → Respelled a a
  | object {as bs cs : List (String × Json)} :
    RespelledMembers as bs → bs.Perm cs → Respelled (.obj as) (.obj cs)

/-- The members are the given ones, one by one, with respelled keys and values. -/
inductive RespelledMembers : List (String × Json) → List (String × Json) → Prop
  | nil : RespelledMembers [] []
  | cons {i j : String} {a b : Json} {as bs : List (String × Json)} : camelCase j = camelCase i →
    Respelled a b → RespelledMembers as bs → RespelledMembers ((i, a) :: as) ((j, b) :: bs)

end

/-- Each member has its respelling. -/
theorem RespelledMembers.forth : ∀ {ms ns : List (String × Json)}, RespelledMembers ms ns →
    ∀ m ∈ ms, ∃ n ∈ ns, camelCase n.1 = camelCase m.1 ∧ Respelled m.2 n.2
  | _, _, .nil, m, hm => by cases hm
  | _, _, .cons hk hv hms, m, hm => by
    rcases List.mem_cons.mp hm with rfl | hm
    · exact ⟨_, List.mem_cons_self, hk, hv⟩
    · obtain ⟨n, hn, h⟩ := forth hms m hm
      exact ⟨n, List.mem_cons_of_mem _ hn, h⟩

/-- Each respelled member is the respelling of one. -/
theorem RespelledMembers.back : ∀ {ms ns : List (String × Json)}, RespelledMembers ms ns →
    ∀ n ∈ ns, ∃ m ∈ ms, camelCase n.1 = camelCase m.1 ∧ Respelled m.2 n.2
  | _, _, .nil, n, hn => by cases hn
  | _, _, .cons hk hv hms, n, hn => by
    rcases List.mem_cons.mp hn with rfl | hn
    · exact ⟨_, List.mem_cons_self, hk, hv⟩
    · obtain ⟨m, hm, h⟩ := back hms n hn
      exact ⟨m, List.mem_cons_of_mem _ hm, h⟩

/-- The values of two respelled documents are paired with each other. -/
structure Twins (v w : Json) : Prop where
  respelled : Respelled v w
  left : v.Unequivocal
  right : w.Unequivocal

/-- Twins are one value that is no object, or two objects. -/
theorem Twins.eq_or_objects (h : Twins v w) :
    (v = w ∧ ∀ members, v ≠ .obj members) ∨ ∃ ms ns, v = .obj ms ∧ w = .obj ns := by
  cases h.respelled with
  | same hv => exact .inl ⟨rfl, hv⟩
  | object _ _ => exact .inr ⟨_, _, rfl, rfl⟩

theorem childLike?_of_ne_obj (h : ∀ members, v ≠ .obj members) : v.childLike? s = none := by
  cases v with
  | obj members => exact absurd rfl (h members)
  | null => rfl
  | bool _ => rfl
  | num _ => rfl
  | str _ => rfl
  | arr _ => rfl

/-- What is found in one of two twins is found in the other one under every spelling. -/
theorem Twins.childLike?_iff (h : Twins v w) (hs : camelCase s = camelCase s') :
    (∀ a, v.childLike? s = some a → ∃ b, w.childLike? s' = some b ∧ Twins a b) ∧
    (∀ b, w.childLike? s' = some b → ∃ a, v.childLike? s = some a ∧ Twins a b) := by
  obtain ⟨hrespelled, hv, hw⟩ := h
  cases hrespelled with
  | same hne => simp [childLike?_of_ne_obj hne]
  | @object as bs cs hmembers hperm =>
    constructor
    · intro a ha
      obtain ⟨i, hi, hname⟩ := (childLike?_eq_some_iff hv.names_nodup).mp ha
      obtain ⟨⟨j, b⟩, hj, hspelling, hab⟩ := hmembers.forth _ hi
      have hmem : (j, b) ∈ cs := hperm.mem_iff.mp hj
      have hb : (obj cs).childLike? s' = some b :=
        (childLike?_eq_some_iff hw.names_nodup).mpr ⟨j, hmem, (hspelling.trans hname).trans hs⟩
      exact ⟨b, hb, hab, hv.member hi, hw.member hmem⟩
    · intro b hb
      obtain ⟨j, hmem, hname⟩ := (childLike?_eq_some_iff hw.names_nodup).mp hb
      obtain ⟨⟨i, a⟩, hi, hspelling, hab⟩ := hmembers.back _ (hperm.mem_iff.mpr hmem)
      have ha : (obj as).childLike? s = some a :=
        (childLike?_eq_some_iff hv.names_nodup).mpr
          ⟨i, hi, (hspelling.symm.trans hname).trans hs.symm⟩
      exact ⟨a, ha, hab, hv.member hi, hw.member hmem⟩

/-- No value of a twin is a reference, so each is handed out as it stands. -/
theorem Twins.settle?_childLike? (h : Twins v w) (hs : camelCase s = camelCase s') (root root' : Json) :
    Option.Rel Twins ((v.childLike? s).bind (root.settle? maxLoads))
      ((w.childLike? s').bind (root'.settle? maxLoads)) := by
  obtain ⟨hforth, hback⟩ := h.childLike?_iff hs
  cases ha : v.childLike? s with
  | none =>
    have hb : w.childLike? s' = none := by
      refine Option.eq_none_iff_forall_ne_some.mpr fun b hb => ?_
      obtain ⟨a, ha', -⟩ := hback b hb
      simp [ha] at ha'
    rw [hb]
    exact .none
  | some a =>
    obtain ⟨b, hb, htwins⟩ := hforth a ha
    rw [hb, Option.bind_some, Option.bind_some, settle?_of_reference?_eq_none htwins.left.reference?,
      settle?_of_reference?_eq_none htwins.right.reference?]
    exact .some htwins

/-- **Respelled values are told apart by no path.** -/
theorem bisimulation_twins (root root' : Json) : Bisimulation root root' Twins where
  object_iff := by
    intro v w h
    rcases h.eq_or_objects with ⟨rfl, -⟩ | ⟨ms, ns, rfl, rfl⟩
    · exact Iff.rfl
    · exact ⟨fun _ => ⟨ns, rfl⟩, fun _ => ⟨ms, rfl⟩⟩
  text := by
    intro v w h
    rcases h.eq_or_objects with ⟨rfl, -⟩ | ⟨ms, ns, rfl, rfl⟩
    · rfl
    · rfl
  step := fun h hs => h.settle?_childLike? hs root root'

end Json

/-! ### Respelled paths -/

/-- A blank piece of a path stays, any other one becomes one with the same camel-case form. Neither has
dots. -/
inductive RespelledPiece : List Char → List Char → Prop
  | blank {p : List Char} : p.all isBlank → RespelledPiece p p
  | segment {p q : List Char} : ¬ p.all isBlank → ¬ q.all isBlank → '.' ∉ p → '.' ∉ q →
    camelCase (String.ofList q) = camelCase (String.ofList p) → RespelledPiece p q

/-- The second path expression is the first one with its segments respelled. -/
def RespelledPath (raw raw' : String) : Prop :=
  ∃ ps qs, raw.toList = PathExpression.braced (joinWith '.' ps) ∧
    raw'.toList = PathExpression.braced (joinWith '.' qs) ∧ List.Forall₂ RespelledPiece ps qs

theorem RespelledPiece.no_dots {p q : List Char} (h : RespelledPiece p q) : '.' ∉ p ∧ '.' ∉ q := by
  cases h with
  | blank hp =>
    have hdot : '.' ∉ p := fun hmem => absurd (List.all_eq_true.mp hp '.' hmem) (by decide)
    exact ⟨hdot, hdot⟩
  | segment _ _ hp hq _ => exact ⟨hp, hq⟩

theorem no_dots_of_forall₂ {ps qs : List (List Char)} (h : List.Forall₂ RespelledPiece ps qs) :
    (∀ p ∈ ps, '.' ∉ p) ∧ ∀ q ∈ qs, '.' ∉ q := by
  induction h with
  | nil => simp
  | cons hpq _ ih =>
    rw [List.forall_mem_cons, List.forall_mem_cons]
    exact ⟨⟨hpq.no_dots.1, ih.1⟩, hpq.no_dots.2, ih.2⟩

/-- The segments are respelled one by one. -/
theorem segments_of_forall₂ {ps qs : List (List Char)} (h : List.Forall₂ RespelledPiece ps qs) :
    List.Forall₂ (fun s s' => camelCase s = camelCase s')
      ((ps.filter fun p => !p.all isBlank).map String.ofList)
      ((qs.filter fun q => !q.all isBlank).map String.ofList) := by
  induction h with
  | nil => exact .nil
  | cons hpq _ ih =>
    cases hpq with
    | blank hp => simpa [List.filter_cons, hp] using ih
    | segment hp hq _ _ hname =>
      rw [List.filter_cons_of_pos (by simpa using hp), List.filter_cons_of_pos (by simpa using hq)]
      exact .cons hname.symm ih

theorem RespelledPath.parse? {raw raw' : String} (h : RespelledPath raw raw') :
    ∃ path path', PathExpression.parse? raw = some path ∧ PathExpression.parse? raw' = some path' ∧
      List.Forall₂ (fun s s' => camelCase s = camelCase s') path.segments path'.segments := by
  obtain ⟨ps, qs, hraw, hraw', hpieces⟩ := h
  obtain ⟨hps, hqs⟩ := no_dots_of_forall₂ hpieces
  exact ⟨_, _, PathExpression.parse?_joinWith hraw hps, PathExpression.parse?_joinWith hraw' hqs,
    segments_of_forall₂ hpieces⟩

/-! ### Answers -/

/-- Twins that end a walk are the same scalar. -/
theorem Answers.scalar_iff {v v' : Option FieldValue} (h : Answers Json.Twins v v') (s : Json) :
    v = some (.scalar s) ↔ v' = some (.scalar s) := by
  cases h with
  | absent => exact Iff.rfl
  | object => simp
  | scalar htwins hne =>
    rcases htwins.eq_or_objects with ⟨rfl, -⟩ | ⟨ms, -, rfl, -⟩
    · exact Iff.rfl
    · exact absurd ⟨ms, rfl⟩ hne

variable {d d' : Document} {raw raw' : String}

/-- **Spelling does not matter.** Let a document have all its keys respelled, where no object lists a name
twice or is a reference, before or after, and let a path be respelled too. Whatever names are remembered,
the path ends with a value of the same kind, with the same scalar and with the same text. -/
theorem respelled_answers_alike (hroot : Json.Respelled d.root d'.root) (hd : d.root.Unequivocal)
    (hd' : d'.root.Unequivocal) (hraw : RespelledPath raw raw') (identity identity' : Nat)
    (c c' : Caches) :
    let v := (evaluateCached (.ofDocument d) (.standard identity) Graph.root raw c).1.value
    let v' := (evaluateCached (.ofDocument d') (.standard identity') Graph.root raw' c').1.value
    ValueKind.of v = ValueKind.of v' ∧
    (∀ s, v = some (.scalar s) ↔ v' = some (.scalar s)) ∧
    v.bind (Graph.ofDocument d).textOf = v'.bind (Graph.ofDocument d').textOf := by
  intro v v'
  have hbisimulation : Json.Bisimulation d.root d'.root Json.Twins := Json.bisimulation_twins _ _
  obtain ⟨path, path', hparse, hparse', hsegments⟩ := hraw.parse?
  have hanswers : Answers Json.Twins v v' := by
    simp only [v, v', evaluateCached_fst]
    exact hbisimulation.answers ⟨hroot, hd, hd'⟩ hparse hparse' hsegments identity identity'
  exact ⟨hanswers.kind_eq, hanswers.scalar_iff, hanswers.textOf_eq hbisimulation⟩

/-- A person with an address. -/
def plainPerson : Document where
  root := .obj [("full_name", .str "Ann"),
    ("home_address", .obj [("city", .str "Bonn"), ("zip_code", .str "53111")])]
  sorted := by
    simp only [Json.Sorted, Json.SortedMembers]
    decide

/-- The same person, with the members in another order. -/
def fancyPerson : Document where
  root := .obj [("HomeAddress", .obj [("_zipCode", .str "53111"), ("city", .str "Bonn")]),
    ("__fullName", .str "Ann")]
  sorted := by
    simp only [Json.Sorted, Json.SortedMembers]
    decide

theorem respelled_zip_code :
    let v := (evaluateCached (.ofDocument plainPerson) (.standard 0) Graph.root
      "\x7b\x7bhome_address. .zip_code\x7d\x7d" ⟨.empty, .empty⟩).1.value
    let v' := (evaluateCached (.ofDocument fancyPerson) (.standard 0) Graph.root
      "\x7b\x7bHome__address. .zipCode\x7d\x7d" ⟨.empty, .empty⟩).1.value
    ValueKind.of v = ValueKind.of v' ∧
    (∀ s, v = some (.scalar s) ↔ v' = some (.scalar s)) ∧
    v.bind (Graph.ofDocument plainPerson).textOf = v'.bind (Graph.ofDocument fancyPerson).textOf := by
  have hstr : ∀ s, (Json.str s).Unequivocal := fun s =>
    Json.unequivocal_of_ne_obj fun _ => Json.noConfusion
  have hsame : ∀ s, Json.Respelled (.str s) (.str s) := fun s => .same fun _ => Json.noConfusion
  have haddress : Json.Respelled (.obj [("city", .str "Bonn"), ("zip_code", .str "53111")])
      (.obj [("_zipCode", .str "53111"), ("city", .str "Bonn")]) :=
    .object (.cons (j := "city") rfl (hsame _) (.cons (j := "_zipCode") (by decide) (hsame _) .nil))
      (.swap _ _ _)
  have hroot : Json.Respelled plainPerson.root fancyPerson.root :=
    .object (.cons (j := "__fullName") (by decide) (hsame _)
      (.cons (j := "HomeAddress") (by decide) haddress .nil)) (.swap _ _ _)
  have hplain : plainPerson.root.Unequivocal := by
    refine Json.unequivocal_obj (by decide) rfl ?_
    simp only [List.forall_mem_cons, hstr, true_and]
    refine ⟨Json.unequivocal_obj (by decide) rfl ?_, List.forall_mem_nil _⟩
    simp [hstr]
  have hfancy : fancyPerson.root.Unequivocal := by
    refine Json.unequivocal_obj (by decide) rfl ?_
    simp only [List.forall_mem_cons, hstr, true_and]
    refine ⟨Json.unequivocal_obj (by decide) rfl ?_, List.forall_mem_nil _⟩
    simp [hstr]
  have hraw : RespelledPath "\x7b\x7bhome_address. .zip_code\x7d\x7d"
      "\x7b\x7bHome__address. .zipCode\x7d\x7d" :=
    ⟨["home_address".toList, [' '], "zip_code".toList], ["Home__address".toList, [' '], "zipCode".toList],
      by decide, by decide, .cons (.segment (by decide) (by decide) (by decide) (by decide) (by decide))
        (.cons (.blank (by decide))
          (.cons (.segment (by decide) (by decide) (by decide) (by decide) (by decide)) .nil))⟩
  exact respelled_answers_alike hroot hplain hfancy hraw 0 0 ⟨.empty, .empty⟩ ⟨.empty, .empty⟩

end Recipients
