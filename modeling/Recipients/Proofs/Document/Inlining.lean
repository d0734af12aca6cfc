/-
# A reference stands for what it points to

A copy of the value that a reference points to can be put in the place of the reference. Values around the
place then hold the copy further in, other references to the place have one hop less to go, and the copy
may hold references of its own, or the place that it was put in. No path tells the two documents apart as
long as no reference points into the place, every chain of references through it can be followed to its
end, and the copy does not turn the object around it into a reference.

Key definitions: `Json.references`, `Json.Leads`, `Inlinable`, `Inlinable.document`, `Completes`.
Key theorems: `Inlinable.settle?_self`, `Inlinable.bisimulation`, `Inlinable.answers_alike`.
-/
import Recipients.Proofs.Document.Bisimulation
import Recipients.Proofs.Document.Replacement

namespace Recipients

namespace Json

variable {v w new : Json} {key token target : String} {p q : List String}

/-! ### References -/

mutual

/-- The targets of the references in the value, itself included. -/
def references : Json → List String
  | arr items => itemReferences items
  | obj members => (obj members).reference?.toList ++ memberReferences members
  | _ => []

/-- The targets of the references in the items. -/
def itemReferences : List Json → List String
  | [] => []
  | v :: vs => references v ++ itemReferences vs

/-- The targets of the references in the members. -/
def memberReferences : List (String × Json) → List String
  | [] => []
  | (_, v) :: ms => references v ++ memberReferences ms

end

/-- Following `n` references, the first of them to the given target, leads to the place. -/
inductive Leads (root : Json) : Nat → String → List String → Prop
  | here {target tokens} : pointerTokens? target = some tokens → Leads root 1 target tokens
  | onward {n target next tokens} {v : Json} : root.at? target = some v → v.reference? = some next →
    Leads root n next tokens → Leads root (n + 1) target tokens

/-- A chain that is followed to its end within a bound is not longer than that. -/
theorem Leads.le_of_settle? {root : Json} {tokens : List String} : ∀ {n m : Nat} {target : String},
    root.Leads n target tokens → ((root.at? target).bind (root.settle? m)).isSome → n ≤ m + 1
  | _, _, _, .here _, _ => Nat.succ_le_succ (Nat.zero_le _)
  | _, 0, _, .onward hv hnext _, h => by simp [hv, settle?, hnext] at h
  | _, m + 1, _, .onward hv hnext hrest, h => by
    rw [hv, Option.bind_some, settle?, hnext] at h
    exact Nat.succ_le_succ (hrest.le_of_settle? h)

theorem mem_references_of_reference? (h : v.reference? = some target) : target ∈ v.references := by
  obtain ⟨s, rfl, -⟩ := reference?_eq_some_iff.mp h
  rw [references, h]
  exact List.mem_append_left _ List.mem_cons_self

theorem references_subset_items : ∀ {vs : List Json}, v ∈ vs → v.references ⊆ itemReferences vs
  | u :: vs, h => by
    rw [itemReferences]
    rcases List.mem_cons.mp h with rfl | h
    · exact List.subset_append_left _ _
    · exact List.Subset.trans (references_subset_items h) (List.subset_append_right _ _)

theorem references_subset_members : ∀ {ms : List (String × Json)}, (key, v) ∈ ms →
    v.references ⊆ memberReferences ms
  | (k, u) :: ms, h => by
    rw [memberReferences]
    rcases List.mem_cons.mp h with h | h
    · cases h
      exact List.subset_append_left _ _
    · exact List.Subset.trans (references_subset_members h) (List.subset_append_right _ _)

theorem references_child? (h : v.child? token = some w) : w.references ⊆ v.references := by
  cases v with
  | obj members =>
    rw [references]
    exact List.Subset.trans (references_subset_members (mem_of_child?_obj h))
      (List.subset_append_right _ _)
  | arr items =>
    obtain ⟨i, -, hi⟩ := Option.bind_eq_some_iff.mp h
    rw [references]
    exact references_subset_items (List.mem_of_getElem? hi)
  | null => cases h
  | bool _ => cases h
  | num _ => cases h
  | str _ => cases h

/-- What stands at a place refers to nothing that the whole value does not refer to. -/
theorem references_place? : ∀ {p : List String} {v : Json}, v.place? p = some w →
    w.references ⊆ v.references
  | [], v, h => by
    cases h
    exact List.Subset.refl _
  | token :: p, v, h => by
    rw [place?_cons] at h
    obtain ⟨u, hu, hw⟩ := Option.bind_eq_some_iff.mp h
    exact List.Subset.trans (references_place? hw) (references_child? hu)

theorem references_at? {root : Json} {pointer : String} (h : root.at? pointer = some v) :
    v.references ⊆ root.references := by
  obtain ⟨tokens, -, htokens⟩ := Option.bind_eq_some_iff.mp h
  exact references_place? htokens

/-! ### Values around a reference -/

/-- No reference stands around another one. -/
theorem reference?_of_place? {ρ : Json} (h : w.place? (token :: q) = some ρ)
    (hρ : ρ.reference? = some target) : w.reference? = none := by
  refine Option.eq_none_iff_forall_ne_some.mpr fun next hw => ?_
  obtain ⟨s, rfl, -⟩ := reference?_eq_some_iff.mp hw
  rw [place?_cons] at h
  obtain ⟨u, hu, hu'⟩ := Option.bind_eq_some_iff.mp h
  have hmember : (token, u) = ("$ref", .str s) := List.mem_singleton.mp (mem_of_child?_obj hu)
  cases hmember
  cases q with
  | nil =>
    cases hu'
    cases hρ
  | cons _ _ => cases hu'

/-- A text holds no place, so putting a value into a place makes no text. -/
theorem put_ne_str {ρ : Json} (h : w.place? (token :: q) = some ρ) (s : String) :
    w.put (token :: q) new ≠ .str s := by
  intro hput
  cases w with
  | str _ => cases h
  | obj _ => cases hput
  | arr items =>
    obtain ⟨items', hitems⟩ := modifyChild_arr items token fun u => u.put q new
    rw [put, hitems] at hput
    cases hput
  | null => cases hput
  | bool _ => cases hput
  | num _ => cases hput

/-- A value put into an object makes it a reference only if it is the text of the only member. -/
theorem reference?_put {ρ : Json} (h : w.place? (token :: q) = some ρ)
    (hnew : q = [] → token = "$ref" → ∀ m s, w = .obj [m] → new ≠ .str s) :
    (w.put (token :: q) new).reference? = none := by
  refine Option.eq_none_iff_forall_ne_some.mpr fun next hput => ?_
  obtain ⟨s, hobj, -⟩ := reference?_eq_some_iff.mp hput
  rw [place?_cons] at h
  obtain ⟨u, hu, hu'⟩ := Option.bind_eq_some_iff.mp h
  cases w with
  | obj members =>
    rw [put, modifyChild, obj.injEq] at hobj
    obtain ⟨m, rfl, hm⟩ := List.map_eq_singleton_iff.mp hobj
    obtain rfl : (token, u) = m := List.mem_singleton.mp (mem_of_child?_obj hu)
    rw [if_pos rfl, Prod.mk.injEq] at hm
    cases q with
    | nil => exact hnew rfl hm.1 _ s rfl hm.2
    | cons _ _ => exact put_ne_str hu' s hm.2
  | arr items =>
    obtain ⟨items', hitems⟩ := modifyChild_arr items token fun u => u.put q new
    rw [put, hitems] at hobj
    cases hobj
  | null => cases hu
  | bool _ => cases hu
  | num _ => cases hu
  | str _ => cases hu

end Json

/-! ### Inlining -/

/-- There is a reference at the place, below the root, to the value, which is itself no reference. No
reference points strictly inside the place, and no chain of references through it is too long. -/
structure Inlinable (d : Document) (place : List String) (v : Json) : Prop where
  below_root : place ≠ []
  selects : ∃ ρ target, d.root.place? place = some ρ ∧ ρ.reference? = some target ∧
    d.root.at? target = some v
  concrete : v.reference? = none
  not_inside : ∀ target ∈ d.root.references, ∀ tokens, pointerTokens? target = some tokens →
    place <+: tokens → tokens = place
  hops : ∀ target ∈ d.root.references, ∀ n, d.root.Leads n target place → n + 1 ≤ maxLoads

/-- The copy completes a reference: it is a text, and stands alone in the object around it, under
`$ref`. -/
def Completes (d : Document) (place : List String) (v : Json) : Prop :=
  ∃ around member s, place = around ++ ["$ref"] ∧ d.root.place? around = some (.obj [member]) ∧
    v = .str s

/-- What the two documents hold where a walk can be: one value, or a value around the place and the same
with the copy in it. -/
inductive Counterpart (root : Json) (place : List String) (new : Json) : Json → Json → Prop
  | same {w : Json} : w.references ⊆ root.references → w.reference? = none →
    Counterpart root place new w w
  | around {token : String} {p q : List String} {w : Json} : p ++ token :: q = place →
    root.place? p = some w → Counterpart root place new w (w.put (token :: q) new)

namespace Inlinable

variable {d : Document} {place : List String} {v : Json} (h : Inlinable d place v)

include h

/-- The document with the copy in place of the reference. -/
def document : Document where
  root := d.root.put place v
  sorted := by
    obtain ⟨-, target, -, -, hv⟩ := h.selects
    exact Json.sorted_put (Json.sorted_of_at? d.sorted hv) d.sorted

@[simp] theorem document_root : h.document.root = d.root.put place v := rfl

/-- A value around the place is no reference, nor is it one with the copy in it. -/
theorem no_reference_around (hcompletes : ¬ Completes d place v) {token : String} {p q : List String}
    {w : Json} (hplace : p ++ token :: q = place) (hw : d.root.place? p = some w) :
    w.reference? = none ∧ (w.put (token :: q) v).reference? = none := by
  obtain ⟨ρ, target, hρ, htarget, -⟩ := h.selects
  have hinner : w.place? (token :: q) = some ρ := by
    rw [← hplace, Json.place?_append, hw, Option.bind_some] at hρ
    exact hρ
  refine ⟨Json.reference?_of_place? hinner htarget, Json.reference?_put hinner ?_⟩
  rintro rfl rfl member s rfl hv
  exact hcompletes ⟨p, member, s, hplace.symm, hw, hv⟩

/-- A value that has the place in it, or stands there, stands for a counterpart of what the same value
with the copy in it stands for. -/
theorem settle?_put (hcompletes : ¬ Completes d place v) {p q : List String} {w : Json}
    (hplace : p ++ q = place) (hw : d.root.place? p = some w) {bound : Nat}
    (hbound : q = [] → 0 < bound) :
    Option.Rel (Counterpart d.root place v) (d.root.settle? bound w)
      (h.document.root.settle? bound (w.put q v)) := by
  cases q with
  | nil =>
    -- the reference itself: one hop leads to the value whose copy is in its place
    obtain ⟨ρ, target, hρ, htarget, hv⟩ := h.selects
    rw [List.append_nil] at hplace
    subst hplace
    obtain rfl : ρ = w := Option.some.inj (hρ.symm.trans hw)
    have hvalue : v.references ⊆ d.root.references := Json.references_at? hv
    cases bound with
    | zero => exact absurd (hbound rfl) (Nat.lt_irrefl 0)
    | succ n =>
      rw [Json.settle?, htarget]
      simp only [hv, Option.bind_some]
      rw [Json.put, Json.settle?_of_reference?_eq_none h.concrete,
        Json.settle?_of_reference?_eq_none h.concrete]
      exact .some (.same hvalue h.concrete)
  | cons token q =>
    obtain ⟨hw', hput⟩ := h.no_reference_around hcompletes hplace hw
    rw [Json.settle?_of_reference?_eq_none hw', Json.settle?_of_reference?_eq_none hput]
    exact .some (.around hplace hw)

/-- What a reference of the document points to stands for counterparts, if what is found apart from the
place does. -/
theorem settle?_at? (hcompletes : ¬ Completes d place v) {bound : Nat} {target : String}
    (htarget : target ∈ d.root.references) (hbound : pointerTokens? target = some place → 0 < bound)
    (hapart : ∀ w, d.root.at? target = some w →
      Option.Rel (Counterpart d.root place v) (d.root.settle? bound w)
        (h.document.root.settle? bound w)) :
    Option.Rel (Counterpart d.root place v) ((d.root.at? target).bind (d.root.settle? bound))
      ((h.document.root.at? target).bind (h.document.root.settle? bound)) := by
  cases htokens : pointerTokens? target with
  | none =>
    simp only [Json.at?, htokens, Option.bind_none]
    exact .none
  | some p =>
    rw [Json.at?_eq_place? htokens] at hapart
    rw [Json.at?_eq_place? htokens, Json.at?_eq_place? htokens]
    by_cases haround : p <+: place
    · obtain ⟨q, hplace⟩ := haround
      have hput : h.document.root.place? p = (d.root.place? p).map (·.put q v) := by
        rw [h.document_root, ← hplace]
        exact Json.place?_put_append
      rw [hput]
      cases hw : d.root.place? p with
      | none => exact .none
      | some w =>
        refine h.settle?_put hcompletes hplace hw ?_
        rintro rfl
        rw [List.append_nil] at hplace
        exact hbound (hplace ▸ htokens)
    · have hsame : h.document.root.place? p = d.root.place? p := by
        refine Json.place?_put_apart haround fun hinside => ?_
        exact haround (h.not_inside target htarget p htokens hinside ▸ List.prefix_refl _)
      rw [hsame]
      cases hw : d.root.place? p with
      | none => exact .none
      | some w => exact hapart w hw

/-- **One value stands for counterparts in the two documents**, by induction on the hops that are left.
Through the place the original takes one hop more than the copy does, and the bound has room for it. -/
theorem settle?_self (hcompletes : ¬ Completes d place v) : ∀ {bound : Nat} {w : Json},
    w.references ⊆ d.root.references →
    (∀ target n, w.reference? = some target → d.root.Leads n target place → n + 1 ≤ bound) →
    Option.Rel (Counterpart d.root place v) (d.root.settle? bound w) (h.document.root.settle? bound w)
  | bound, w, hw, hhops => by
    cases htarget : w.reference? with
    | none =>
      rw [Json.settle?_of_reference?_eq_none htarget, Json.settle?_of_reference?_eq_none htarget]
      exact .some (.same hw htarget)
    | some target =>
      cases bound with
      | zero =>
        simp only [Json.settle?, htarget]
        exact .none
      | succ bound =>
        simp only [Json.settle?, htarget]
        refine h.settle?_at? hcompletes (hw (Json.mem_references_of_reference? htarget)) ?_ ?_
        · intro hhere
          have hone := hhops target 1 htarget (.here hhere)
          omega
        · intro u hu
          refine settle?_self hcompletes (Json.references_at? hu) fun next n hnext hn => ?_
          have hmore := hhops target (n + 1) htarget (.onward hu hnext hn)
          omega

/-- What a segment leads to from a value of the document stands for counterparts. -/
theorem settle?_childLike? (hcompletes : ¬ Completes d place v) {w : Json}
    (hw : w.references ⊆ d.root.references) (s : String) :
    Option.Rel (Counterpart d.root place v) ((w.childLike? s).bind (d.root.settle? maxLoads))
      ((w.childLike? s).bind (h.document.root.settle? maxLoads)) := by
  cases hchild : w.childLike? s with
  | none => exact .none
  | some u =>
    obtain ⟨key, hkey⟩ := Json.child?_of_childLike? hchild
    have hu : u.references ⊆ d.root.references := List.Subset.trans (Json.references_child? hkey) hw
    refine h.settle?_self hcompletes hu fun target n htarget hn => ?_
    exact h.hops target (hu (Json.mem_references_of_reference? htarget)) n hn

/-- **No path tells the document with the copy from the original.** -/
theorem bisimulation (hcompletes : ¬ Completes d place v) :
    Json.Bisimulation d.root h.document.root (Counterpart d.root place v) where
  object_iff := by
    intro w w' hw
    cases hw with
    | same _ _ => exact Iff.rfl
    | around _ _ => exact Json.modifyChild_object_iff
  text := by
    intro w w' hw
    cases hw with
    | same _ _ => rfl
    | around _ _ => exact Json.text?_modifyChild
  step := by
    intro w w' s s' hw hspelling
    rw [← Json.childLike?_congr hspelling]
    cases hw with
    | same hreferences _ => exact h.settle?_childLike? hcompletes hreferences s
    | @around token p q _ hplace hw =>
      rw [Json.put]
      rcases Json.childLike?_modifyChild (f := fun u => u.put q v) s with hsame | ⟨u, hu, hs, hs'⟩
      · rw [hsame]
        exact h.settle?_childLike? hcompletes (Json.references_place? hw) s
      · -- one step nearer to the place, or there
        have hplace' : (p ++ [token]) ++ q = place := by rwa [List.append_assoc]
        have hu' : d.root.place? (p ++ [token]) = some u := by
          rw [Json.place?_append, hw, Option.bind_some, Json.place?_cons, hu]
          rfl
        rw [hs, hs']
        exact h.settle?_put hcompletes hplace' hu' fun _ => by decide

/-- The roots of the two documents are counterparts. -/
theorem counterpart_root : Counterpart d.root place v d.root h.document.root := by
  obtain ⟨token, q, rfl⟩ := List.exists_cons_of_ne_nil h.below_root
  exact .around (List.nil_append _) rfl

/-- **A reference is interchangeable with its target.** For every raw text, and whatever names are
remembered, evaluation at the document and at the one with the copy in place of the reference ends with
values of one kind, with one text, and every configuration comes to the same receivers. -/
theorem answers_alike (hcompletes : ¬ Completes d place v) (raw : String) (identity identity' : Nat)
    (c c' : Caches) :
    let a := (evaluateCached (.ofDocument d) (.standard identity) Graph.root raw c).1.value
    let b := (evaluateCached (.ofDocument h.document) (.standard identity') Graph.root raw c').1.value
    ValueKind.of a = ValueKind.of b ∧
    a.bind (Graph.ofDocument d).textOf = b.bind (Graph.ofDocument h.document).textOf ∧
    ∀ config : ReceiverConfig,
      (resolveReceiversCached (.ofDocument d) (.standard identity) Graph.root config c).1 =
      (resolveReceiversCached (.ofDocument h.document) (.standard identity') Graph.root config c').1 := by
  intro a b
  have hbisimulation := h.bisimulation hcompletes
  have hroot : Counterpart d.root place v d.root h.document.root := h.counterpart_root
  have htext : ∀ s, Counterpart d.root place v (.str s) (.str s) := fun s =>
    .same (List.nil_subset _) rfl
  have hanswers : Answers (Counterpart d.root place v) a b := by
    simp only [a, b, evaluateCached_fst]
    exact hbisimulation.answers_self hroot htext raw identity identity'
  refine ⟨hanswers.kind_eq, hanswers.textOf_eq hbisimulation, fun config => ?_⟩
  rw [resolveReceiversCached_fst, resolveReceiversCached_fst]
  exact hbisimulation.resolveReceivers_eq hroot htext config identity identity'

end Inlinable

/-- A team whose lead refers back to the team; there is a reference to that reference, and one more
inside the team. -/
def team : Document where
  root := .obj [("again", .obj [("$ref", .str "#/team/lead/team")]),
    ("team", .obj [("boss", .obj [("$ref", .str "/team/lead")]),
      ("lead", .obj [("name", .str "Ann"), ("team", .obj [("$ref", .str "/team")])])])]
  sorted := by
    simp only [Json.Sorted, Json.SortedMembers]
    decide

theorem team_inlinable : Inlinable team ["team", "lead", "team"]
    (.obj [("boss", .obj [("$ref", .str "/team/lead")]),
      ("lead", .obj [("name", .str "Ann"), ("team", .obj [("$ref", .str "/team")])])]) where
  below_root := List.cons_ne_nil _ _
  selects := ⟨.obj [("$ref", .str "/team")], "/team", rfl, rfl, rfl⟩
  concrete := rfl
  not_inside := by decide
  hops := by
    intro target htarget n hn
    have hsettled : ∀ target ∈ team.root.references,
        ((team.root.at? target).bind (team.root.settle? 6)).isSome := by decide
    exact Nat.succ_le_succ (hn.le_of_settle? (hsettled target htarget))

theorem answers_alike_team :
    let a := (evaluateCached (.ofDocument team) (.standard 0) Graph.root
      "\x7b\x7bagain.lead.team.boss.name\x7d\x7d" ⟨.empty, .empty⟩).1.value
    let b := (evaluateCached (.ofDocument team_inlinable.document) (.standard 0) Graph.root
      "\x7b\x7bagain.lead.team.boss.name\x7d\x7d" ⟨.empty, .empty⟩).1.value
    ValueKind.of a = ValueKind.of b ∧
    a.bind (Graph.ofDocument team).textOf = b.bind (Graph.ofDocument team_inlinable.document).textOf ∧
    ∀ config : ReceiverConfig,
      (resolveReceiversCached (.ofDocument team) (.standard 0) Graph.root config ⟨.empty, .empty⟩).1 =
      (resolveReceiversCached (.ofDocument team_inlinable.document) (.standard 0) Graph.root config
        ⟨.empty, .empty⟩).1 := by
  have hcompletes : ¬ Completes team ["team", "lead", "team"]
      (.obj [("boss", .obj [("$ref", .str "/team/lead")]),
        ("lead", .obj [("name", .str "Ann"), ("team", .obj [("$ref", .str "/team")])])]) := by
    rintro ⟨_, _, _, -, -, hstr⟩
    cases hstr
  exact team_inlinable.answers_alike hcompletes _ 0 0 ⟨.empty, .empty⟩ ⟨.empty, .empty⟩

/-- An object with one member under `$ref`, which is a reference to a text. -/
def framed : Document where
  root := .obj [("a", .obj [("$ref", .obj [("$ref", .str "/b")])]), ("b", .str "/c"),
    ("c", .num (.whole 5 (by decide)))]
  sorted := by
    simp only [Json.Sorted, Json.SortedMembers]
    decide

/-- Where the copy completes a reference, the object around it is no longer an object. -/
theorem framed_answers_differ :
    ∃ h : Inlinable framed ["a", "$ref"] (.str "/c"),
      ValueKind.of (evaluateCached (.ofDocument framed) (.standard 0) Graph.root
        "\x7b\x7ba\x7d\x7d" ⟨.empty, .empty⟩).1.value = .object ∧
      ValueKind.of (evaluateCached (.ofDocument h.document) (.standard 0) Graph.root
        "\x7b\x7ba\x7d\x7d" ⟨.empty, .empty⟩).1.value = .scalar := by
  refine ⟨⟨List.cons_ne_nil _ _, ⟨.obj [("$ref", .str "/b")], "/b", rfl, rfl, rfl⟩, rfl, ?_, ?_⟩, ?_, ?_⟩
  · decide
  · intro target htarget n hn
    have hsettled : ∀ target ∈ framed.root.references,
        ((framed.root.at? target).bind (framed.root.settle? 6)).isSome := by decide
    exact Nat.succ_le_succ (hn.le_of_settle? (hsettled target htarget))
  · decide
  · decide

end Recipients
