/-
# A getter chain after any history of edits

The edits of a chain have no memory but the chain itself, so its entries can be told from the history at
once. An edit brings entries: the added getter, or those that replace all others. A later edit drops
entries: a removal those of its identity, a replacement all. The chain holds what was brought and not
dropped since, the latest in front, and behind that what is left of the chain at the start.

What the chain answers then depends on its entries alone, each time one stands in it. Taking an identity
out is, for the answers, the same as making its getter decline every pair.

Key definitions: `ChainEdit.brings`, `ChainEdit.drops`, `standing`, `ChainEdit.Makes`,
`FieldGetterChain.silence`.
Key theorems: `FieldGetterChain.getters_edited`, `FieldGetterChain.makes_edit`,
`FieldGetterChain.retrieve_remove`, `FieldGetterChain.answers_after_edits`.
-/
import Recipients.Getter.Edits
import Recipients.Path.Evaluator
import Recipients.Proofs.Getter.Consulting
import Recipients.Proofs.Path.Remembered

namespace Recipients

/-! ### What stands in the chain -/

namespace ChainEdit

/-- The entries that an edit brings into the chain. -/
def brings : ChainEdit → List FieldGetter
  | add getter => [getter]
  | remove _ => []
  | set getters => getters

/-- Whether an edit drops an entry that is there. -/
def drops : ChainEdit → FieldGetter → Bool
  | add _, _ => false
  | remove identity, f => f.identity == identity
  | set _, _ => true

/-- What an edit makes of a list of getters, and what it answers: an added getter comes to the front, a
removal keeps exactly the entries of other identities, in order, and tells whether there was one of
its own, and a replacement leaves nothing of the old list. -/
inductive Makes : ChainEdit → List FieldGetter → List FieldGetter → Option Bool → Prop
  | add {f fs} : Makes (.add f) fs (f :: fs) none
  | remove {identity fs found} : (found = true ↔ ∃ f ∈ fs, f.identity = identity) →
    Makes (.remove identity) fs (fs.filter fun f => f.identity ≠ identity) (some found)
  | set {fs getters} : Makes (.set getters) fs getters none

end ChainEdit

/-- The entries that a history brings and does not drop again, the latest first. -/
def standing : List ChainEdit → List FieldGetter
  | [] => []
  | e :: later => standing later ++ e.brings.filter fun f => later.all fun l => !l.drops f

namespace FieldGetterChain

/-- An edit makes the new list of the old one. -/
theorem makes_edit (chain : FieldGetterChain) (e : ChainEdit) :
    e.Makes chain.getters (chain.edit e).1.getters (chain.edit e).2 := by
  cases e with
  | add f => exact .add
  | set getters => exact .set
  | remove identity =>
    have hkept : (chain.remove identity).1.getters =
        chain.getters.filter fun f => f.identity ≠ identity := by
      show chain.getters.filter (·.identity != identity) = _
      refine List.filter_congr fun f _ => ?_
      by_cases h : f.identity = identity
      · simp [h]
      · simp [h]
    have hfound : (chain.remove identity).2 = true ↔ ∃ f ∈ chain.getters, f.identity = identity := by
      -- entries are lost exactly if not all of them are kept
      show ((chain.getters.filter (·.identity != identity)).length != chain.getters.length) = true ↔ _
      rw [bne_iff_ne, ne_eq, List.length_filter_eq_length_iff]
      simp
    rw [edit, hkept]
    exact .remove hfound

/-- One edit: what it brings stands in front of what it does not drop. -/
theorem filter_getters_edit (chain : FieldGetterChain) (e : ChainEdit) (keep : FieldGetter → Bool) :
    (chain.edit e).1.getters.filter keep =
      e.brings.filter keep ++ chain.getters.filter fun f => !e.drops f && keep f := by
  cases e with
  | add f =>
    show (f :: chain.getters).filter keep = [f].filter keep ++ chain.getters.filter fun f => true && keep f
    simp only [Bool.true_and]
    exact List.filter_append [f] chain.getters
  | remove identity =>
    show (chain.getters.filter (·.identity != identity)).filter keep = [] ++ _
    rw [List.filter_filter, List.nil_append]
    exact List.filter_congr fun f _ => Bool.and_comm _ _
  | set getters =>
    show getters.filter keep = getters.filter keep ++ chain.getters.filter fun _ => false
    simp

/-- The chain holds what its history brought and did not drop, and what is left of its start. -/
theorem getters_edited : ∀ (edits : List ChainEdit) (chain : FieldGetterChain),
    (chain.edited edits).getters =
      standing edits ++ chain.getters.filter fun f => edits.all fun e => !e.drops f
  | [], chain => by
    show chain.getters = [] ++ chain.getters.filter fun _ => true
    simp
  | e :: later, chain => by
    have hlater := getters_edited later (chain.edit e).1
    calc (chain.edited (e :: later)).getters
        = standing later ++ (chain.edit e).1.getters.filter fun f => later.all fun l => !l.drops f :=
          hlater
      _ = standing (e :: later) ++
            chain.getters.filter fun f => (e :: later).all fun l => !l.drops f := by
          rw [filter_getters_edit, standing, List.append_assoc]
          rfl

/-! ### The edits of a history one by one -/

theorem editAll_append (after : List ChainEdit) : ∀ (before : List ChainEdit) (chain : FieldGetterChain),
    chain.editAll (before ++ after) =
      (((chain.edited before).editAll after).1,
        (chain.editAll before).2 ++ ((chain.edited before).editAll after).2)
  | [], _ => rfl
  | e :: before, chain => by
    rw [List.cons_append, editAll, editAll_append after before (chain.edit e).1]
    rfl

theorem length_editAll : ∀ (edits : List ChainEdit) (chain : FieldGetterChain),
    (chain.editAll edits).2.length = edits.length
  | [], _ => rfl
  | e :: edits, chain => by
    show ((chain.edit e).2 :: ((chain.edit e).1.editAll edits).2).length = (e :: edits).length
    rw [List.length_cons, List.length_cons, length_editAll edits]

theorem edited_append (chain : FieldGetterChain) (before after : List ChainEdit) :
    chain.edited (before ++ after) = (chain.edited before).edited after := by
  rw [edited, editAll_append]
  rfl

/-- An edit in the middle of a history answers as it does at once. -/
theorem getElem?_editAll (chain : FieldGetterChain) (before after : List ChainEdit) (e : ChainEdit) :
    (chain.editAll (before ++ e :: after)).2[before.length]? =
      some ((chain.edited before).edit e).2 := by
  have hlength := length_editAll before chain
  rw [editAll_append, List.getElem?_append_right (Nat.le_of_eq hlength), hlength, Nat.sub_self]
  rfl

/-! ### Taking out is making silent -/

end FieldGetterChain

/-- The getter, declining everything. -/
def FieldGetter.declining (f : FieldGetter) : FieldGetter :=
  { f with rule := .custom (fun _ _ _ => false) fun _ _ _ => none }

namespace FieldGetterChain

/-- The chain with every entry of the identity declining everything. -/
def silence (chain : FieldGetterChain) (identity : Nat) : FieldGetterChain :=
  ⟨chain.getters.map fun f => if f.identity = identity then f.declining else f⟩

variable {g : Graph} {object : ObjectRef} {accessor : String}

/-- With the same getter in front, lists that answer alike still do. -/
theorem consultAll_cons_fst (f : FieldGetter) {fs gs : List FieldGetter}
    (h : (consultAll g object accessor fs).1 = (consultAll g object accessor gs).1) :
    (consultAll g object accessor (f :: fs)).1 = (consultAll g object accessor (f :: gs)).1 := by
  rcases f.passes_or_answers g object accessor with hf | ⟨v, hh, hv⟩
  · rw [consultAll_cons_of_passes hf, consultAll_cons_of_passes hf, h]
  · rw [consultAll_cons_of_answers hh hv, consultAll_cons_of_answers hh hv]

/-- Without the entries of an identity the chain answers as if they declined everything. -/
theorem retrieve_remove (chain : FieldGetterChain) (identity : Nat) :
    (chain.remove identity).1.retrieve g object accessor =
      (chain.silence identity).retrieve g object accessor := by
  show (consultAll g object accessor (chain.getters.filter (·.identity != identity))).1 =
    (consultAll g object accessor
      (chain.getters.map fun f => if f.identity = identity then f.declining else f)).1
  induction chain.getters with
  | nil => rfl
  | cons f fs ih =>
    by_cases h : f.identity = identity
    · have hpasses : f.declining.Passes g object accessor := .inl rfl
      have hout : ¬ (f.identity != identity) = true := by simp [h]
      rw [List.filter_cons, if_neg hout, List.map_cons, if_pos h, consultAll_cons_of_passes hpasses]
      exact ih
    · have hin : (f.identity != identity) = true := by simp [h]
      rw [List.filter_cons, if_pos hin, List.map_cons, if_neg h]
      exact consultAll_cons_fst f ih

/-! ### Histories and answers -/

/-- **What a chain answers after any history of edits.** Every edit makes its list of the one that it
finds and answers accordingly, so after the history stands what it brought and did not drop, in front of
what is left of the start. About any pair the chain answers with the value of the first entry that
handles the pair and finds one there, whatever documents remember, and with nothing if all entries pass.
The entries up to that one are called, in order, each to tell whether it handles the pair and, exactly if
it does, for the value; no other call is made. And an identity that is taken out answers no more than if
it declined everything. -/
theorem answers_after_edits (start : FieldGetterChain) (edits : List ChainEdit) (g : Graph)
    (object : ObjectRef) (accessor : String) :
    (∀ before e after, edits = before ++ e :: after →
      ∃ answer, (start.editAll edits).2[before.length]? = some answer ∧
        e.Makes (start.edited before).getters (start.edited (before ++ [e])).getters answer) ∧
    (start.edited edits).getters =
      standing edits ++ (start.getters.filter fun f => edits.all fun e => !e.drops f) ∧
    (∀ v, (start.edited edits).retrieve g object accessor = some v ↔
      ∃ before f after, (start.edited edits).getters = before ++ f :: after ∧
        f.handles g object accessor = true ∧ f.retrieve g object accessor = some v ∧
        ∀ e ∈ before, e.handles g object accessor = false ∨ e.retrieve g object accessor = none) ∧
    ((start.edited edits).retrieve g object accessor = none ↔
      ∀ f ∈ (start.edited edits).getters,
        f.handles g object accessor = false ∨ f.retrieve g object accessor = none) ∧
    (∀ c, ((start.edited edits).retrieveCached g object accessor c).1 =
      (start.edited edits).retrieve g object accessor) ∧
    (∀ before f after v, (start.edited edits).getters = before ++ f :: after →
      f.handles g object accessor = true → f.retrieve g object accessor = some v →
      (∀ e ∈ before, e.Passes g object accessor) →
      ((start.edited edits).consult g object accessor).2 =
        (before ++ [f]).flatMap (·.callsAbout g object accessor)) ∧
    ((∀ f ∈ (start.edited edits).getters, f.Passes g object accessor) →
      ((start.edited edits).consult g object accessor).2 =
        (start.edited edits).getters.flatMap (·.callsAbout g object accessor)) ∧
    ∀ identity, (start.edited (edits ++ [.remove identity])).retrieve g object accessor =
      ((start.edited edits).silence identity).retrieve g object accessor := by
  refine ⟨?_, getters_edited edits start, fun v => consultAll_eq_some_iff, consultAll_eq_none_iff,
    retrieveCached_fst g object accessor _, ?_, ?_, ?_⟩
  · rintro before e after rfl
    refine ⟨_, getElem?_editAll start before after e, ?_⟩
    rw [edited_append]
    exact makes_edit _ e
  · intro before f after v hgetters hh hv hbefore
    rw [consult, hgetters, consultAll_of_first hh hv hbefore]
  · intro hall
    rw [consult, consultAll_of_passes hall]
  · intro identity
    rw [edited_append]
    exact retrieve_remove _ identity

end FieldGetterChain

end Recipients
