/-
# Searches and questions end

A search follows the siblings of determiners and no other links. `Finds` is this recursion without a
bound on its depth, and `Receives` that of a question for receivers, which makes a search and passes the
question on at most to the handler found; each derivation is a run that ends. Where delegation has no
loop every search and every question ends, with the answers of `Registry.handler?` and
`Registry.receivers`, whatever the leaves are linked to.

Key definitions: `Registry.siblings`, `Registry.Finds`, `Registry.Receives`.
Key theorems: `Registry.LoopFree.wellFounded`, `Registry.LoopFree.finds_handler?`,
`Registry.LoopFree.receives_receivers`.
-/
import Recipients.Proofs.Policy.Redirection

namespace Recipients
namespace Registry

/-- The policies that a search goes to before the policy's own claim: none for a leaf. -/
def siblings (r : Registry) (p : PolicyId) : List PolicyId :=
  match r.policy? p with
  | some (.determiner d) => d.siblings
  | _ => []

/-- A search asks policies one after the other for a handler, each for its siblings' before its own
claim, and ends with the first handler found. -/
inductive Finds (r : Registry) (g : Graph) (object : ObjectRef) (event : Option String) :
    List PolicyId → Option PolicyId → Prop
  | nil : Finds r g object event [] none
  | sibling {p ps k} : Finds r g object event (r.siblings p) (some k) →
      Finds r g object event (p :: ps) (some k)
  | own {p ps} : Finds r g object event (r.siblings p) none → r.isHandler g object event p = true →
      Finds r g object event (p :: ps) (some p)
  | next {p ps found} : Finds r g object event (r.siblings p) none →
      r.isHandler g object event p = false → Finds r g object event ps found →
      Finds r g object event (p :: ps) found

/-- A question for receivers ends with an answer: a leaf gives its own, a determiner resolves with its
own getters unless its search ends with another policy, which is asked instead. -/
inductive Receives (r : Registry) (g : Graph) (object : ObjectRef) (event : Option String)
    (raw : ReceiverConfig) : PolicyId → Receivers → Prop
  | leaf {p l} : r.policy? p = some (.leaf l) →
      Receives r g object event raw p (l.answer g object event raw)
  | own {p d found} : r.policy? p = some (.determiner d) → r.Finds g object event [p] found →
      (∀ k, found = some k → k = p) →
      Receives r g object event raw p (resolveReceivers g d.getters object raw)
  | other {p d k receivers} : r.policy? p = some (.determiner d) →
      r.Finds g object event [p] (some k) → k ≠ p → Receives r g object event raw k receivers →
      Receives r g object event raw p receivers

variable {r : Registry} {p q k : PolicyId}

theorem delegates_iff_mem_siblings : r.Delegates p q ↔ q ∈ r.siblings p := by
  unfold Delegates siblings
  split
  · rename_i d hd
    simp [hd]
  · rename_i hd
    exact ⟨fun ⟨d, hp, _⟩ => absurd hp (hd d), nofun⟩

/-- From a policy one can only go on to siblings so often. -/
theorem LoopFree.wellFounded (h : r.LoopFree) : WellFounded fun q p => r.Delegates p q :=
  ⟨h.induction fun p ih => .intro p ih⟩

variable (g : Graph) (object : ObjectRef) (event : Option String)

/-- A policy's handler is that of its siblings, or else itself if it takes the pair. -/
theorem LoopFree.handler?_eq_siblings (h : r.LoopFree) (p : PolicyId) :
    r.handler? g object event p =
      ((firstFound (r.search g object event) (r.siblings p)).found).or
        (if r.isHandler g object event p then some p else none) := by
  rw [handler?, h.search_eq]
  unfold siblings isHandler
  cases hp : r.policy? p with
  | none => rfl
  | some policy =>
    cases policy with
    | leaf l => rfl
    | determiner d =>
      cases hs : (firstFound (r.search g object event) d.siblings).found with
      | some j => simp [hs]
      | none => cases hc : d.claim <;> simp [hs, hc, Policy.isHandler]

/-- Where the siblings' searches end, so does one that asks the policies in order. -/
theorem LoopFree.finds_firstFound (h : r.LoopFree) : ∀ {ps : List PolicyId},
    (∀ p ∈ ps, r.Finds g object event (r.siblings p)
      (firstFound (r.search g object event) (r.siblings p)).found) →
    r.Finds g object event ps (firstFound (r.search g object event) ps).found
  | [], _ => .nil
  | p :: ps, hps => by
    have hp := hps p List.mem_cons_self
    have hrest := h.finds_firstFound fun q hq => hps q (List.mem_cons_of_mem _ hq)
    have hfound : (r.search g object event p).found = _ := h.handler?_eq_siblings g object event p
    unfold firstFound
    cases hs : (firstFound (r.search g object event) (r.siblings p)).found with
    | some j =>
      rw [hs, Option.some_or] at hfound
      rw [hs] at hp
      simpa only [hfound] using Finds.sibling hp
    | none =>
      rw [hs, Option.none_or] at hfound
      rw [hs] at hp
      cases hown : r.isHandler g object event p with
      | true =>
        rw [hown, if_pos rfl] at hfound
        simpa only [hfound] using Finds.own hp hown
      | false =>
        rw [hown, if_neg Bool.false_ne_true] at hfound
        simpa only [hfound] using Finds.next hp hown hrest

/-- **Every search ends**, with the handler. -/
theorem LoopFree.finds_handler? (h : r.LoopFree) (p : PolicyId) :
    r.Finds g object event [p] (r.handler? g object event p) := by
  have hsiblings : ∀ q, r.Finds g object event (r.siblings q)
      (firstFound (r.search g object event) (r.siblings q)).found :=
    h.induction fun q ih =>
      h.finds_firstFound g object event fun s hs => ih s (delegates_iff_mem_siblings.mpr hs)
  have hsingle : (firstFound (r.search g object event) [p]).found = r.handler? g object event p := by
    unfold firstFound handler?
    cases hs : (r.search g object event p).found <;> simp [hs, firstFound]
  exact hsingle ▸ h.finds_firstFound g object event fun q _ => hsiblings q

/-- **Every question ends**, with the receivers. -/
theorem LoopFree.receives_receivers (h : r.LoopFree) (raw : ReceiverConfig) {d : Determiner}
    (hp : r.policy? p = some (.determiner d)) :
    r.Receives g object event raw p (r.receivers g object event p raw) := by
  rw [h.receivers_eq_answer g object event raw hp]
  have hfinds := h.finds_handler? g object event p
  cases hk : r.handler? g object event p with
  | none =>
    rw [Option.getD_none, answer_determiner g object event raw hp]
    exact .own hp (hk ▸ hfinds) fun _ hj => (Option.some_ne_none _ hj.symm).elim
  | some k =>
    rw [Option.getD_some]
    rw [hk] at hfinds
    by_cases hkp : k = p
    · subst hkp
      rw [answer_determiner g object event raw hp]
      exact .own hp hfinds fun j hj => (Option.some.inj hj).symm
    · refine .other hp hfinds hkp ?_
      obtain ⟨policy, hpolicy⟩ := h.exists_policy g object event hk
      cases policy with
      | leaf l =>
        rw [answer, hpolicy]
        exact .leaf hpolicy
      | determiner e =>
        rw [answer_determiner g object event raw hpolicy]
        refine .own hpolicy (h.finds_handler? g object event k) fun j hj => ?_
        rw [h.handler?_self g object event p hk] at hj
        exact (Option.some.inj hj).symm

end Registry
end Recipients
