/-
# Delegation without loops

A determiner leaves a pair to its siblings before it asks its own claim. Where following siblings never
leads back to a policy, a sibling leads to fewer policies than the determiner that lists it, so no path
through siblings is longer than the registry. The depth at which a search is given up is then never
reached, and the search is the plain recursion over siblings.

Key definitions: `Registry.Delegates`, `Registry.LoopFree`, `Registry.reach`.
Key theorems: `Registry.LoopFree.induction`, `Registry.LoopFree.enough`, `Registry.LoopFree.search_eq`.
-/
import Mathlib.Logic.Relation
import Mathlib.Order.Interval.Set.Nat
import Recipients.Policy.Dispatch

namespace Recipients
namespace Registry

open Relation

/-- The policy is a determiner that lists the other one as a sibling. -/
def Delegates (r : Registry) (p q : PolicyId) : Prop :=
  ∃ d, r.policy? p = some (.determiner d) ∧ q ∈ d.siblings

/-- Following siblings never leads back. Only determiners have siblings, so each policy of a loop would
be a determiner. -/
def LoopFree (r : Registry) : Prop :=
  ∀ p, ¬ TransGen r.Delegates p p

/-- The number of policies that a policy leads to through siblings. -/
noncomputable def reach (r : Registry) (p : PolicyId) : Nat :=
  {q | q < r.size ∧ TransGen r.Delegates p q}.ncard

variable {r : Registry} {p q : PolicyId}

theorem policy?_eq_none : r.policy? p = none ↔ r.size ≤ p :=
  List.getElem?_eq_none_iff

theorem lt_size_of_policy? {policy : Policy} (hp : r.policy? p = some policy) : p < r.size := by
  by_contra hle
  rw [policy?_eq_none.mpr (Nat.le_of_not_lt hle)] at hp
  cases hp

theorem Delegates.lt_size (h : r.Delegates p q) : p < r.size :=
  lt_size_of_policy? h.choose_spec.1

theorem finite_reach (r : Registry) (p : PolicyId) :
    {q | q < r.size ∧ TransGen r.Delegates p q}.Finite :=
  (Set.finite_Iio r.size).subset fun _ hq => hq.1

/-- A registry is free of loops if its policies have ranks that fall from a determiner to its siblings. -/
theorem loopFree_of_rank (rank : PolicyId → Nat) (h : ∀ p q, r.Delegates p q → rank q < rank p) :
    r.LoopFree := by
  have hfall : ∀ {p q}, TransGen r.Delegates p q → rank q < rank p := by
    intro p q hpq
    induction hpq with
    | single hpq => exact h _ _ hpq
    | tail _ hqs ih => exact (h _ _ hqs).trans ih
  exact fun p hp => Nat.lt_irrefl _ (hfall hp)

/-- A shared policy: the root leaves pairs to two determiners, which both leave them to one leaf. -/
def diamond : Registry :=
  ⟨[.determiner ⟨"default", none, [1, 2], .standard 0⟩,
    .determiner ⟨"paid", some (.ofEvent "paid"), [3], .standard 1⟩,
    .determiner ⟨"shipped", some (.ofEvent "shipped"), [3], .standard 2⟩,
    .leaf ⟨"refunded", .ofEvent "refunded", fun _ _ _ _ => .empty, []⟩]⟩

theorem diamond_loopFree : diamond.LoopFree := by
  refine loopFree_of_rank (fun p => 3 - p) ?_
  rintro p q ⟨d, hp, hq⟩
  rcases p with _ | _ | _ | _ | p <;> simp [policy?, diamond] at hp <;> subst hp <;> simp at hq
  · rcases hq with rfl | rfl <;> decide
  · subst hq; decide
  · subst hq; decide

namespace LoopFree

/-- A sibling leads to fewer policies: to what it leads to leads the determiner too, and the sibling
itself is one more. -/
theorem reach_lt (h : r.LoopFree) (hpq : r.Delegates p q) (hq : q < r.size) :
    r.reach q < r.reach p := by
  refine Set.ncard_lt_ncard ⟨fun s hs => ⟨hs.1, hs.2.head hpq⟩, fun hsub => ?_⟩ (finite_reach r p)
  exact h q (hsub ⟨hq, .single hpq⟩).2

/-- No policy leads to all of the registry, since it does not lead to itself. -/
theorem reach_lt_size (h : r.LoopFree) (hp : p < r.size) : r.reach p < r.size := by
  calc r.reach p < (Set.Iio r.size).ncard :=
        Set.ncard_lt_ncard ⟨fun _ hs => hs.1, fun hsub => h p (hsub hp).2⟩ (Set.finite_Iio _)
    _ = r.size := Set.ncard_Iio_nat _

/-- What holds of a policy whenever it holds of its siblings holds of every policy. -/
theorem induction {P : PolicyId → Prop} (h : r.LoopFree)
    (step : ∀ p, (∀ q, r.Delegates p q → P q) → P p) (p : PolicyId) : P p := by
  suffices ∀ n p, r.reach p < n → P p from this _ p (Nat.lt_succ_self _)
  intro n
  induction n with
  | zero => intro p hp; omega
  | succ n ih =>
    intro p hp
    refine step p fun q hpq => ?_
    by_cases hq : q < r.size
    · have := h.reach_lt hpq hq
      exact ih q (by omega)
    · -- what the registry does not hold has no siblings
      exact step q fun s hqs => absurd hqs.lt_size hq

/-! ### Enough depth

`F n p` is a recursion over siblings that gives up `n` levels below `p`. All it has to satisfy is that a
level depends on the level below at the siblings only, and that nothing hangs on the level at a policy
that the registry does not hold. -/

section Enough

variable {β : Type} {F : Nat → PolicyId → β}

/-- All depths beyond what a policy leads to agree. -/
theorem depth_irrelevant (h : r.LoopFree) (unknown : ∀ m n p, r.size ≤ p → F m p = F n p)
    (step : ∀ m n p, (∀ q, r.Delegates p q → F m q = F n q) → F (m + 1) p = F (n + 1) p) :
    ∀ (m n : Nat) (p : PolicyId), r.reach p < m → r.reach p < n → F m p = F n p := by
  intro m
  induction m with
  | zero => intro n p hm; omega
  | succ m ih =>
    intro n p hm hn
    obtain ⟨n, rfl⟩ : ∃ k, n = k + 1 := ⟨n - 1, by omega⟩
    refine step m n p fun q hpq => ?_
    by_cases hq : q < r.size
    · have := h.reach_lt hpq hq
      exact ih n q (by omega) (by omega)
    · exact unknown m n q (Nat.le_of_not_lt hq)

/-- The size of the registry is enough depth: one level more changes nothing. -/
theorem enough (h : r.LoopFree) (unknown : ∀ m n p, r.size ≤ p → F m p = F n p)
    (step : ∀ m n p, (∀ q, r.Delegates p q → F m q = F n q) → F (m + 1) p = F (n + 1) p)
    (p : PolicyId) : F r.size p = F (r.size + 1) p := by
  by_cases hp : p < r.size
  · have := h.reach_lt_size hp
    exact h.depth_irrelevant unknown step _ _ p this (by omega)
  · exact unknown _ _ p (Nat.le_of_not_lt hp)

end Enough

end LoopFree

/-! ### The search for a handler -/

theorem firstFound_congr {s t : PolicyId → Search} : ∀ {ps : List PolicyId},
    (∀ p ∈ ps, s p = t p) → firstFound s ps = firstFound t ps
  | [], _ => rfl
  | p :: ps, h => by
    simp only [firstFound, h p List.mem_cons_self,
      firstFound_congr fun q hq => h q (List.mem_cons_of_mem _ hq)]

/-- What is found is what one of the policies found. -/
theorem exists_of_firstFound {s : PolicyId → Search} {k : PolicyId} : ∀ {ps : List PolicyId},
    (firstFound s ps).found = some k → ∃ p ∈ ps, (s p).found = some k
  | [], h => by simp [firstFound] at h
  | p :: ps, h => by
    unfold firstFound at h
    cases hp : (s p).found with
    | some j =>
      simp only [hp] at h
      exact ⟨p, List.mem_cons_self, hp.trans h⟩
    | none =>
      simp only [hp] at h
      obtain ⟨q, hq, hs⟩ := exists_of_firstFound h
      exact ⟨q, List.mem_cons_of_mem _ hq, hs⟩

variable (g : Graph) (object : ObjectRef) (event : Option String)

theorem searchWithin_unknown (hp : r.size ≤ p) : ∀ n, r.searchWithin g object event n p = ⟨none, []⟩
  | 0 => rfl
  | n + 1 => by rw [searchWithin, policy?_eq_none.mpr hp]

theorem searchWithin_step (r : Registry) {m n : Nat} {p : PolicyId}
    (h : ∀ q, r.Delegates p q →
      r.searchWithin g object event m q = r.searchWithin g object event n q) :
    r.searchWithin g object event (m + 1) p = r.searchWithin g object event (n + 1) p := by
  rw [searchWithin, searchWithin]
  cases hp : r.policy? p with
  | none => rfl
  | some policy =>
    cases policy with
    | leaf l => rfl
    | determiner d => simp only [firstFound_congr fun q hq => h q ⟨d, hp, hq⟩]

/-- **The search is the recursion over siblings.** Where delegation has no loop the search from a policy
is one level of it, over the searches from the siblings. -/
theorem LoopFree.search_eq (h : r.LoopFree) (p : PolicyId) :
    r.search g object event p =
      match r.policy? p with
      | none => ⟨none, []⟩
      | some (.leaf l) => ⟨if l.accepts g object event then some p else none, []⟩
      | some (.determiner d) =>
        let s := firstFound (r.search g object event) d.siblings
        match s.found, d.claim with
        | some _, _ => s
        | none, none => ⟨some p, s.consulted⟩
        | none, some claim =>
          ⟨if claim g object event then some p else none, s.consulted ++ [p]⟩ :=
  h.enough (F := r.searchWithin g object event)
    (fun m n p hp => by rw [searchWithin_unknown g object event hp, searchWithin_unknown g object event hp])
    (fun _ _ _ => searchWithin_step g object event r) p

end Registry
end Recipients
