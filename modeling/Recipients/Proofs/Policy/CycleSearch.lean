/-
# The search for a cycle is exact

The search answers that there is a cycle exactly if the policy it starts from leads to one that leads
back to itself. A policy met again on its own path is on a loop, since every policy of the path leads to
whatever is visited below it. Conversely, what the search is done with is closed under links, holds no
policy of the path, and holds no loop: a policy is done once all its links are, and had it led back to
itself, it would be done already while it still was on the path.

`Visits` is the search without a bound on its depth, one derivation for each run that ends. A path has
no repetition and all its policies are of the registry, so the bound is never met, and every search ends.

Key definitions: `Registry.LinksTo`, `Registry.MeetsLoop`, `Registry.Visits`, `Registry.Finished`.
Key theorems: `Registry.visits_anyVisit`, `Registry.Visits.meetsLoop`, `Registry.Visits.finished`,
`Registry.Visits.found_iff`, `Registry.hasCycle_exact`.
-/
import Recipients.Policy.Cycle
import Recipients.Proofs.Policy.Delegation

namespace Recipients
namespace Registry

open Relation

/-- The policy is linked to the other one: as to a sibling, or by a link of a leaf. -/
def LinksTo (r : Registry) (p q : PolicyId) : Prop :=
  q ∈ r.links p

/-- The policy is on a loop of links or leads to one. -/
def MeetsLoop (r : Registry) (p : PolicyId) : Prop :=
  ∃ q, ReflTransGen r.LinksTo p q ∧ TransGen r.LinksTo q q

/-- A search visits policies one after the other, given the path to them and what is done already. It
ends with whether it found a cycle, and with what is done then. -/
inductive Visits (r : Registry) :
    List PolicyId → List PolicyId → List PolicyId → Bool → List PolicyId → Prop
  | nil {path done} : Visits r path done [] false done
  | onPath {path done p ps} : p ∈ path → Visits r path done (p :: ps) true done
  | passed {path done p ps found after} : p ∉ path → p ∈ done →
      Visits r path done ps found after → Visits r path done (p :: ps) found after
  | met {path done p ps after} : p ∉ path → p ∉ done →
      Visits r (p :: path) done (r.links p) true after →
      Visits r path done (p :: ps) true (p :: after)
  | next {path done p ps below found after} : p ∉ path → p ∉ done →
      Visits r (p :: path) done (r.links p) false below →
      Visits r path (p :: below) ps found after → Visits r path done (p :: ps) found after

variable {r : Registry} {path done todo after : List PolicyId} {p q : PolicyId} {found : Bool}

/-! ### Every search ends -/

theorem links_eq_nil (hp : r.size ≤ p) : r.links p = [] := by
  rw [links, policy?_eq_none.mpr hp]
  rfl

theorem LinksTo.lt_size (h : r.LinksTo p q) : p < r.size := by
  by_contra hle
  rw [LinksTo, links_eq_nil (Nat.le_of_not_lt hle)] at h
  cases h

/-- A path is not longer than the registry. -/
theorem length_le_size (hpath : path.Nodup) (hlt : ∀ a ∈ path, a < r.size) : path.length ≤ r.size := by
  have hsub : path ⊆ List.range r.size := fun a ha => List.mem_range.mpr (hlt a ha)
  calc path.length ≤ (List.range r.size).length := hpath.length_le_of_subset hsub
    _ = r.size := List.length_range

/-- With a depth for every policy that the path may still take in, the search is that without a bound. -/
theorem visits_anyVisit : ∀ (depth : Nat) (path : List PolicyId), path.Nodup → (∀ a ∈ path, a < r.size) →
    r.size < depth + path.length → ∀ todo done : List PolicyId,
    r.Visits path done todo (anyVisit (visit r.links depth path) done todo).1
      (anyVisit (visit r.links depth path) done todo).2
  | _, _, _, _, _, [], _ => .nil
  | 0, path, hpath, hlt, hdepth, p :: ps, done => by
    have := length_le_size hpath hlt
    omega
  | depth + 1, path, hpath, hlt, hdepth, p :: ps, done => by
    have hrest := visits_anyVisit (depth + 1) path hpath hlt hdepth ps
    by_cases hpp : p ∈ path
    · simpa only [anyVisit, visit, if_pos hpp] using Visits.onPath hpp
    by_cases hpd : p ∈ done
    · simpa only [anyVisit, visit, if_neg hpp, if_pos hpd] using Visits.passed hpp hpd (hrest done)
    have hbelow : r.Visits (p :: path) done (r.links p)
        (anyVisit (visit r.links depth (p :: path)) done (r.links p)).1
        (anyVisit (visit r.links depth (p :: path)) done (r.links p)).2 := by
      by_cases hp : p < r.size
      · refine visits_anyVisit depth (p :: path) (List.nodup_cons.mpr ⟨hpp, hpath⟩) ?_ ?_ _ _
        · rintro a (_ | ⟨_, ha⟩)
          · exact hp
          · exact hlt a ha
        · rw [List.length_cons]
          omega
      · -- nothing is linked to what the registry does not hold
        rw [links_eq_nil (Nat.le_of_not_lt hp)]
        exact .nil
    simp only [anyVisit, visit, if_neg hpp, if_neg hpd]
    generalize anyVisit (visit r.links depth (p :: path)) done (r.links p) = below at hbelow ⊢
    obtain ⟨met, below⟩ := below
    cases met with
    | true => exact .met hpp hpd hbelow
    | false => exact .next hpp hpd hbelow (hrest (p :: below))

/-! ### A cycle that is found -/

/-- What is found is a loop: a policy met on the path leads to itself, since all of the path leads to
what is visited. -/
theorem Visits.meetsLoop (h : r.Visits path done todo found after) (hfound : found = true)
    (hpath : ∀ a ∈ path, ∀ q ∈ todo, TransGen r.LinksTo a q) : ∃ q ∈ todo, r.MeetsLoop q := by
  induction h with
  | nil => cases hfound
  | @onPath _ _ p _ hp => exact ⟨p, List.mem_cons_self, p, .refl, hpath p hp p List.mem_cons_self⟩
  | passed _ _ _ ih =>
    obtain ⟨q, hq, hloop⟩ := ih hfound fun a ha q hq => hpath a ha q (List.mem_cons_of_mem _ hq)
    exact ⟨q, List.mem_cons_of_mem _ hq, hloop⟩
  | @met path _ p _ _ _ _ _ ih =>
    have hbelow : ∀ a ∈ p :: path, ∀ q ∈ r.links p, TransGen r.LinksTo a q := by
      rintro a (_ | ⟨_, ha⟩) q hq
      · exact .single hq
      · exact (hpath a ha p List.mem_cons_self).tail hq
    obtain ⟨q, hq, s, hqs, hloop⟩ := ih rfl hbelow
    exact ⟨p, List.mem_cons_self, s, .head hq hqs, hloop⟩
  | next _ _ _ _ _ ih =>
    obtain ⟨q, hq, hloop⟩ := ih hfound fun a ha q hq => hpath a ha q (List.mem_cons_of_mem _ hq)
    exact ⟨q, List.mem_cons_of_mem _ hq, hloop⟩

/-! ### A cycle that is missed -/

/-- The search is done with these policies: with all they link to, with none of its path, and with none
that is on a loop. -/
structure Finished (r : Registry) (path done : List PolicyId) : Prop where
  closed : ∀ p ∈ done, ∀ q, r.LinksTo p q → q ∈ done
  offPath : ∀ p ∈ done, p ∉ path
  loopFree : ∀ p ∈ done, ¬ TransGen r.LinksTo p p

namespace Finished

theorem nil (r : Registry) : r.Finished [] [] :=
  ⟨by simp, by simp, by simp⟩

theorem push (h : r.Finished path done) (hp : p ∉ done) : r.Finished (p :: path) done := by
  refine ⟨h.closed, fun q hq => ?_, h.loopFree⟩
  rintro (_ | ⟨_, hqp⟩)
  · exact hp hq
  · exact h.offPath q hq hqp

theorem mem_of_reach (h : r.Finished path done) (hp : p ∈ done) (hpq : ReflTransGen r.LinksTo p q) :
    q ∈ done := by
  induction hpq with
  | refl => exact hp
  | tail _ hqs ih => exact h.closed _ ih _ hqs

/-- A policy whose links are all done is done, and leaves the path. -/
theorem pop (h : r.Finished (p :: path) done) (hp : p ∉ path) (hlinks : ∀ q, r.LinksTo p q → q ∈ done) :
    r.Finished path (p :: done) where
  closed := by
    rintro q (_ | ⟨_, hq⟩) s hqs
    · exact List.mem_cons_of_mem _ (hlinks s hqs)
    · exact List.mem_cons_of_mem _ (h.closed q hq s hqs)
  offPath := by
    rintro q (_ | ⟨_, hq⟩) hqp
    · exact hp hqp
    · exact h.offPath q hq (List.mem_cons_of_mem _ hqp)
  loopFree := by
    rintro q (_ | ⟨_, hq⟩) hloop
    · -- a loop through `p` goes through one of its links, so `p` would be done already
      obtain ⟨s, hps, hsp⟩ := TransGen.head'_iff.mp hloop
      exact h.offPath p (h.mem_of_reach (hlinks s hps) hsp) List.mem_cons_self
    · exact h.loopFree q hq hloop

theorem not_meetsLoop (h : r.Finished path done) (hp : p ∈ done) : ¬ r.MeetsLoop p := by
  rintro ⟨q, hpq, hloop⟩
  exact h.loopFree q (h.mem_of_reach hp hpq) hloop

end Finished

/-- A search that finds no cycle is done with all that it visited. -/
theorem Visits.finished (h : r.Visits path done todo found after) (hfound : found = false)
    (hdone : r.Finished path done) :
    r.Finished path after ∧ (∀ p ∈ done, p ∈ after) ∧ ∀ p ∈ todo, p ∈ after := by
  induction h with
  | nil => exact ⟨hdone, fun _ hp => hp, by simp⟩
  | onPath _ => cases hfound
  | @passed _ _ p _ _ _ _ hpd _ ih =>
    obtain ⟨hafter, hkept, htodo⟩ := ih hfound hdone
    refine ⟨hafter, hkept, ?_⟩
    rintro q (_ | ⟨_, hq⟩)
    · exact hkept p hpd
    · exact htodo q hq
  | met => cases hfound
  | @next _ _ p _ _ _ _ hpp hpd _ _ ihbelow ih =>
    obtain ⟨hbelow, hkept, hlinks⟩ := ihbelow rfl (hdone.push hpd)
    obtain ⟨hafter, hkept', htodo⟩ := ih hfound (hbelow.pop hpp hlinks)
    refine ⟨hafter, fun q hq => hkept' q (List.mem_cons_of_mem _ (hkept q hq)), ?_⟩
    rintro q (_ | ⟨_, hq⟩)
    · exact hkept' p List.mem_cons_self
    · exact htodo q hq

/-- However a search from a policy ends, it has found a cycle exactly if there is one to be met. -/
theorem Visits.found_iff (h : r.Visits [] [] [p] found after) : found = true ↔ r.MeetsLoop p := by
  cases found with
  | true =>
    obtain ⟨q, hq, hloop⟩ := h.meetsLoop rfl (by simp)
    rw [List.mem_singleton] at hq
    exact ⟨fun _ => hq ▸ hloop, fun _ => rfl⟩
  | false =>
    obtain ⟨hafter, -, htodo⟩ := h.finished rfl (.nil r)
    refine ⟨fun hf => ?_, fun hloop => ?_⟩
    · cases hf
    · exact absurd hloop (hafter.not_meetsLoop (htodo p List.mem_cons_self))

/-! ### The bounded search -/

/-- Beyond the size of the registry, the bounded search is a search that ends. -/
theorem visits_visit (r : Registry) (p : PolicyId) (extra : Nat) :
    ∃ after, r.Visits [] [] [p] (visit r.links (r.size + 1 + extra) [] [] p).1 after := by
  have h := visits_anyVisit (r := r) (r.size + 1 + extra) [] List.nodup_nil (by simp)
    (by rw [List.length_nil]; omega) [p] []
  have hsingle : ∀ v : Bool × List PolicyId,
      visit r.links (r.size + 1 + extra) [] [] p = v →
        (anyVisit (visit r.links (r.size + 1 + extra) []) [] [p]).1 = v.1 := by
    rintro ⟨_ | _, after⟩ hv <;> simp only [anyVisit, hv]
  exact ⟨_, hsingle _ rfl ▸ h⟩

theorem hasCycle_iff_meetsLoop : r.hasCycle p = true ↔ r.MeetsLoop p := by
  obtain ⟨after, h⟩ := r.visits_visit p 0
  exact h.found_iff

/-- **The check for cycles is exact.** The search from a policy ends, whatever the links; each end of it
gives the same answer, which no greater depth changes; and it finds a cycle exactly if a policy that is
reachable by zero or more links can reach itself by one or more. -/
theorem hasCycle_exact (r : Registry) (p : PolicyId) :
    (∀ found, (∃ after, r.Visits [] [] [p] found after) ↔ found = r.hasCycle p) ∧
    (∀ extra, (visit r.links (r.size + 1 + extra) [] [] p).1 = r.hasCycle p) ∧
    (r.hasCycle p = true ↔
      ∃ q, ReflTransGen r.LinksTo p q ∧ TransGen r.LinksTo q q) := by
  have hends := r.visits_visit p 0
  have hsame : ∀ found, (∃ after, r.Visits [] [] [p] found after) → found = r.hasCycle p := by
    rintro found ⟨after, h⟩
    exact Bool.eq_iff_iff.mpr (h.found_iff.trans hasCycle_iff_meetsLoop.symm)
  refine ⟨fun found => ⟨hsame found, ?_⟩, fun extra => hsame _ (r.visits_visit p extra), ?_⟩
  · rintro rfl
    exact hends
  · exact hasCycle_iff_meetsLoop

/-- The search is done with the leaf that `diamond` shares when it comes there again. -/
example : diamond.hasCycle 0 = false := by decide

end Registry
end Recipients
