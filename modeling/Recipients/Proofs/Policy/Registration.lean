/-
# Registering is exact, and all or nothing

A determiner refuses a policy that it lists, under whatever name and even if the policy leads to a loop,
and it refuses any other policy that leads to a loop; every policy else it takes, at the end of its list.
A whole list is taken if its entries are distinct and none leads to a loop, whatever the determiner listed
before. Otherwise the error is that of the first entry that repeats an earlier one or leads to a loop, and
nothing has changed.

Key definitions: `Registry.Refuses`, `Registry.Puts`, `Registry.AllOrNothing`.
Key theorems: `Registry.enlist_eq_ok_iff`, `Registry.enlist_eq_error_iff`, `Registry.enlistAll_eq_ok_iff`,
`Registry.enlistAll_eq_error_iff`, `Registry.store_allOrNothing`, `Registry.registration_exact`.
-/
import Recipients.Policy.Registration
import Recipients.Proofs.Policy.CycleSearch

namespace Recipients
namespace Registry

/-- Next to the listed policies the candidate is refused, and why: it is listed itself, or else it leads
to a loop. -/
inductive Refuses (r : Registry) (listed : List PolicyId) (candidate : PolicyId) :
    RegistrationError → Prop
  | duplicate : candidate ∈ listed → Refuses r listed candidate (.duplicate (r.nameOf candidate))
  | cycle : candidate ∉ listed → r.MeetsLoop candidate →
      Refuses r listed candidate (.cycle (r.nameOf candidate))

/-- The second registry holds the policy at the place, and otherwise what the first one holds. -/
structure Puts (r : Registry) (x : PolicyId) (policy : Policy) (r' : Registry) : Prop where
  here : r'.policy? x = some policy
  elsewhere : ∀ q, q ≠ x → r'.policy? q = r.policy? q

/-- Without an error the determiner lists the siblings, is otherwise as it was, and so are all policies;
with an error nothing has changed. -/
structure AllOrNothing (r : Registry) (parent : PolicyId) (d : Determiner) (siblings : List PolicyId)
    (outcome : Registry × Option RegistrationError) : Prop where
  all : outcome.2 = none → r.Puts parent (.determiner { d with siblings := siblings }) outcome.1
  nothing : outcome.2 ≠ none → outcome.1 = r

variable {r : Registry} {listed siblings ps : List PolicyId} {parent p q candidate : PolicyId}
  {d : Determiner} {e : RegistrationError}

/-! ### One candidate -/

theorem enlist_eq_ok_iff : r.enlist listed candidate = .ok siblings ↔
    candidate ∉ listed ∧ ¬ r.MeetsLoop candidate ∧ siblings = listed ++ [candidate] := by
  unfold enlist
  by_cases hlisted : candidate ∈ listed
  · simp [hlisted]
  rw [if_neg hlisted]
  by_cases hloop : r.MeetsLoop candidate
  · simp [hloop, hasCycle_iff_meetsLoop]
  · rw [if_neg (mt hasCycle_iff_meetsLoop.mp hloop)]
    simp [hlisted, hloop, eq_comm (a := siblings)]

theorem enlist_eq_error_iff : r.enlist listed candidate = .error e ↔ r.Refuses listed candidate e := by
  unfold enlist
  constructor
  · intro h
    by_cases hlisted : candidate ∈ listed
    · rw [if_pos hlisted] at h
      cases h
      exact .duplicate hlisted
    · rw [if_neg hlisted] at h
      by_cases hloop : r.MeetsLoop candidate
      · rw [if_pos (hasCycle_iff_meetsLoop.mpr hloop)] at h
        cases h
        exact .cycle hlisted hloop
      · rw [if_neg (mt hasCycle_iff_meetsLoop.mp hloop)] at h
        cases h
  · rintro (hlisted | ⟨hlisted, hloop⟩)
    · rw [if_pos hlisted]
    · rw [if_neg hlisted, if_pos (hasCycle_iff_meetsLoop.mpr hloop)]

/-! ### Many candidates -/

theorem enlistAll_cons_of_ok (hp : r.enlist listed p = .ok siblings) :
    r.enlistAll listed (p :: ps) = r.enlistAll siblings ps := by
  rw [enlistAll, hp]

theorem enlistAll_cons_of_error (hp : r.enlist listed p = .error e) :
    r.enlistAll listed (p :: ps) = .error e := by
  rw [enlistAll, hp]

/-- Taken one after the other, the candidates go to the end of the list, if none repeats another one or a
listed policy, and none leads to a loop. -/
theorem enlistAll_eq_ok_iff : ∀ {ps listed : List PolicyId}, listed.Nodup →
    (r.enlistAll listed ps = .ok siblings ↔
      (listed ++ ps).Nodup ∧ (∀ p ∈ ps, ¬ r.MeetsLoop p) ∧ siblings = listed ++ ps)
  | [], listed, hlisted => by simp [enlistAll, hlisted, eq_comm]
  | p :: ps, listed, hlisted => by
    cases hp : r.enlist listed p with
    | ok next =>
      obtain ⟨hnew, hloop, rfl⟩ := enlist_eq_ok_iff.mp hp
      have hnext : (listed ++ [p]).Nodup := by
        simpa [List.nodup_append, hlisted] using fun a ha (hap : a = p) => hnew (hap ▸ ha)
      rw [enlistAll_cons_of_ok hp, enlistAll_eq_ok_iff hnext, List.append_assoc, List.singleton_append,
        List.forall_mem_cons]
      simp only [hloop, not_false_eq_true, true_and]
    | error e =>
      rw [enlistAll_cons_of_error hp]
      refine ⟨nofun, fun ⟨hnodup, hloops, _⟩ => ?_⟩
      cases enlist_eq_error_iff.mp hp with
      | duplicate hmem =>
        exact absurd rfl ((List.nodup_append.mp hnodup).2.2 p hmem p List.mem_cons_self)
      | cycle _ hloop => exact absurd hloop (hloops p List.mem_cons_self)

/-- The error is that of the first candidate that is refused next to the list as far as it has grown. -/
theorem enlistAll_eq_error_iff : ∀ {ps listed : List PolicyId},
    r.enlistAll listed ps = .error e ↔
      ∃ before p after, ps = before ++ p :: after ∧
        r.enlistAll listed before = .ok (listed ++ before) ∧ r.Refuses (listed ++ before) p e
  | [], listed => by simp [enlistAll]
  | p :: ps, listed => by
    cases hp : r.enlist listed p with
    | ok next =>
      obtain ⟨-, -, rfl⟩ := enlist_eq_ok_iff.mp hp
      rw [enlistAll_cons_of_ok hp, enlistAll_eq_error_iff]
      constructor
      · rintro ⟨before, q, after, rfl, htaken, hrefused⟩
        refine ⟨p :: before, q, after, rfl, ?_, ?_⟩
        · rw [enlistAll_cons_of_ok hp, htaken, List.append_assoc, List.singleton_append]
        · simpa using hrefused
      · rintro ⟨_ | ⟨_, before⟩, q, after, hps, htaken, hrefused⟩
        · -- the first candidate is taken, so it is not the one that is refused
          obtain ⟨rfl, rfl⟩ := List.cons.inj hps
          rw [List.append_nil, ← enlist_eq_error_iff, hp] at hrefused
          cases hrefused
        · obtain ⟨rfl, rfl⟩ := List.cons.inj hps
          rw [enlistAll_cons_of_ok hp] at htaken
          exact ⟨before, q, after, rfl, by simpa using htaken, by simpa using hrefused⟩
    | error e' =>
      rw [enlistAll_cons_of_error hp]
      constructor
      · intro h
        cases h
        exact ⟨[], p, ps, rfl, by simp [enlistAll], by simpa using enlist_eq_error_iff.mp hp⟩
      · rintro ⟨_ | ⟨_, before⟩, q, after, hps, htaken, hrefused⟩
        · obtain ⟨rfl, rfl⟩ := List.cons.inj hps
          rw [List.append_nil, ← enlist_eq_error_iff, hp] at hrefused
          exact hrefused
        · obtain ⟨rfl, rfl⟩ := List.cons.inj hps
          rw [enlistAll_cons_of_error hp] at htaken
          cases htaken

/-! ### Storing -/

theorem policy?_modify (r : Registry) (p q : PolicyId) (f : Policy → Policy) :
    (r.modify p f).policy? q = if q = p then (r.policy? p).map f else r.policy? q := by
  unfold policy? modify
  rw [List.getElem?_modify]
  by_cases h : q = p
  · subst h
    simp
  · simp [h, Ne.symm h]

/-- A policy with other links stands where it stood. -/
theorem puts_setLinks {policy : Policy} (hp : r.policy? p = some policy) (links : List PolicyId) :
    r.Puts p (policy.withLinks links) (r.setLinks p links) where
  here := by rw [setLinks, policy?_modify, if_pos rfl, hp, Option.map_some]
  elsewhere := fun q hq => by rw [setLinks, policy?_modify, if_neg hq]

theorem links_determiner (hd : r.policy? p = some (.determiner d)) : r.links p = d.siblings := by
  rw [links, hd]
  rfl

section Store

variable {outcome : Except RegistrationError (List PolicyId)}

theorem store_eq_none_iff : (r.store parent outcome).2 = none ↔ ∃ taken, outcome = .ok taken := by
  cases outcome <;> simp [store]

theorem store_eq_some_iff : (r.store parent outcome).2 = some e ↔ outcome = .error e := by
  cases outcome <;> simp [store]

/-- What is stored is the list, or nothing. -/
theorem store_allOrNothing (hd : r.policy? parent = some (.determiner d))
    (houtcome : ∀ taken, outcome = .ok taken → taken = siblings) :
    r.AllOrNothing parent d siblings (r.store parent outcome) := by
  cases outcome with
  | ok taken =>
    obtain rfl := houtcome taken rfl
    exact ⟨fun _ => puts_setLinks hd taken, fun h => absurd rfl h⟩
  | error e => exact ⟨nofun, fun _ => rfl⟩

end Store

/-! ### Adding one sibling -/

section Add

variable (hd : r.policy? parent = some (.determiner d))
include hd

theorem addSibling_eq_some_iff :
    (r.addSibling parent candidate).2 = some e ↔ r.Refuses d.siblings candidate e := by
  rw [addSibling, store_eq_some_iff, enlist_eq_error_iff, links_determiner hd]

theorem addSibling_eq_none_iff : (r.addSibling parent candidate).2 = none ↔
    candidate ∉ d.siblings ∧ ¬ r.MeetsLoop candidate := by
  simp only [addSibling, store_eq_none_iff, enlist_eq_ok_iff, links_determiner hd]
  exact ⟨fun ⟨_, hnew, hloop, _⟩ => ⟨hnew, hloop⟩, fun ⟨hnew, hloop⟩ => ⟨_, hnew, hloop, rfl⟩⟩

theorem addSibling_allOrNothing (candidate : PolicyId) :
    r.AllOrNothing parent d (d.siblings ++ [candidate]) (r.addSibling parent candidate) := by
  refine store_allOrNothing hd fun taken htaken => ?_
  rw [(enlist_eq_ok_iff.mp htaken).2.2, links_determiner hd]

end Add

/-! ### Replacing all siblings -/

/-- The list starts empty, so what the determiner listed before does not matter. -/
theorem enlistAll_nil_eq_ok_iff : r.enlistAll [] ps = .ok siblings ↔
    ps.Nodup ∧ (∀ p ∈ ps, ¬ r.MeetsLoop p) ∧ siblings = ps :=
  enlistAll_eq_ok_iff List.nodup_nil

theorem setSiblings_eq_some_iff : (r.setSiblings parent ps).2 = some e ↔
    ∃ before p after, ps = before ++ p :: after ∧
      (before.Nodup ∧ ∀ q ∈ before, ¬ r.MeetsLoop q) ∧ r.Refuses before p e := by
  simp only [setSiblings, store_eq_some_iff, enlistAll_eq_error_iff, List.nil_append,
    enlistAll_nil_eq_ok_iff, and_true]

theorem setSiblings_eq_none_iff : (r.setSiblings parent ps).2 = none ↔
    ps.Nodup ∧ ∀ p ∈ ps, ¬ r.MeetsLoop p := by
  simp only [setSiblings, store_eq_none_iff, enlistAll_nil_eq_ok_iff]
  exact ⟨fun ⟨_, hnodup, hloops, _⟩ => ⟨hnodup, hloops⟩,
    fun ⟨hnodup, hloops⟩ => ⟨_, hnodup, hloops, rfl⟩⟩

theorem setSiblings_allOrNothing (hd : r.policy? parent = some (.determiner d))
    (candidates : List PolicyId) :
    r.AllOrNothing parent d candidates (r.setSiblings parent candidates) :=
  store_allOrNothing hd fun _ htaken => (enlistAll_nil_eq_ok_iff.mp htaken).2.2

/-- **Registering is exact, and all or nothing.** A candidate is a duplicate exactly if the determiner
lists it, a cycle exactly if it is none and leads to a loop, and otherwise goes to the end. A list is
taken exactly if its entries are distinct and none leads to a loop, and otherwise the error is that of
its first entry that is refused next to those before it. On success the determiner lists exactly that
and nothing else has changed, its name, claim and getters included; on failure nothing has. -/
theorem registration_exact (hd : r.policy? parent = some (.determiner d)) :
    (∀ candidate,
      ((r.addSibling parent candidate).2 = some (.duplicate (r.nameOf candidate)) ↔
        candidate ∈ d.siblings) ∧
      ((r.addSibling parent candidate).2 = some (.cycle (r.nameOf candidate)) ↔
        candidate ∉ d.siblings ∧ r.MeetsLoop candidate) ∧
      ((r.addSibling parent candidate).2 = none ↔
        candidate ∉ d.siblings ∧ ¬ r.MeetsLoop candidate) ∧
      r.AllOrNothing parent d (d.siblings ++ [candidate]) (r.addSibling parent candidate)) ∧
    ∀ candidates,
      ((r.setSiblings parent candidates).2 = none ↔
        candidates.Nodup ∧ ∀ p ∈ candidates, ¬ r.MeetsLoop p) ∧
      (∀ e, (r.setSiblings parent candidates).2 = some e ↔
        ∃ before p after, candidates = before ++ p :: after ∧
          (before.Nodup ∧ ∀ q ∈ before, ¬ r.MeetsLoop q) ∧ r.Refuses before p e) ∧
      r.AllOrNothing parent d candidates (r.setSiblings parent candidates) := by
  refine ⟨fun candidate => ⟨?_, ?_, ?_, ?_⟩, fun candidates => ⟨?_, fun e => ?_, ?_⟩⟩
  · rw [addSibling_eq_some_iff hd]
    exact ⟨fun | .duplicate hlisted => hlisted, .duplicate⟩
  · rw [addSibling_eq_some_iff hd]
    exact ⟨fun | .cycle hnew hloop => ⟨hnew, hloop⟩, fun h => .cycle h.1 h.2⟩
  · exact addSibling_eq_none_iff hd
  · exact addSibling_allOrNothing hd candidate
  · exact setSiblings_eq_none_iff
  · exact setSiblings_eq_some_iff
  · exact setSiblings_allOrNothing hd candidates

/-- A determiner with one sibling, beside two leaves that are linked to each other. -/
def knot : Registry :=
  ⟨[.determiner ⟨"default", none, [1], .standard 0⟩,
    .leaf ⟨"kept", .ofEvent "kept", fun _ _ _ _ => .empty, []⟩,
    .leaf ⟨"left", .ofEvent "left", fun _ _ _ _ => .empty, [3]⟩,
    .leaf ⟨"right", .ofEvent "right", fun _ _ _ _ => .empty, [2]⟩]⟩

/-- In `knot` a repeated entry and a loop compete for the error: the first in order wins, and the old list
stays either way, though its sibling may be listed again. -/
theorem registration_knot :
    (∃ d, knot.policy? 0 = some (.determiner d)) ∧
      (knot.setSiblings 0 [1, 2, 1]).2 = some (.cycle "left") ∧
      (knot.setSiblings 0 [1, 1, 2]).2 = some (.duplicate "kept") ∧
      (knot.setSiblings 0 [1, 1, 2]).1 = knot ∧ (knot.setSiblings 0 [1]).2 = none := by
  have hroot : knot.policy? 0 = some (.determiner ⟨"default", none, [1], .standard 0⟩) := rfl
  have hkept : ¬ knot.MeetsLoop 1 := fun h => absurd (hasCycle_iff_meetsLoop.mpr h) (by decide)
  have hleft : knot.MeetsLoop 2 := hasCycle_iff_meetsLoop.mp (by decide)
  have hset := (registration_exact hroot).2
  have hloop : (knot.setSiblings 0 [1, 2, 1]).2 = some (.cycle "left") :=
    ((hset [1, 2, 1]).2.1 _).mpr
      ⟨[1], 2, [1], rfl, ⟨by decide, by simpa using hkept⟩, .cycle (by decide) hleft⟩
  have hrepeated : (knot.setSiblings 0 [1, 1, 2]).2 = some (.duplicate "kept") :=
    ((hset [1, 1, 2]).2.1 _).mpr
      ⟨[1], 1, [2], rfl, ⟨by decide, by simpa using hkept⟩, .duplicate (by decide)⟩
  refine ⟨⟨_, hroot⟩, hloop, hrepeated, (hset [1, 1, 2]).2.2.nothing ?_, (hset [1]).1.mpr ?_⟩
  · rw [hrepeated]
    exact Option.some_ne_none _
  · exact ⟨by decide, by simpa using hkept⟩

end Registry
end Recipients
