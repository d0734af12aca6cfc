/-
# Other links at one place

Where only one policy changes, a policy that does not lead to it notices nothing: it leads to what it led
to before, and meets no loop that it did not meet before. And if the changed policy is nobody's sibling,
before and after, the change closes no loop of siblings.

Key theorems: `Registry.Puts.reflTransGen_iff`, `Registry.Puts.meetsLoop`, `Registry.Puts.loopFree`,
`Registry.hasCycle_setLinks`.
-/
import Recipients.Proofs.Policy.Registration

namespace Recipients

open Relation

/-! ### A relation that changes at one place

Only what `x` is related to changes. -/

section Unchanged

variable {α : Type} {old new : α → α → Prop} {x a b : α}

theorem transGen_of_unchanged (h : ∀ a, a ≠ x → ∀ b, new a b → old a b)
    (ha : ¬ ReflTransGen old a x) (hab : TransGen new a b) : TransGen old a b := by
  induction hab with
  | single hab => exact .single (h a (fun hax => ha (hax ▸ .refl)) _ hab)
  | tail _ hbc ih => exact ih.tail (h _ (fun hbx => ha (hbx ▸ ih.to_reflTransGen)) _ hbc)

theorem reflTransGen_of_unchanged (h : ∀ a, a ≠ x → ∀ b, new a b → old a b)
    (ha : ¬ ReflTransGen old a x) (hab : ReflTransGen new a b) : ReflTransGen old a b := by
  rcases reflTransGen_iff_eq_or_transGen.mp hab with rfl | hab
  · exact .refl
  · exact (transGen_of_unchanged h ha hab).to_reflTransGen

/-- Only an element itself leads to one that nothing is related to. -/
theorem eq_of_reflTransGen (h : ∀ a, ¬ old a x) (hax : ReflTransGen old a x) : a = x := by
  rcases hax.cases_tail with hxa | ⟨b, -, hbx⟩
  · exact hxa.symm
  · exact absurd hbx (h b)

theorem not_transGen_self (h : ∀ a, ¬ old a x) : ¬ TransGen old x x := by
  intro hxx
  obtain ⟨b, -, hbx⟩ := TransGen.tail'_iff.mp hxx
  exact h b hbx

end Unchanged

namespace Registry

variable {r r' : Registry} {x p q : PolicyId} {policy : Policy} {d : Determiner}

/-- A policy that leads to a loop is linked to one that does. -/
theorem MeetsLoop.exists_link (h : r.MeetsLoop p) : ∃ q, r.LinksTo p q ∧ r.MeetsLoop q := by
  obtain ⟨q, hpq, hloop⟩ := h
  rcases hpq.cases_head with rfl | ⟨s, hps, hsq⟩
  · obtain ⟨s, hps, hsp⟩ := TransGen.head'_iff.mp hloop
    exact ⟨s, hps, p, hsp, hloop⟩
  · exact ⟨s, hps, q, hsq, hloop⟩

theorem MeetsLoop.of_link (hpq : r.LinksTo p q) (h : r.MeetsLoop q) : r.MeetsLoop p := by
  obtain ⟨s, hqs, hloop⟩ := h
  exact ⟨s, .head hpq hqs, hloop⟩

theorem Delegates.linksTo (h : r.Delegates p q) : r.LinksTo p q := by
  obtain ⟨d, hd, hq⟩ := h
  rw [LinksTo, links_determiner hd]
  exact hq

namespace Puts

theorem linksTo_here (h : r.Puts x policy r') : r'.LinksTo x q ↔ q ∈ policy.links := by
  rw [LinksTo, links, h.here]
  rfl

theorem linksTo_elsewhere (h : r.Puts x policy r') (hp : p ≠ x) (q : PolicyId) :
    r'.LinksTo p q ↔ r.LinksTo p q := by
  rw [LinksTo, LinksTo, links, links, h.elsewhere p hp]

theorem delegates_elsewhere (h : r.Puts x policy r') (hp : p ≠ x) (q : PolicyId)
    (hpq : r'.Delegates p q) : r.Delegates p q := by
  obtain ⟨d, hd, hq⟩ := hpq
  exact ⟨d, h.elsewhere p hp ▸ hd, hq⟩

theorem lt_size (h : r.Puts x policy r') (hp : p < r.size) : p < r'.size := by
  by_contra hle
  have hnone := policy?_eq_none.mpr (Nat.le_of_not_lt hle)
  by_cases hpx : p = x
  · rw [hpx, h.here] at hnone
    cases hnone
  · rw [h.elsewhere p hpx, policy?_eq_none] at hnone
    exact absurd hp (Nat.not_lt_of_le hnone)

/-- What a policy leads to stays the same if the changed one is not among it. -/
theorem reflTransGen_iff (h : r.Puts x policy r') (hp : ¬ ReflTransGen r.LinksTo p x) :
    ReflTransGen r'.LinksTo p q ↔ ReflTransGen r.LinksTo p q := by
  refine ⟨reflTransGen_of_unchanged (fun a ha b => (h.linksTo_elsewhere ha b).mp) hp, fun hpq => ?_⟩
  induction hpq with
  | refl => exact .refl
  | @tail b c hpb hbc ih =>
    have hb : b ≠ x := fun hbx => hp (hbx ▸ hpb)
    exact ih.tail ((h.linksTo_elsewhere hb c).mpr hbc)

/-- A policy that does not lead to the changed one meets no new loop. -/
theorem meetsLoop (h : r.Puts x policy r') (hp : ¬ ReflTransGen r.LinksTo p x)
    (hloop : r'.MeetsLoop p) : r.MeetsLoop p := by
  obtain ⟨q, hpq, hq⟩ := hloop
  have hpq := (h.reflTransGen_iff hp).mp hpq
  have hqx : ¬ ReflTransGen r.LinksTo q x := fun hqx => hp (hpq.trans hqx)
  exact ⟨q, hpq, transGen_of_unchanged (fun a ha b => (h.linksTo_elsewhere ha b).mp) hqx hq⟩

/-- No loop of siblings comes of changing a policy that is nobody's sibling. -/
theorem loopFree (h : r.Puts x policy r') (hr : r.LoopFree) (hold : ∀ p, ¬ r.Delegates p x)
    (hnew : ∀ p, ¬ r'.Delegates p x) : r'.LoopFree := by
  intro p hp
  by_cases hpx : p = x
  · exact not_transGen_self hnew (hpx ▸ hp)
  · have hreach : ¬ ReflTransGen r.Delegates p x := fun hreach => hpx (eq_of_reflTransGen hold hreach)
    exact hr p (transGen_of_unchanged (fun a ha => h.delegates_elsewhere ha) hreach hp)

end Puts

/-- Whether a candidate is refused as a cycle does not depend on the list of a determiner to which it does
not lead, so it makes no difference that the list is half replaced when a later candidate is checked. -/
theorem hasCycle_setLinks {parent candidate : PolicyId} (hd : r.policy? parent = some (.determiner d))
    (hcandidate : ¬ ReflTransGen r.LinksTo candidate parent) (listed : List PolicyId) :
    (r.setLinks parent listed).hasCycle candidate = r.hasCycle candidate := by
  have hputs : r.Puts parent (.determiner { d with siblings := listed }) (r.setLinks parent listed) :=
    puts_setLinks hd listed
  have hback : (r.setLinks parent listed).Puts parent (.determiner d) r :=
    ⟨hd, fun q hq => (hputs.elsewhere q hq).symm⟩
  rw [Bool.eq_iff_iff, hasCycle_iff_meetsLoop, hasCycle_iff_meetsLoop]
  exact ⟨hputs.meetsLoop hcandidate,
    hback.meetsLoop fun hreach => hcandidate ((hputs.reflTransGen_iff hcandidate).mp hreach)⟩

end Registry
end Recipients
