/-
# A question is redirected at most once

A determiner asked for receivers passes the question to the handler it finds, and that policy searches
again, from itself. All policies below the first one that takes the pair have declined, so the second
search ends where it began: a handler is its own handler. So the receivers are what the handler answers
for itself, and the getters of the policies on the way do not matter, those of the root included.

Key definitions: `Registry.answer`, `Registry.SameButGetters`.
Key theorems: `Registry.LoopFree.handler?_self`, `Registry.LoopFree.receivers_eq_answer`,
`Registry.receivers_redirected_once`.
-/
import Recipients.Proofs.Policy.Delegation

namespace Recipients
namespace Registry

open Relation

section Handler

variable {r : Registry} (g : Graph) (object : ObjectRef) (event : Option String)
  {p k : PolicyId}

/-- A handler is the policy itself or the handler of a sibling. -/
theorem LoopFree.handler?_cases (h : r.LoopFree) (hk : r.handler? g object event p = some k) :
    k = p ∨ ∃ q, r.Delegates p q ∧ r.handler? g object event q = some k := by
  rw [handler?, h.search_eq] at hk
  cases hp : r.policy? p with
  | none => simp [hp] at hk
  | some policy =>
    cases policy with
    | leaf l =>
      simp only [hp] at hk
      split at hk
      · exact .inl (Option.some.inj hk).symm
      · cases hk
    | determiner d =>
      simp only [hp] at hk
      cases hs : (firstFound (r.search g object event) d.siblings).found with
      | some j =>
        simp only [hs] at hk
        obtain ⟨q, hq, hfound⟩ := exists_of_firstFound (hs.trans hk)
        exact .inr ⟨q, ⟨d, hp, hq⟩, hfound⟩
      | none =>
        cases hc : d.claim with
        | none =>
          simp only [hs, hc] at hk
          exact .inl (Option.some.inj hk).symm
        | some claim =>
          simp only [hs, hc] at hk
          split at hk
          · exact .inl (Option.some.inj hk).symm
          · cases hk

/-- **A handler is its own handler.** -/
theorem LoopFree.handler?_self (h : r.LoopFree) :
    ∀ p, r.handler? g object event p = some k → r.handler? g object event k = some k := by
  refine h.induction fun p ih hk => ?_
  rcases h.handler?_cases g object event hk with rfl | ⟨q, hpq, hq⟩
  · exact hk
  · exact ih q hpq hq

/-- What the registry does not hold is never found. -/
theorem LoopFree.exists_policy (h : r.LoopFree) (hk : r.handler? g object event p = some k) :
    ∃ policy, r.policy? k = some policy := by
  have hself := h.handler?_self g object event p hk
  cases hp : r.policy? k with
  | some policy => exact ⟨policy, rfl⟩
  | none =>
    rw [handler?, h.search_eq, hp] at hself
    cases hself

end Handler

/-- What a policy answers for a pair that is its own: a leaf by its rule, a determiner by resolving with
its own getters. -/
def answer (r : Registry) (g : Graph) (object : ObjectRef) (event : Option String)
    (raw : ReceiverConfig) (p : PolicyId) : Receivers :=
  match r.policy? p with
  | none => .empty
  | some (.leaf l) => l.answer g object event raw
  | some (.determiner d) => resolveReceivers g d.getters object raw

section Answer

variable {r : Registry} (g : Graph) (object : ObjectRef) (event : Option String)
  (raw : ReceiverConfig) {p k : PolicyId} {d : Determiner} {l : Leaf}

theorem answer_determiner (hp : r.policy? p = some (.determiner d)) :
    r.answer g object event raw p = resolveReceivers g d.getters object raw := by
  rw [answer, hp]

theorem resolve_determiner (hp : r.policy? p = some (.determiner d)) :
    r.resolve g object p raw = resolveReceivers g d.getters object raw := by
  rw [resolve, gettersOf, hp]

theorem dispatchWithin_leaf (hp : r.policy? p = some (.leaf l)) (bound : Nat) :
    (r.dispatchWithin g object event raw (bound + 1) p).receivers = r.answer g object event raw p := by
  rw [dispatchWithin, answer, hp]

/-- A determiner without another handler answers for itself. -/
theorem dispatchWithin_own (hp : r.policy? p = some (.determiner d))
    (hown : r.handler? g object event p = none ∨ r.handler? g object event p = some p) (bound : Nat) :
    (r.dispatchWithin g object event raw (bound + 1) p).receivers = r.answer g object event raw p := by
  rw [answer_determiner g object event raw hp, ← resolve_determiner g object raw hp, dispatchWithin, hp]
  unfold handler? at hown
  rcases hown with hnone | hself
  · simp only [hnone]
  · simp only [hself, if_true]

/-- A determiner with another handler passes the question to it. -/
theorem dispatchWithin_other (hp : r.policy? p = some (.determiner d))
    (hk : r.handler? g object event p = some k) (hne : k ≠ p) (bound : Nat) :
    (r.dispatchWithin g object event raw (bound + 1) p).receivers =
      (r.dispatchWithin g object event raw bound k).receivers := by
  unfold handler? at hk
  rw [dispatchWithin, hp]
  simp only [hk, if_neg hne]

/-- A handler answers for itself. -/
theorem LoopFree.dispatchWithin_handler (h : r.LoopFree) (hk : r.handler? g object event p = some k)
    (bound : Nat) :
    (r.dispatchWithin g object event raw (bound + 1) k).receivers = r.answer g object event raw k := by
  obtain ⟨policy, hpolicy⟩ := h.exists_policy g object event hk
  cases policy with
  | leaf l => exact dispatchWithin_leaf g object event raw hpolicy bound
  | determiner d =>
    exact dispatchWithin_own g object event raw hpolicy
      (.inr (h.handler?_self g object event p hk)) bound

/-- One redirection suffices: however many more are allowed, a determiner answers what its handler
answers for itself, or what it answers itself if there is no handler. -/
theorem LoopFree.dispatchWithin_eq_answer (h : r.LoopFree) (hp : r.policy? p = some (.determiner d))
    (bound : Nat) :
    (r.dispatchWithin g object event raw (bound + 2) p).receivers =
      r.answer g object event raw ((r.handler? g object event p).getD p) := by
  cases hk : r.handler? g object event p with
  | none => exact dispatchWithin_own g object event raw hp (.inl hk) (bound + 1)
  | some k =>
    by_cases hkp : k = p
    · subst hkp
      exact dispatchWithin_own g object event raw hp (.inr hk) (bound + 1)
    · rw [dispatchWithin_other g object event raw hp hk hkp]
      exact h.dispatchWithin_handler g object event raw hk bound

/-- The receivers of a determiner are the answer of the handler. -/
theorem LoopFree.receivers_eq_answer (h : r.LoopFree) (hp : r.policy? p = some (.determiner d)) :
    r.receivers g object event p raw =
      r.answer g object event raw ((r.handler? g object event p).getD p) := by
  have hpos : 0 < r.size := Nat.zero_lt_of_lt (lt_size_of_policy? hp)
  obtain ⟨n, hn⟩ : ∃ n, r.size + 1 = n + 2 := ⟨r.size - 1, by omega⟩
  rw [receivers, dispatch, hn]
  exact h.dispatchWithin_eq_answer g object event raw hp n

end Answer

/-! ### Other getters -/

/-- The second registry is the first with the getter chains of policies other than `p` changed. -/
structure SameButGetters (r r' : Registry) (p : PolicyId) : Prop where
  same : r'.policy? p = r.policy? p
  changed : ∀ q, ∃ f, r'.policy? q = (r.policy? q).map (·.mapGetters f)

namespace SameButGetters

variable {r r' : Registry} {p : PolicyId}

theorem size_eq (h : r.SameButGetters r' p) : r'.size = r.size := by
  have hle : ∀ q, r'.size ≤ q ↔ r.size ≤ q := fun q => by
    obtain ⟨f, hf⟩ := h.changed q
    rw [← policy?_eq_none, ← policy?_eq_none, hf, Option.map_eq_none_iff]
  exact Nat.le_antisymm ((hle _).mpr (Nat.le_refl _)) ((hle _).mp (Nat.le_refl _))

/-- A determiner is one in the other registry too, with the same claim and the same siblings. -/
theorem determiner (h : r.SameButGetters r' p) {q : PolicyId} {d : Determiner}
    (hq : r.policy? q = some (.determiner d)) :
    ∃ getters, r'.policy? q = some (.determiner { d with getters := getters }) := by
  obtain ⟨f, hf⟩ := h.changed q
  rw [hq] at hf
  exact ⟨f d.getters, hf⟩

theorem delegates (h : r.SameButGetters r' p) {q s : PolicyId} (hqs : r'.Delegates q s) :
    r.Delegates q s := by
  obtain ⟨d, hd, hs⟩ := hqs
  obtain ⟨f, hf⟩ := h.changed q
  rw [hd] at hf
  cases hq : r.policy? q with
  | none => simp [hq] at hf
  | some policy =>
    cases policy with
    | leaf l => simp [hq, Policy.mapGetters] at hf
    | determiner e =>
      simp only [hq, Option.map_some, Policy.mapGetters, Option.some.injEq, Policy.determiner.injEq] at hf
      exact ⟨e, hq, by simpa [hf] using hs⟩

theorem loopFree (h : r.SameButGetters r' p) (hr : r.LoopFree) : r'.LoopFree :=
  fun q hq => hr q (TransGen.mono (fun _ _ => h.delegates) q q hq)

/-- The search does not read getters. -/
theorem searchWithin_eq (h : r.SameButGetters r' p) (g : Graph) (object : ObjectRef)
    (event : Option String) : ∀ n, r'.searchWithin g object event n = r.searchWithin g object event n
  | 0 => rfl
  | n + 1 => by
    funext q
    obtain ⟨f, hf⟩ := h.changed q
    -- the searches from the siblings agree as functions, so only the policy itself is compared
    rw [searchWithin, searchWithin, searchWithin_eq h g object event n, hf]
    cases hq : r.policy? q with
    | none => rfl
    | some policy => cases policy <;> rfl

theorem handler?_eq (h : r.SameButGetters r' p) (g : Graph) (object : ObjectRef)
    (event : Option String) (q : PolicyId) :
    r'.handler? g object event q = r.handler? g object event q := by
  rw [handler?, search, h.size_eq, h.searchWithin_eq g object event]
  rfl

end SameButGetters

/-- **A question is redirected at most once.** Let delegation have no loop. More redirections than one
change nothing. If the handler of a determiner is another policy, the receivers are those of that
policy, which is its own handler, and if it is a determiner too, they are resolved with its own getters.
If the handler is the determiner itself, or there is none, they are resolved with its own. Other getters
anywhere but there give the same receivers. -/
theorem receivers_redirected_once {r : Registry} (h : r.LoopFree) {root : PolicyId} {d : Determiner}
    (hroot : r.policy? root = some (.determiner d)) (g : Graph) (object : ObjectRef)
    (event : Option String) (raw : ReceiverConfig) :
    (∀ bound, (r.dispatchWithin g object event raw (bound + 2) root).receivers =
      r.receivers g object event root raw) ∧
    (∀ k, r.handler? g object event root = some k → k ≠ root →
      r.receivers g object event root raw = r.receivers g object event k raw ∧
      ∀ e, r.policy? k = some (.determiner e) →
        r.handler? g object event k = some k ∧
        r.receivers g object event root raw = resolveReceivers g e.getters object raw) ∧
    (r.handler? g object event root = some root ∨ r.handler? g object event root = none →
      r.receivers g object event root raw = resolveReceivers g d.getters object raw) ∧
    ∀ r', r.SameButGetters r' ((r.handler? g object event root).getD root) →
      r'.receivers g object event root raw = r.receivers g object event root raw := by
  have hanswer := h.receivers_eq_answer g object event raw hroot
  refine ⟨fun bound => ?_, fun k hk _ => ⟨?_, fun e he => ⟨?_, ?_⟩⟩, fun hown => ?_, fun r' hr' => ?_⟩
  · rw [hanswer, h.dispatchWithin_eq_answer g object event raw hroot]
  · rw [hanswer, hk, Option.getD_some, receivers, dispatch, h.dispatchWithin_handler g object event raw hk]
  · exact h.handler?_self g object event root hk
  · rw [hanswer, hk, Option.getD_some, answer_determiner g object event raw he]
  · have hself : (r.handler? g object event root).getD root = root := by
      rcases hown with hown | hown <;> rw [hown] <;> rfl
    rw [hanswer, hself, answer_determiner g object event raw hroot]
  · obtain ⟨getters, hroot'⟩ := hr'.determiner hroot
    rw [hanswer, (hr'.loopFree h).receivers_eq_answer g object event raw hroot',
      hr'.handler?_eq g object event, answer, answer, hr'.same]

/-- In `diamond` a shipping goes from the root to `shipped`, past the leaf that two determiners share. -/
theorem receivers_diamond_shipped :
    diamond.LoopFree ∧ (∃ d, diamond.policy? 0 = some (.determiner d)) ∧
      diamond.handler? .empty Graph.root (some "shipped") 0 = some 2 ∧
      diamond.receivers .empty Graph.root (some "shipped") 0 (.ofList [("ops@example.com", "Ops")]) =
        resolveReceivers .empty (.standard 2) Graph.root (.ofList [("ops@example.com", "Ops")]) := by
  have hroot : diamond.policy? 0 = some (.determiner ⟨"default", none, [1, 2], .standard 0⟩) := rfl
  have hk : diamond.handler? .empty Graph.root (some "shipped") 0 = some 2 := by decide
  have h := receivers_redirected_once diamond_loopFree hroot .empty Graph.root (some "shipped")
    (.ofList [("ops@example.com", "Ops")])
  exact ⟨diamond_loopFree, ⟨_, hroot⟩, hk, ((h.2.1 2 hk (by decide)).2 _ rfl).2⟩

end Registry
end Recipients
