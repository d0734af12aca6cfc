/-
# The handler is the first claim in post-order

Listed in post-order, the policies below a determiner are those below its first sibling, those below the
next, and so on, and the determiner at the end; a policy that is shared comes once on every route to it.
The search for a handler walks this list from the front. It ends at the first policy that takes the
pair, so a nested claim comes before the one above it and an early sibling before all that is below a
later one, and it asks the claims up to that place and no other.

Key definitions: `Registry.postOrder`, `Registry.IsPostOrder`, `through`, `Search.Scans`.
Key theorems: `Registry.LoopFree.isPostOrder`, `firstFound_scans`, `Registry.searchWithin_scans`,
`Registry.handler?_first_in_postOrder`.
-/
import Recipients.Proofs.Policy.Delegation

namespace Recipients

/-! ### Scanning a list -/

/-- The list up to the first element that satisfies `f`, with this element. -/
def through {α : Type} (f : α → Bool) : List α → List α
  | [] => []
  | a :: as => if f a then [a] else a :: through f as

section Through

variable {α : Type} {f : α → Bool}

theorem through_of_find?_none : ∀ {as : List α}, as.find? f = none → through f as = as
  | [], _ => rfl
  | a :: as, h => by
    rw [List.find?_cons] at h
    cases ha : f a with
    | true => simp [ha] at h
    | false =>
      simp only [ha] at h
      simp [through, ha, through_of_find?_none h]

theorem through_append_of_some {a : α} : ∀ {as : List α}, as.find? f = some a → ∀ bs,
    through f (as ++ bs) = through f as
  | [], h, _ => by simp at h
  | b :: as, h, bs => by
    rw [List.find?_cons] at h
    cases hb : f b with
    | true => simp [through, hb]
    | false =>
      simp only [hb] at h
      simp [through, hb, through_append_of_some h bs]

theorem through_append_of_none : ∀ {as : List α}, as.find? f = none → ∀ bs,
    through f (as ++ bs) = as ++ through f bs
  | [], _, _ => rfl
  | a :: as, h, bs => by
    rw [List.find?_cons] at h
    cases ha : f a with
    | true => simp [ha] at h
    | false =>
      simp only [ha] at h
      simp [through, ha, through_append_of_none h bs]

end Through

/-- The search answers for the list: it finds the first policy that satisfies `f`, and has asked those
policies up to there that satisfy `asks`. -/
structure Search.Scans (f asks : PolicyId → Bool) (s : Search) (list : List PolicyId) : Prop where
  found : s.found = list.find? f
  consulted : s.consulted = (through f list).filter asks

namespace Search.Scans

variable {f asks : PolicyId → Bool} {s t : Search} {as bs : List PolicyId}

/-- A search that found a policy answers for every longer list. -/
theorem append_of_some {k : PolicyId} (h : s.Scans f asks as) (hs : s.found = some k)
    (bs : List PolicyId) : s.Scans f asks (as ++ bs) := by
  have hk : as.find? f = some k := h.found.symm.trans hs
  refine ⟨by simp [hs, hk], ?_⟩
  rw [through_append_of_some hk]
  exact h.consulted

/-- A search that found nothing and one after it answer for the two lists together. -/
theorem append_of_none (h : s.Scans f asks as) (hs : s.found = none) (ht : t.Scans f asks bs) :
    Search.Scans f asks ⟨t.found, s.consulted ++ t.consulted⟩ (as ++ bs) := by
  have hk : as.find? f = none := h.found.symm.trans hs
  have hasked := h.consulted
  rw [through_of_find?_none hk] at hasked
  refine ⟨by simp [hk, ht.found], ?_⟩
  simp only [through_append_of_none hk, List.filter_append, hasked, ht.consulted]

/-- What one policy answers for itself. -/
theorem single (f asks : PolicyId → Bool) (p : PolicyId) :
    Search.Scans f asks ⟨if f p then some p else none, if asks p then [p] else []⟩ [p] := by
  cases hf : f p <;> cases ha : asks p <;> exact ⟨by simp [hf], by simp [through, hf, ha]⟩

end Search.Scans

/-- Searches that each answer for a list, made one after the other, answer for the lists together. -/
theorem firstFound_scans {f asks : PolicyId → Bool} {s : PolicyId → Search}
    {list : PolicyId → List PolicyId} (h : ∀ p, (s p).Scans f asks (list p)) :
    ∀ ps : List PolicyId, (firstFound s ps).Scans f asks (ps.flatMap list)
  | [] => ⟨rfl, rfl⟩
  | p :: ps => by
    rw [firstFound, List.flatMap_cons]
    cases hs : (s p).found with
    | some k => exact (h p).append_of_some hs _
    | none => exact (h p).append_of_none hs (firstFound_scans h ps)

namespace Registry

/-- The policies below a policy in post-order, as far as paths of at most `depth` policies lead. -/
def postOrderWithin (r : Registry) : Nat → PolicyId → List PolicyId
  | 0, _ => []
  | depth + 1, p =>
    match r.policy? p with
    | none => []
    | some (.leaf _) => [p]
    | some (.determiner d) => d.siblings.flatMap (postOrderWithin r depth) ++ [p]

/-- The policies below a policy in post-order. -/
def postOrder (r : Registry) (p : PolicyId) : List PolicyId :=
  r.postOrderWithin r.size p

/-- `list` lists the policies below each policy in post-order. -/
structure IsPostOrder (r : Registry) (list : PolicyId → List PolicyId) : Prop where
  determiner : ∀ p d, r.policy? p = some (.determiner d) → list p = d.siblings.flatMap list ++ [p]
  leaf : ∀ p l, r.policy? p = some (.leaf l) → list p = [p]
  unknown : ∀ p, r.policy? p = none → list p = []

/-- Whether the policy has a claim to be asked. -/
def hasClaim (r : Registry) (p : PolicyId) : Bool :=
  (r.policy? p).any Policy.hasClaim

/-- The policy is a determiner that takes every pair. -/
def CatchesAll (r : Registry) (p : PolicyId) : Prop :=
  ∃ d, r.policy? p = some (.determiner d) ∧ d.claim = none

theorem postOrderWithin_unknown {r : Registry} {p : PolicyId} (hp : r.size ≤ p) :
    ∀ n, r.postOrderWithin n p = []
  | 0 => rfl
  | n + 1 => by rw [postOrderWithin, policy?_eq_none.mpr hp]

theorem postOrderWithin_step (r : Registry) {m n : Nat} {p : PolicyId}
    (h : ∀ q, r.Delegates p q → r.postOrderWithin m q = r.postOrderWithin n q) :
    r.postOrderWithin (m + 1) p = r.postOrderWithin (n + 1) p := by
  rw [postOrderWithin, postOrderWithin]
  cases hp : r.policy? p with
  | none => rfl
  | some policy =>
    cases policy with
    | leaf l => rfl
    | determiner d => simp only [List.flatMap_congr fun q hq => h q ⟨d, hp, hq⟩]

/-- Where delegation has no loop, `postOrder` is the listing in post-order. -/
theorem LoopFree.isPostOrder {r : Registry} (h : r.LoopFree) : r.IsPostOrder r.postOrder := by
  have hlevel : ∀ p, r.postOrder p = r.postOrderWithin (r.size + 1) p :=
    h.enough (fun m n p hp => by rw [postOrderWithin_unknown hp, postOrderWithin_unknown hp])
      (fun _ _ _ => postOrderWithin_step r)
  refine ⟨fun p d hp => ?_, fun p l hp => ?_, fun p hp => ?_⟩
  · rw [hlevel, postOrderWithin, hp]
    rfl
  · rw [hlevel, postOrderWithin, hp]
  · rw [hlevel, postOrderWithin, hp]

variable (r : Registry) (g : Graph) (object : ObjectRef) (event : Option String)

theorem CatchesAll.isHandler {r : Registry} {p : PolicyId} (h : r.CatchesAll p) :
    r.isHandler g object event p = true := by
  obtain ⟨d, hp, hc⟩ := h
  simp [Registry.isHandler, hp, Policy.isHandler, hc]

/-- At every depth the search answers for the listing of the same depth, loop or not. -/
theorem searchWithin_scans : ∀ (n : Nat) (p : PolicyId),
    (r.searchWithin g object event n p).Scans (r.isHandler g object event) r.hasClaim
      (r.postOrderWithin n p)
  | 0, _ => ⟨rfl, rfl⟩
  | n + 1, p => by
    rw [searchWithin, postOrderWithin]
    cases hp : r.policy? p with
    | none => exact ⟨rfl, rfl⟩
    | some policy =>
      cases policy with
      | leaf l =>
        have hh : r.isHandler g object event p = l.accepts g object event := by
          simp [isHandler, hp, Policy.isHandler]
        have hc : r.hasClaim p = false := by simp [hasClaim, hp, Policy.hasClaim]
        simpa [hh, hc] using Search.Scans.single (r.isHandler g object event) r.hasClaim p
      | determiner d =>
        have hbelow := firstFound_scans (searchWithin_scans n) d.siblings
        have hown := Search.Scans.single (r.isHandler g object event) r.hasClaim p
        have hh : r.isHandler g object event p = d.claim.all fun claim => claim g object event := by
          simp [isHandler, hp, Policy.isHandler]
        have hc : r.hasClaim p = d.claim.isSome := by simp [hasClaim, hp, Policy.hasClaim]
        rw [hh, hc] at hown
        cases hs : (firstFound (r.searchWithin g object event n) d.siblings).found with
        | some k =>
          -- a sibling found a handler, so the list is left before its last place
          simpa only [hs] using hbelow.append_of_some hs [p]
        | none =>
          have hall := hbelow.append_of_none hs hown
          cases hd : d.claim with
          | none => simpa [hs, hd] using hall
          | some claim => simpa [hs, hd] using hall

/-- **The handler is the first claim in post-order.** Where delegation has no loop, the handler of a pair
is the first policy of the listing that takes the pair, there is none exactly if no listed policy takes
it, and the claims asked are those of the listing up to the handler, in order. -/
theorem handler?_first_in_postOrder {r : Registry} (h : r.LoopFree) (g : Graph) (object : ObjectRef)
    (event : Option String) :
    r.IsPostOrder r.postOrder ∧ ∀ p,
      r.handler? g object event p = (r.postOrder p).find? (r.isHandler g object event) ∧
      (r.handler? g object event p = none ↔
        ∀ q ∈ r.postOrder p, r.isHandler g object event q = false) ∧
      ((∃ q ∈ r.postOrder p, r.CatchesAll q) → r.handler? g object event p ≠ none) ∧
      (r.search g object event p).consulted =
        (through (r.isHandler g object event) (r.postOrder p)).filter r.hasClaim := by
  refine ⟨h.isPostOrder, fun p => ?_⟩
  have hscan := r.searchWithin_scans g object event r.size p
  have hnone : r.handler? g object event p = none ↔
      ∀ q ∈ r.postOrder p, r.isHandler g object event q = false := by
    rw [show r.handler? g object event p = _ from hscan.found, List.find?_eq_none]
    exact forall₂_congr fun q _ => by rw [Bool.not_eq_true]
  refine ⟨hscan.found, hnone, ?_, hscan.consulted⟩
  rintro ⟨q, hq, hall⟩ hno
  have := hnone.mp hno q hq
  rw [hall.isHandler g object event] at this
  cases this

/-- In `diamond` the shared leaf is listed twice, and a shipping asks the two claims before the root. -/
theorem handler?_diamond_shipped :
    diamond.LoopFree ∧ diamond.postOrder 0 = [3, 1, 3, 2, 0] ∧
      diamond.handler? .empty Graph.root (some "shipped") 0 = some 2 ∧
      (diamond.search .empty Graph.root (some "shipped") 0).consulted = [1, 2] := by
  obtain ⟨hfirst, -, -, hasked⟩ :=
    (handler?_first_in_postOrder diamond_loopFree .empty Graph.root (some "shipped")).2 0
  refine ⟨diamond_loopFree, rfl, ?_, ?_⟩
  · rw [hfirst]
    decide
  · rw [hasked]
    decide

end Registry
end Recipients
