/-
# Registration keeps delegation free of loops

The check that a registration makes looks at the candidate only, never at the determiner that takes it.
What makes this enough is ownership: a determiner can be changed only as long as it was never handed out,
as a candidate or as something to link to, so at that time nothing is linked to it. A policy that nothing
is linked to is on no loop, whatever it is linked to itself, and no other policy notices the change. A
leaf can be linked anew at any time, to anything; that may close loops of links, but never one of
siblings, since no search goes through a leaf.

A session is the registry with the policies handed out so far. `Session.Allows` says which operations
ownership permits, and `Session.Effect` what such an operation does: nothing, or the change of a policy
that was never handed out, or other links of a leaf. The invariants are derived from that.

Key definitions: `Operation`, `Session`, `Session.Allows`, `Session.Effect`, `Session.Sound`,
`Session.Run`, `Session.Spares`.
Key theorems: `Session.Allows.effect`, `Session.Effect.sound`, `Session.Run.sound`,
`Session.Effect.unnoticed`, `Session.Run.not_meetsLoop`, `Session.registration_keeps_wellFounded`.
-/
import Recipients.Proofs.Policy.Ending
import Recipients.Proofs.Policy.Relinking

namespace Recipients

open Relation

/-- What is done with policies: making one, registering siblings, and linking a leaf anew. -/
inductive Operation where
  | create (policy : Policy)
  | add (parent candidate : PolicyId)
  | set (parent : PolicyId) (candidates : List PolicyId)
  | relink (leaf : PolicyId) (links : List PolicyId)

/-- The policies that the operation hands out. -/
def Operation.handsOut : Operation → List PolicyId
  | create policy => policy.links
  | add _ candidate => [candidate]
  | set _ candidates => candidates
  | relink _ links => links

/-- A registry, and the policies that were handed out. -/
structure Session where
  registry : Registry
  handedOut : List PolicyId

namespace Session

open Registry

/-- The session without policies. -/
def start : Session := ⟨.empty, []⟩

/-- The registry after an operation, which may have been refused. -/
def registryAfter (s : Session) : Operation → Registry
  | .create policy => (s.registry.add policy).2
  | .add parent candidate => (s.registry.addSibling parent candidate).1
  | .set parent candidates => (s.registry.setSiblings parent candidates).1
  | .relink leaf links => s.registry.setLinks leaf links

/-- The session after an operation. -/
def after (s : Session) (op : Operation) : Session :=
  ⟨s.registryAfter op, op.handsOut ++ s.handedOut⟩

/-- Only policies that exist can be handed out, a determiner is made without siblings, and it is changed
only if it was never handed out, not even by the same operation. -/
inductive Allows (s : Session) : Operation → Prop
  | createDeterminer {d : Determiner} : d.siblings = [] → Allows s (.create (.determiner d))
  | createLeaf {l : Leaf} : (∀ q ∈ l.links, q < s.registry.size) → Allows s (.create (.leaf l))
  | add {parent d candidate} : s.registry.policy? parent = some (.determiner d) →
      parent ∉ candidate :: s.handedOut → candidate < s.registry.size →
      Allows s (.add parent candidate)
  | set {parent d candidates} : s.registry.policy? parent = some (.determiner d) →
      parent ∉ candidates ++ s.handedOut → (∀ q ∈ candidates, q < s.registry.size) →
      Allows s (.set parent candidates)
  | relink {leaf l links} : s.registry.policy? leaf = some (.leaf l) →
      (∀ q ∈ links, q < s.registry.size) → Allows s (.relink leaf links)

/-- The operation does not link a leaf anew to which a registered policy leads. As long as this holds a
registered policy leads to what it led to when it was registered, so it does not matter when one looks. -/
def Spares (s : Session) : Operation → Prop
  | .relink leaf _ => ∀ p q, s.registry.Delegates p q → ¬ ReflTransGen s.registry.LinksTo q leaf
  | _ => True

/-- The sessions that come about by operations which the rule permits. -/
inductive Run (rule : Session → Operation → Prop) : Session → Prop
  | start : Run rule start
  | step {s op} : Run rule s → rule s op → Run rule (s.after op)

theorem Run.mono {rule rule' : Session → Operation → Prop} {s : Session}
    (h : ∀ s op, rule s op → rule' s op) (hrun : Run rule s) : Run rule' s := by
  induction hrun with
  | start => exact .start
  | step _ hop ih => exact .step ih (h _ _ hop)

/-- What every operation keeps: links go to policies that were handed out, these exist, no determiner
lists a policy twice, and siblings form no loop. -/
structure Sound (s : Session) : Prop where
  linked : ∀ p q, s.registry.LinksTo p q → q ∈ s.handedOut
  known : ∀ p ∈ s.handedOut, p < s.registry.size
  distinct : ∀ p d, s.registry.policy? p = some (.determiner d) → d.siblings.Nodup
  loopFree : s.registry.LoopFree

/-- What an operation does to the registry: nothing; or it puts a policy where one was never handed out,
with links that were there or are handed out, and as siblings policies that were or that lead to no loop;
or it links a leaf anew. -/
inductive Effect (s : Session) : Operation → Registry → Prop
  | nothing {op} : Effect s op s.registry
  | owned {op r' x policy} : s.registry.Puts x policy r' → x ∉ op.handsOut ++ s.handedOut →
      (∀ q ∈ policy.links, s.registry.LinksTo x q ∨ q ∈ op.handsOut) →
      (∀ d, policy = .determiner d → d.siblings.Nodup ∧
        ∀ q ∈ d.siblings, s.registry.Delegates x q ∨ q ∈ op.handsOut ∧ ¬ s.registry.MeetsLoop q) →
      Effect s op r'
  | relinked {r' x l links} : s.registry.policy? x = some (.leaf l) →
      s.registry.Puts x (.leaf { l with links := links }) r' → Effect s (.relink x links) r'

variable {s : Session} {op : Operation} {r' : Registry} {x p q : PolicyId} {policy : Policy}

/-! ### What an operation does -/

theorem Allows.lt_size (h : s.Allows op) : ∀ q ∈ op.handsOut, q < s.registry.size := by
  cases h with
  | createDeterminer hd => simp [Operation.handsOut, Policy.links, hd]
  | createLeaf hl => exact hl
  | add _ _ hlt => simpa [Operation.handsOut] using hlt
  | set _ _ hlt => exact hlt
  | relink _ hlt => exact hlt

/-- A policy that is made has a place that was never handed out. -/
theorem Sound.size_not_mem (h : s.Sound) (hop : s.Allows op) :
    s.registry.size ∉ op.handsOut ++ s.handedOut := by
  intro hmem
  rcases List.mem_append.mp hmem with hmem | hmem
  · exact Nat.lt_irrefl _ (hop.lt_size _ hmem)
  · exact Nat.lt_irrefl _ (h.known _ hmem)

theorem puts_add (r : Registry) (policy : Policy) : r.Puts r.size policy (r.add policy).2 where
  here := by simp [policy?, Registry.add, size]
  elsewhere := fun q hq => by
    unfold policy? Registry.add
    rcases Nat.lt_or_gt_of_ne hq with hlt | hgt
    · exact List.getElem?_append_left hlt
    · have hlen : (r.policies ++ [policy]).length ≤ q := by simpa [size] using hgt
      rw [List.getElem?_eq_none hlen, List.getElem?_eq_none (Nat.le_of_lt hgt)]

/-- A registration that is all or nothing is an effect on the determiner, if the new list is fit. -/
theorem effect_of_allOrNothing {parent : PolicyId} {d : Determiner} {siblings : List PolicyId}
    {outcome : Registry × Option RegistrationError}
    (h : s.registry.AllOrNothing parent d siblings outcome) (hnew : parent ∉ op.handsOut ++ s.handedOut)
    (hfit : outcome.2 = none → siblings.Nodup ∧ ∀ q ∈ siblings,
      s.registry.Delegates parent q ∨ q ∈ op.handsOut ∧ ¬ s.registry.MeetsLoop q) :
    s.Effect op outcome.1 := by
  cases herror : outcome.2 with
  | some e =>
    rw [h.nothing (by simp [herror])]
    exact .nothing
  | none =>
    obtain ⟨hnodup, hsiblings⟩ := hfit herror
    refine .owned (h.all herror) hnew (fun q hq => ?_) fun e he => ?_
    · exact (hsiblings q hq).imp Delegates.linksTo And.left
    · cases he
      exact ⟨hnodup, hsiblings⟩

/-- Every operation that is allowed has one of the effects. -/
theorem Allows.effect (hop : s.Allows op) (h : s.Sound) : s.Effect op (s.registryAfter op) := by
  have hfresh := h.size_not_mem hop
  cases hop with
  | createDeterminer hd =>
    refine .owned (puts_add _ _) hfresh (fun _ => .inr) fun e he => ?_
    cases he
    simp [hd]
  | createLeaf _ => exact .owned (puts_add _ _) hfresh (fun _ => .inr) nofun
  | @add parent d candidate hd hnew _ =>
    refine effect_of_allOrNothing (addSibling_allOrNothing hd candidate) hnew fun htaken => ?_
    obtain ⟨hcandidate, hloop⟩ := (addSibling_eq_none_iff hd).mp htaken
    refine ⟨?_, fun q hq => ?_⟩
    · have hdistinct := h.distinct parent d hd
      simpa [List.nodup_append, hdistinct] using fun a ha (hac : a = candidate) => hcandidate (hac ▸ ha)
    · rcases List.mem_append.mp hq with hq | hq
      · exact .inl ⟨d, hd, hq⟩
      · exact .inr ⟨hq, List.mem_singleton.mp hq ▸ hloop⟩
  | @set parent d candidates hd hnew _ =>
    refine effect_of_allOrNothing (setSiblings_allOrNothing hd candidates) hnew fun htaken => ?_
    obtain ⟨hnodup, hloops⟩ := setSiblings_eq_none_iff.mp htaken
    exact ⟨hnodup, fun q hq => .inr ⟨hq, hloops q hq⟩⟩
  | relink hl _ => exact .relinked hl (puts_setLinks hl _)

/-! ### What every operation keeps -/

theorem sound_start : start.Sound where
  linked := fun p q h => absurd h.lt_size (Nat.not_lt_zero p)
  known := by simp [start]
  distinct := fun p d hd => absurd (lt_size_of_policy? hd) (Nat.not_lt_zero p)
  loopFree := loopFree_of_rank (fun _ => 0) fun p q h => absurd h.lt_size (Nat.not_lt_zero p)

/-- Nothing is linked to a policy that was never handed out, so nothing else leads to it. -/
theorem Sound.not_reaches (h : s.Sound) (hx : x ∉ op.handsOut ++ s.handedOut) (hqx : q ≠ x) :
    ¬ ReflTransGen s.registry.LinksTo q x := by
  have hnone : ∀ a, ¬ s.registry.LinksTo a x :=
    fun a ha => hx (List.mem_append_right _ (h.linked a x ha))
  exact fun hreach => hqx (eq_of_reflTransGen hnone hreach)

/-- After a change at one place, links go to policies that were handed out or are. -/
theorem Sound.linked_of_puts (h : s.Sound) (hputs : s.registry.Puts x policy r')
    (hlinks : ∀ q ∈ policy.links, s.registry.LinksTo x q ∨ q ∈ op.handsOut) (hpq : r'.LinksTo p q) :
    q ∈ op.handsOut ++ s.handedOut := by
  rw [List.mem_append]
  by_cases hpx : p = x
  · subst hpx
    exact (hlinks q (hputs.linksTo_here.mp hpq)).symm.imp_right (h.linked _ q)
  · exact .inr (h.linked p q ((hputs.linksTo_elsewhere hpx q).mp hpq))

/-- **A step keeps the invariant**, whichever effect it has. -/
theorem Effect.sound (he : s.Effect op r') (h : s.Sound) (hlt : ∀ q ∈ op.handsOut, q < s.registry.size) :
    Sound ⟨r', op.handsOut ++ s.handedOut⟩ := by
  have hknown : ∀ q ∈ op.handsOut ++ s.handedOut, q < s.registry.size := fun q hq =>
    (List.mem_append.mp hq).elim (hlt q) (h.known q)
  cases he with
  | nothing =>
    exact ⟨fun p q hpq => List.mem_append_right _ (h.linked p q hpq), hknown, h.distinct, h.loopFree⟩
  | @owned _ _ x policy hputs hx hlinks hdeterminer =>
    have hlinked : ∀ p q, r'.LinksTo p q → q ∈ op.handsOut ++ s.handedOut :=
      fun p q => h.linked_of_puts hputs hlinks
    refine ⟨hlinked, fun q hq => hputs.lt_size (hknown q hq), fun p d hd => ?_, ?_⟩
    · by_cases hpx : p = x
      · rw [hpx, hputs.here] at hd
        exact (hdeterminer d (Option.some.inj hd)).1
      · exact h.distinct p d (hputs.elsewhere p hpx ▸ hd)
    · refine hputs.loopFree h.loopFree (fun p hp => hx ?_) fun p hp => hx ?_
      · exact List.mem_append_right _ (h.linked p x hp.linksTo)
      · exact hlinked p x hp.linksTo
  | @relinked _ x l links hl hputs =>
    have hleaf : ∀ d, r'.policy? x ≠ some (.determiner d) := by
      rw [hputs.here]
      exact nofun
    refine ⟨fun p q => h.linked_of_puts hputs fun _ => .inr, fun q hq => hputs.lt_size (hknown q hq),
      fun p d hd => ?_, fun p hp => ?_⟩
    · have hpx : p ≠ x := fun hpx => hleaf d (hpx ▸ hd)
      exact h.distinct p d (hputs.elsewhere p hpx ▸ hd)
    · -- a leaf lists nothing, so whatever delegates did so before
      refine h.loopFree p (TransGen.mono (fun a b hab => ?_) p p hp)
      obtain ⟨d, hd, hb⟩ := hab
      have hax : a ≠ x := fun hax => hleaf d (hax ▸ hd)
      exact hputs.delegates_elsewhere hax b ⟨d, hd, hb⟩

theorem Run.sound (h : Run Allows s) : s.Sound := by
  induction h with
  | start => exact sound_start
  | step _ hop ih => exact (hop.effect ih).sound ih hop.lt_size

/-! ### Where no leaf is relinked under a registered policy -/

/-- A registered policy does not notice an operation that spares it: it leads to what it led to before,
and meets no loop that it did not meet. -/
theorem Effect.unnoticed (he : s.Effect op r') (h : s.Sound) (hspares : s.Spares op)
    (hpq : s.registry.Delegates p q) :
    (∀ t, ReflTransGen r'.LinksTo q t ↔ ReflTransGen s.registry.LinksTo q t) ∧
      (r'.MeetsLoop q → s.registry.MeetsLoop q) := by
  cases he with
  | nothing => exact ⟨fun _ => .rfl, id⟩
  | @owned _ _ x _ hputs hx _ _ =>
    have hqx : q ≠ x := fun hqx => hx (List.mem_append_right _ (hqx ▸ h.linked p q hpq.linksTo))
    have hreach := h.not_reaches hx hqx
    exact ⟨fun _ => hputs.reflTransGen_iff hreach, hputs.meetsLoop hreach⟩
  | relinked _ hputs =>
    have hreach := hspares p q hpq
    exact ⟨fun _ => hputs.reflTransGen_iff hreach, hputs.meetsLoop hreach⟩

/-- **A step that spares registered policies brings no determiner to a loop**: its siblings were listed
before and have not noticed the step, or they were found to lead to no loop. -/
theorem Effect.not_meetsLoop (he : s.Effect op r') (h : s.Sound) (hspares : s.Spares op)
    (hclear : ∀ p d, s.registry.policy? p = some (.determiner d) → ¬ s.registry.MeetsLoop p)
    {d : Determiner} (hd : r'.policy? p = some (.determiner d)) : ¬ r'.MeetsLoop p := by
  have hlisted : ∀ {p q}, s.registry.Delegates p q → ¬ r'.MeetsLoop q := by
    intro p q hpq hloop
    have hold := (he.unnoticed h hspares hpq).2 hloop
    have ⟨d, hd, _⟩ := hpq
    exact hclear p d hd (.of_link hpq.linksTo hold)
  intro hloop
  obtain ⟨q, hpq, hq⟩ := hloop.exists_link
  have hsibling : q ∈ d.siblings := links_determiner hd ▸ hpq
  cases he with
  | nothing => exact hclear p d hd hloop
  | @owned _ _ x policy hputs hx _ hdeterminer =>
    by_cases hpx : p = x
    · subst hpx
      rw [hputs.here] at hd
      rcases (hdeterminer d (Option.some.inj hd)).2 q hsibling with hold | ⟨hout, hnoloop⟩
      · exact hlisted hold hq
      · have hqx : q ≠ p := fun hqx => hx (List.mem_append_left _ (hqx ▸ hout))
        exact hnoloop (hputs.meetsLoop (h.not_reaches hx hqx) hq)
    · exact hlisted ⟨d, hputs.elsewhere p hpx ▸ hd, hsibling⟩ hq
  | @relinked _ x l links _ hputs =>
    have hpx : p ≠ x := by
      rintro rfl
      rw [hputs.here] at hd
      cases hd
    exact hlisted ⟨d, hputs.elsewhere p hpx ▸ hd, hsibling⟩ hq

theorem Run.not_meetsLoop (h : Run (fun s op => s.Allows op ∧ s.Spares op) s) :
    ∀ p d, s.registry.policy? p = some (.determiner d) → ¬ s.registry.MeetsLoop p := by
  induction h with
  | start => exact fun p d hd => absurd (lt_size_of_policy? hd) (Nat.not_lt_zero p)
  | step hrun hop ih =>
    have hsound := (hrun.mono fun _ _ => And.left).sound
    exact fun p d hd => (hop.1.effect hsound).not_meetsLoop hsound hop.2 ih hd

/-- **Registration keeps delegation well-founded.** In every session that ownership allows, no
determiner lists a policy twice, the step from a determiner to a sibling is well-founded, and every
search and every question from a determiner ends, whatever leaves are linked to. If no leaf to which a
registered policy led was linked anew, no determiner leads to a loop of links either. -/
theorem registration_keeps_wellFounded (h : Run Allows s) :
    (∀ p d, s.registry.policy? p = some (.determiner d) → d.siblings.Nodup) ∧
    (WellFounded (fun q p => s.registry.Delegates p q) ∧
      ∀ p d, s.registry.policy? p = some (.determiner d) → ∀ g object event raw,
        s.registry.Finds g object event [p] (s.registry.handler? g object event p) ∧
        s.registry.Receives g object event raw p (s.registry.receivers g object event p raw)) ∧
    (Run (fun s op => s.Allows op ∧ s.Spares op) s →
      ∀ p d, s.registry.policy? p = some (.determiner d) → ¬ s.registry.MeetsLoop p) := by
  have hsound := h.sound
  refine ⟨hsound.distinct, ⟨hsound.loopFree.wellFounded, fun p d hd g object event raw => ?_⟩,
    Run.not_meetsLoop⟩
  exact ⟨hsound.loopFree.finds_handler? g object event p,
    hsound.loopFree.receives_receivers g object event raw hd⟩

/-- A leaf without links, which takes no pair. -/
def idle (name : String) (links : List PolicyId) : Policy :=
  .leaf ⟨name, fun _ _ _ => false, fun _ _ _ _ => .empty, links⟩

/-- Two leaves linked in a row, of which a determiner takes the second. -/
def row : Session :=
  (((start.after (.create (idle "left" []))).after (.create (idle "right" [0]))).after
    (.create (.determiner (.catchAll 0)))).after (.add 2 1)

theorem row_run : Run (fun s op => s.Allows op ∧ s.Spares op) row :=
  .step (.step (.step (.step .start ⟨.createLeaf (by decide), trivial⟩)
    ⟨.createLeaf (by decide), trivial⟩) ⟨.createDeterminer rfl, trivial⟩)
    ⟨.add rfl (by decide) (by decide), trivial⟩

/-- In `row` no loop is met. Linking the first leaf to the second closes one under the determiner, and
still every search from it ends. -/
theorem registration_keeps_row :
    Run (fun s op => s.Allows op ∧ s.Spares op) row ∧ ¬ row.registry.MeetsLoop 2 ∧
      Run Allows (row.after (.relink 0 [1])) ∧ (row.after (.relink 0 [1])).registry.MeetsLoop 2 ∧
      WellFounded (fun q p => (row.after (.relink 0 [1])).registry.Delegates p q) ∧
      (row.after (.relink 0 [1])).registry.Finds .empty Graph.root none [2] (some 2) := by
  have hrow : Run Allows row := row_run.mono fun _ _ => And.left
  have hcircle : Run Allows (row.after (.relink 0 [1])) := .step hrow (.relink rfl (by decide))
  obtain ⟨-, ⟨hfounded, hends⟩, -⟩ := registration_keeps_wellFounded hcircle
  refine ⟨row_run, (registration_keeps_wellFounded hrow).2.2 row_run 2 _ rfl, hcircle,
    hasCycle_iff_meetsLoop.mp (by decide), hfounded, ?_⟩
  have hhandler : (row.after (.relink 0 [1])).registry.handler? .empty Graph.root none 2 = some 2 := by
    decide
  exact hhandler ▸ (hends 2 _ rfl .empty Graph.root none .empty).1

end Session
end Recipients
