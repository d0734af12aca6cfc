/-
# A getter matters only where it answers

A getter put into a chain is a bystander of a walk if it passes on every pair about which the walk asks
the chain. Which pairs these are depends on what was found before, so they are those of the walk without
the getter; but as long as the getter passes, the walk with it finds the same value at each step and so
comes to the same next question. Hence the two walks are one, to the last step, and the getters of the
chain do not notice the bystander.

Key definitions: `FieldGetterChain.putAt`, `FieldGetter.StandsBy`.
Key theorems: `walk_putAt`, `evaluate_putAt`, `callsToOthers_callsOf`, `unaffected_by_bystander`.
-/
import Recipients.Proofs.Getter.Consulting
import Recipients.Proofs.Path.Remembered

namespace Recipients

/-- The chain with a getter put at a position; behind the last entry if there are fewer. -/
def FieldGetterChain.putAt (chain : FieldGetterChain) (position : Nat) (f : FieldGetter) :
    FieldGetterChain :=
  ⟨chain.getters.take position ++ f :: chain.getters.drop position⟩

/-- The getter passes on every pair about which the evaluation of the text asks the chain. -/
def FieldGetter.StandsBy (f : FieldGetter) (g : Graph) (chain : FieldGetterChain) (object : ObjectRef)
    (raw : String) : Prop :=
  ∀ q ∈ (evaluate g chain object raw).asked, f.Passes g q.1 q.2

variable {g : Graph} {f : FieldGetter} {object : ObjectRef} (chain : FieldGetterChain) (position : Nat)

/-! ### One question -/

/-- Where the getter passes, the chain finds the same and makes the same calls to others. -/
theorem consult_putAt {accessor : String} (h : f.Passes g object accessor) :
    (chain.putAt position f).retrieve g object accessor = chain.retrieve g object accessor ∧
      callsToOthers f.identity ((chain.putAt position f).consult g object accessor).2 =
        callsToOthers f.identity (chain.consult g object accessor).2 := by
  have hinsert := FieldGetterChain.consultAll_insert (chain.getters.drop position) h
    (chain.getters.take position)
  rw [List.take_append_drop] at hinsert
  exact hinsert

/-! ### All questions of a walk -/

/-- One step with the getter is one step without it, so the walks go on from the same value. -/
theorem walk_putAt : ∀ (accessors : List String) (v : Option FieldValue),
    (∀ q ∈ (walk g chain v accessors).asked, f.Passes g q.1 q.2) →
    walk g (chain.putAt position f) v accessors = walk g chain v accessors
  | [], v, _ => by rw [walk_nil, walk_nil]
  | _ :: _, none, _ => rfl
  | _ :: _, some (.scalar _), _ => rfl
  | _ :: _, some (.deferred _), _ => rfl
  | accessor :: rest, some (.object o), h => by
    have hhere : f.Passes g o accessor := h (o, accessor) List.mem_cons_self
    have hvalue := (consult_putAt chain position hhere).1
    have hrest := walk_putAt rest (chain.retrieve g o accessor) fun q hq =>
      h q (List.mem_cons_of_mem _ hq)
    simp only [walk, hvalue, hrest]

theorem evaluate_putAt {raw : String} (h : f.StandsBy g chain object raw) :
    evaluate g (chain.putAt position f) object raw = evaluate g chain object raw := by
  unfold FieldGetter.StandsBy evaluate at h
  unfold evaluate
  cases hpath : PathExpression.parse? raw with
  | none => rfl
  | some path =>
    rw [hpath] at h
    exact walk_putAt chain position path.accessors _ h

/-- The others are called as before about all pairs on which the getter passes. -/
theorem callsToOthers_callsOf {asked : List (ObjectRef × String)}
    (h : ∀ q ∈ asked, f.Passes g q.1 q.2) :
    callsToOthers f.identity (callsOf g (chain.putAt position f) asked) =
      callsToOthers f.identity (callsOf g chain asked) := by
  induction asked with
  | nil => rfl
  | cons q asked ih =>
    have hhere := (consult_putAt chain position (h q List.mem_cons_self)).2
    have hrest := ih fun p hp => h p (List.mem_cons_of_mem q hp)
    simp only [callsToOthers, callsOf] at hhere hrest ⊢
    rw [List.flatMap_cons, List.flatMap_cons, List.filter_append, List.filter_append, hhere, hrest]

/-- A chain without entries of the identity calls only others. -/
theorem callsToOthers_of_forall_ne {chain : FieldGetterChain} {identity : Nat}
    (hnew : ∀ e ∈ chain.getters, e.identity ≠ identity) (asked : List (ObjectRef × String)) :
    callsToOthers identity (callsOf g chain asked) = callsOf g chain asked := by
  refine List.filter_eq_self.mpr fun call hcall => ?_
  obtain ⟨q, -, hq⟩ := List.mem_flatMap.mp hcall
  obtain ⟨e, he, hcalled⟩ := FieldGetterChain.exists_of_mem_consultAll hq
  rw [bne_iff_ne, hcalled]
  exact hnew e he

/-! ### Configurations -/

/-- With texts that stay the same a configuration comes to the same receivers. -/
theorem resolveReceivers_congr {chain chain' : FieldGetterChain} {raw : ReceiverConfig}
    (h : ∀ e ∈ raw.entries, textAt g chain object e.1 = textAt g chain' object e.1 ∧
      textAt g chain object e.2 = textAt g chain' object e.2) :
    resolveReceivers g chain object raw = resolveReceivers g chain' object raw := by
  unfold resolveReceivers resolvedPairs
  rw [List.map_congr_left fun e he => by rw [(h e he).1, (h e he).2]]

theorem textAt_putAt {raw : String} (h : f.StandsBy g chain object raw) :
    textAt g (chain.putAt position f) object raw = textAt g chain object raw := by
  rw [textAt, evaluate_putAt chain position h, textAt]

/-- **A getter matters only where it answers.** Put a getter anywhere into a chain. If it stands by while
a text is evaluated, the evaluation with it ends with the same value and asks about the same pairs in the
same order, whatever is remembered in either case, and the getters of other identities receive the same
calls; if the identity is new to the chain these are all calls that there were without it. So if it
stands by for every address and every name of a configuration, the receivers are the same. -/
theorem unaffected_by_bystander (g : Graph) (chain : FieldGetterChain) (position : Nat)
    (f : FieldGetter) (object : ObjectRef) :
    (∀ raw, f.StandsBy g chain object raw →
      evaluate g (chain.putAt position f) object raw = evaluate g chain object raw ∧
      (∀ c c', (evaluateCached g (chain.putAt position f) object raw c).1 =
        (evaluateCached g chain object raw c').1) ∧
      callsToOthers f.identity (callsOf g (chain.putAt position f)
          (evaluate g (chain.putAt position f) object raw).asked) =
        callsToOthers f.identity (callsOf g chain (evaluate g chain object raw).asked) ∧
      ((∀ e ∈ chain.getters, e.identity ≠ f.identity) →
        callsToOthers f.identity (callsOf g (chain.putAt position f)
            (evaluate g (chain.putAt position f) object raw).asked) =
          callsOf g chain (evaluate g chain object raw).asked)) ∧
    ∀ raw : ReceiverConfig,
      (∀ e ∈ raw.entries, f.StandsBy g chain object e.1 ∧ f.StandsBy g chain object e.2) →
      resolveReceivers g (chain.putAt position f) object raw = resolveReceivers g chain object raw ∧
      ∀ c c', (resolveReceiversCached g (chain.putAt position f) object raw c).1 =
        (resolveReceiversCached g chain object raw c').1 := by
  refine ⟨fun raw h => ?_, fun raw h => ?_⟩
  · have hwalk : evaluate g (chain.putAt position f) object raw = evaluate g chain object raw :=
      evaluate_putAt chain position h
    have hothers := callsToOthers_callsOf chain position h
    refine ⟨hwalk, fun c c' => ?_, ?_, fun hnew => ?_⟩
    · rw [evaluateCached_fst, evaluateCached_fst, hwalk]
    · rw [hwalk, hothers]
    · rw [hwalk, hothers, callsToOthers_of_forall_ne hnew]
  · have hreceivers : resolveReceivers g (chain.putAt position f) object raw =
        resolveReceivers g chain object raw :=
      resolveReceivers_congr fun e he =>
        ⟨textAt_putAt chain position (h e he).1, textAt_putAt chain position (h e he).2⟩
    refine ⟨hreceivers, fun c c' => ?_⟩
    rw [resolveReceiversCached_fst, resolveReceiversCached_fst, hreceivers]

/-- An order with a customer who has an address. -/
def customerOrder : Graph :=
  .ofDocument (.ofJson (.obj [("customer", .obj [("email", .str "c@example.com")])]))

/-- The path from the order to the address. -/
def addressPath : String := "\x7b\x7bcustomer.email\x7d\x7d"

/-- Knows a telephone number for every object; it looks for an address too and never finds one. -/
def phoneBook : FieldGetter where
  identity := 1
  name := "phones"
  rule := .custom (fun _ _ accessor => accessor = "getPhone" ∨ accessor = "getEmail")
    fun _ _ accessor => if accessor = "getPhone" then some (.ofText "555") else none

/-- On the way to the address the phone book declines the first question and finds nothing for the
second, so the address is the same with it in front, and the stock getter is asked the same. -/
theorem phoneBook_unaffecting :
    phoneBook.StandsBy customerOrder (.standard 0) Graph.root addressPath ∧
    textAt customerOrder ((FieldGetterChain.standard 0).putAt 0 phoneBook) Graph.root addressPath =
      some "c@example.com" ∧
    callsToOthers 1 (callsOf customerOrder ((FieldGetterChain.standard 0).putAt 0 phoneBook)
        (evaluate customerOrder ((FieldGetterChain.standard 0).putAt 0 phoneBook) Graph.root
          addressPath).asked) =
      callsOf customerOrder (.standard 0)
        (evaluate customerOrder (.standard 0) Graph.root addressPath).asked := by
  have hasked : (evaluate customerOrder (.standard 0) Graph.root addressPath).asked =
      [(.node 0 "", "getCustomer"), (.node 0 "/customer", "getEmail")] := by decide +kernel
  have htext : textAt customerOrder (.standard 0) Graph.root addressPath = some "c@example.com" := by
    decide +kernel
  have hstands : phoneBook.StandsBy customerOrder (.standard 0) Graph.root addressPath := by
    intro q hq
    rw [hasked] at hq
    rcases List.mem_pair.mp hq with rfl | rfl
    · exact .inl (by decide)
    · exact .inr (by decide)
  have hboth := unaffected_by_bystander customerOrder (.standard 0) 0 phoneBook Graph.root
  obtain ⟨hwalk, -, -, hcalls⟩ := hboth.1 addressPath hstands
  refine ⟨hstands, ?_, hcalls (by decide)⟩
  rw [textAt, hwalk]
  exact htext

end Recipients
