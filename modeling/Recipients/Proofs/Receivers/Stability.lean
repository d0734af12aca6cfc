/-
# Resolved receivers are stable

A literal stands for itself, and its text is the literal unless it is falsy. So a configuration of
literals is merged without collisions: different addresses have different texts, but for the falsy ones,
whose entries are dropped together. What is left of it are the entries with a truthy address and a truthy
name, in order.

The addresses and names of receivers are texts of values, and no text is falsy. So as long as none of
them happens to have the form of a path, receivers are a configuration of which all is left.

Key theorems: `textAt_of_literal`, `entries_collectReceivers`, `entries_resolveReceivers_of_literals`,
`resolvedPairsCached_of_literals`, `receivers_resolve_to_themselves`.
-/
import Recipients.Proofs.Path.Segments
import Recipients.Proofs.Receivers.Merging

namespace Recipients

/-- No address and no name has the form of a path. -/
def Literals (raw : ReceiverConfig) : Prop :=
  ∀ e ∈ raw.entries, PathExpression.isPath e.1 = false ∧ PathExpression.isPath e.2 = false

instance (raw : ReceiverConfig) : Decidable (Literals raw) :=
  inferInstanceAs (Decidable (∀ e ∈ raw.entries, _))

/-! ### Literals -/

theorem parse?_of_literal {s : String} (h : PathExpression.isPath s = false) :
    PathExpression.parse? s = none := by
  rw [← PathExpression.isSome_parse?] at h
  simpa using h

section

variable (g : Graph) (chain : FieldGetterChain) (object : ObjectRef)

/-- The text of a literal is the literal, unless that is falsy. -/
theorem textAt_of_literal {s : String} (h : PathExpression.isPath s = false) :
    textAt g chain object s = truthyText s := by
  unfold textAt evaluate
  rw [parse?_of_literal h]
  rfl

/-- Evaluating a literal remembers nothing. -/
theorem evaluateCached_of_literal {s : String} (h : PathExpression.isPath s = false) (c : Caches) :
    evaluateCached g chain object s c = (⟨some (.ofText s), []⟩, c) := by
  unfold evaluateCached
  rw [parse?_of_literal h]

theorem resolvedPairsCached_of_literals : ∀ (es : List (String × String)) (c : Caches),
    (∀ e ∈ es, PathExpression.isPath e.1 = false ∧ PathExpression.isPath e.2 = false) →
    (resolvedPairsCached g chain object es c).2 = c
  | [], _, _ => rfl
  | e :: es, c, h => by
    obtain ⟨haddress, hname⟩ := h e List.mem_cons_self
    have hrest := resolvedPairsCached_of_literals es c fun d hd => h d (List.mem_cons_of_mem e hd)
    unfold resolvedPairsCached
    simp only [evaluateCached_of_literal g chain object haddress,
      evaluateCached_of_literal g chain object hname]
    exact hrest

end

/-! ### Configurations of literals -/

/-- Pairs whose addresses differ where they are not empty do not collide. -/
theorem entries_collectReceivers {pairs : List (String × Option String)}
    (h : ((pairs.filter fun e => e.1 != "").map Prod.fst).Nodup) :
    (collectReceivers pairs).entries =
      pairs.filterMap fun e => (if e.1 = "" then none else e.2).map (e.1, ·) := by
  have hsift : ∀ es : List (String × Option String),
      es.filterMap (fun e => (if e.1 = "" then none else e.2).map (e.1, ·)) =
        (es.filter fun e => e.1 != "").filterMap
          fun e => (if e.1 = "" then none else e.2).map (e.1, ·) := by
    intro es
    rw [List.filterMap_filter]
    refine List.filterMap_congr fun e _ => ?_
    by_cases he : e.1 = ""
    · simp [he]
    · simp [he]
  have hmerged : (OrderedMap.ofList pairs).entries.filter (fun e => e.1 != "") =
      pairs.filter fun e => e.1 != "" := by
    rw [OrderedMap.filter_entries_ofList (fun k => k != "")]
    exact OrderedMap.entries_ofList h
  show (OrderedMap.ofList pairs).entries.filterMap _ = _
  rw [hsift, hmerged, ← hsift]

/-- Of a configuration of literals the entries with a truthy address and a truthy name are left. -/
theorem entries_resolveReceivers_of_literals (g : Graph) (chain : FieldGetterChain)
    (object : ObjectRef) {raw : ReceiverConfig} (h : Literals raw) :
    (resolveReceivers g chain object raw).entries =
      raw.entries.filter fun e => Truthy e.1 ∧ Truthy e.2 := by
  have hpairs : resolvedPairs (textAt g chain object) raw =
      raw.entries.map fun e => ((truthyText e.1).getD "", truthyText e.2) := by
    refine List.map_congr_left fun e he => ?_
    obtain ⟨haddress, hname⟩ := h e he
    rw [textAt_of_literal g chain object haddress, textAt_of_literal g chain object hname]
  have hdistinct : (((resolvedPairs (textAt g chain object) raw).filter
      fun e => e.1 != "").map Prod.fst).Nodup := by
    rw [hpairs]
    refine (raw.distinct.sublist ?_)
    generalize raw.entries = es
    induction es with
    | nil => exact .slnil
    | cons e es ih =>
      by_cases ht : Truthy e.1
      · simpa [truthyText_eq, ht, ht.1] using ih.cons_cons e.1
      · simpa [truthyText_eq, ht] using ih.cons e.1
  unfold resolveReceivers
  rw [entries_collectReceivers hdistinct, hpairs, List.filterMap_map, ← List.filterMap_eq_filter]
  refine List.filterMap_congr fun e _ => ?_
  by_cases haddress : Truthy e.1
  · by_cases hname : Truthy e.2
    · simp [truthyText_eq, haddress, hname, haddress.1, Option.guard]
    · simp [truthyText_eq, hname, Option.guard]
  · simp [truthyText_eq, haddress, Option.guard]

/-! ### Receivers as a configuration -/

/-- **Resolved receivers are stable.** Resolve any configuration. If no address and no name of the
receivers has the form of a path, resolving the receivers as a configuration, in any graph, at any object
and with any getters, gives the same receivers in the same order, and remembers nothing. And of a
configuration that has literals only, the entries are left whose address and name are neither empty nor
"0", in order, whatever it is resolved at. -/
theorem receivers_resolve_to_themselves (g : Graph) (chain : FieldGetterChain) (object : ObjectRef)
    (raw : ReceiverConfig) :
    (Literals (resolveReceivers g chain object raw) →
      ∀ (g' : Graph) (chain' : FieldGetterChain) (object' : ObjectRef),
        resolveReceivers g' chain' object' (resolveReceivers g chain object raw) =
          resolveReceivers g chain object raw ∧
        ∀ c, resolveReceiversCached g' chain' object' (resolveReceivers g chain object raw) c =
          (resolveReceivers g chain object raw, c)) ∧
    (Literals raw →
      (resolveReceivers g chain object raw).entries =
        raw.entries.filter fun e => (e.1 ≠ "" ∧ e.1 ≠ "0") ∧ e.2 ≠ "" ∧ e.2 ≠ "0") := by
  refine ⟨fun hliterals g' chain' object' => ?_, entries_resolveReceivers_of_literals g chain object⟩
  have htruthy : ∀ e ∈ (resolveReceivers g chain object raw).entries, Truthy e.1 ∧ Truthy e.2 :=
    (merges_collectReceivers _ raw).truthy truthy_of_textAt
  have hsame : resolveReceivers g' chain' object' (resolveReceivers g chain object raw) =
      resolveReceivers g chain object raw := by
    apply OrderedMap.ext_entries
    rw [entries_resolveReceivers_of_literals g' chain' object' hliterals]
    exact List.filter_eq_self.mpr fun e he => decide_eq_true (htruthy e he)
  refine ⟨hsame, fun c => Prod.ext ?_ ?_⟩
  · rw [resolveReceiversCached_fst, hsame]
  · exact resolvedPairsCached_of_literals g' chain' object' _ c hliterals

/-- A customer with an address and a name. -/
def loyalCustomer : Graph :=
  .ofDocument (.ofJson (.obj [("email", .str "foo@example.com"), ("full_name", .str "Foo Barz")]))

/-- The customer twice, once by path and once by address, and entries that come to nothing. -/
def mailingList : ReceiverConfig :=
  .ofList [("\x7b\x7bemail\x7d\x7d", "\x7b\x7bfull_name\x7d\x7d"), ("0", "Zero"), ("", "Nobody"),
    ("ops@example.com", "0"), ("team@example.com", "Team"), ("foo@example.com", "Foo")]

/-- The customer keeps the place of the path and has the name of the address; what is resolved stays, in
the empty graph and without getters too. -/
theorem mailingList_resolves_to_itself :
    (resolveReceivers loyalCustomer (.standard 0) Graph.root mailingList).entries =
      [("foo@example.com", "Foo"), ("team@example.com", "Team")] ∧
    resolveReceivers .empty .empty Graph.root
        (resolveReceivers loyalCustomer (.standard 0) Graph.root mailingList) =
      resolveReceivers loyalCustomer (.standard 0) Graph.root mailingList ∧
    (resolveReceivers .empty .empty Graph.root
        (.ofList [("0", "Zero"), ("b@example.com", "B"), ("", "Nobody"), ("a@example.com", "")])).entries =
      [("b@example.com", "B")] := by
  have hresolved : (resolveReceivers loyalCustomer (.standard 0) Graph.root mailingList).entries =
      [("foo@example.com", "Foo"), ("team@example.com", "Team")] := by decide +kernel
  have hstable := receivers_resolve_to_themselves loyalCustomer (.standard 0) Graph.root mailingList
  have hliteral := receivers_resolve_to_themselves .empty .empty Graph.root
    (.ofList [("0", "Zero"), ("b@example.com", "B"), ("", "Nobody"), ("a@example.com", "")])
  refine ⟨hresolved, (hstable.1 (by decide +kernel) .empty .empty Graph.root).1, ?_⟩
  rw [hliteral.2 (by decide +kernel)]
  decide +kernel

/-- A name that has the form of a path is one when it is resolved again. -/
example :
    let g := Graph.ofDocument (.ofJson (.obj
      [("email", .str "foo@example.com"), ("nick", .str "\x7b\x7bemail\x7d\x7d")]))
    let once := resolveReceivers g (.standard 0) Graph.root
      (.ofList [("a@example.com", "\x7b\x7bnick\x7d\x7d")])
    once.entries = [("a@example.com", "\x7b\x7bemail\x7d\x7d")] ∧
      (resolveReceivers g (.standard 0) Graph.root once).entries =
        [("a@example.com", "foo@example.com")] := by
  decide +kernel

end Recipients
