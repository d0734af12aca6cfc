/-
# Loads are bounded, and exact within the bound

A deferred value is loaded, what the load finds is loaded if it is deferred again, and so on. The values
on this way are told from the web of deferred values alone, whether it is finite, goes round in a circle
or never comes back to the same place. Loading with a bound goes along them and ends in one of three
ways: at the first value that is concrete, at the first load that finds nothing, or at the bound, where a
value that is still deferred is given up. It makes as many loads as it went along, and in the second case
the one in vain.

So what stock getters find is never deferred, and a walk with only stock getters never holds a deferred
value. It ends, too: it asks at most once for each segment, each question makes at most two calls of each
getter, and each getter makes at most eight loads.

Key definitions: `loadedAfter`, `Settles`, `FieldGetter.loads`, `FieldGetterChain.loadsAll`, `loadsOf`.
Key theorems: `follow_add`, `settles_follow`, `follow_eq_iff`, `concrete_dereference`,
`concrete_walk_of_stock`, `length_callsOf_le`, `loadsOf_le`, `loading_exact_and_bounded`.
-/
import Recipients.Proofs.Getter.Consulting
import Recipients.Proofs.Path.Composition

namespace Recipients

/-! ### The way through a web -/

section Web

variable {α : Type} {next : α → Option (Option α)} {a b : α}

/-- The value after a number of loads, if each of them was called for and found something. -/
def loadedAfter (next : α → Option (Option α)) (a : α) : Nat → Option α
  | 0 => some a
  | n + 1 => (loadedAfter next a n).bind fun b => (next b).join

/-- How loading from `a` ends with a bound on the loads, and how many it makes: at a value that stands for
itself, at a load that finds nothing, or, if the value after `bound` loads is still to be loaded, at the
bound. -/
inductive Settles (next : α → Option (Option α)) (bound : Nat) (a : α) : Option α × Nat → Prop
  | concrete {n : Nat} {b : α} : n ≤ bound → loadedAfter next a n = some b → next b = none →
    Settles next bound a (some b, n)
  | absent {n : Nat} {b : α} : n < bound → loadedAfter next a n = some b → next b = some none →
    Settles next bound a (none, n + 1)
  | givenUp {b : α} : loadedAfter next a bound = some b → next b ≠ none →
    Settles next bound a (none, bound)

/-- Before a value that is reached every value was deferred, and its load found something. -/
theorem next_of_loadedAfter {m : Nat} : ∀ {n : Nat} {b : α}, loadedAfter next a n = some b → m < n →
    ∃ c d, loadedAfter next a m = some c ∧ next c = some (some d)
  | 0, _, _, hm => by omega
  | n + 1, b, h, hm => by
    obtain ⟨c, hc, hload⟩ := Option.bind_eq_some_iff.mp h
    by_cases hlast : m = n
    · subst hlast
      exact ⟨c, b, hc, Option.join_eq_some_iff.mp hload⟩
    · exact next_of_loadedAfter hc (by omega)

/-- The first load first. -/
theorem loadedAfter_succ (h : next a = some (some b)) : ∀ n : Nat,
    loadedAfter next a (n + 1) = loadedAfter next b n
  | 0 => by simp [loadedAfter, h]
  | n + 1 => by
    have ih := loadedAfter_succ h n
    unfold loadedAfter
    rw [ih]

/-- Loading goes along the way: after some of the loads it goes on from the value there. -/
theorem follow_add (k : Nat) : ∀ (n : Nat) {a : α}, loadedAfter next a n = some b →
    follow next (n + k) a = ((follow next k b).1, (follow next k b).2 + n)
  | 0, a, h => by
    simp only [loadedAfter, Option.some.injEq] at h
    simp [h]
  | n + 1, a, h => by
    obtain ⟨_, c, ha, hnext⟩ := next_of_loadedAfter h (Nat.zero_lt_succ n)
    cases ha
    rw [loadedAfter_succ hnext] at h
    have ih := follow_add k n h
    have hbound : n + 1 + k = (n + k) + 1 := by omega
    rw [hbound, follow_succ_of_load hnext, ih, Nat.add_assoc]

/-- One load more at the start leaves the end as it is. -/
theorem Settles.step {bound : Nat} {r : Option α × Nat} (hnext : next a = some (some b))
    (h : Settles next bound b r) : Settles next (bound + 1) a (r.1, r.2 + 1) := by
  cases h with
  | concrete hn hb hend => exact .concrete (by omega) ((loadedAfter_succ hnext _).trans hb) hend
  | absent hn hb hend => exact .absent (by omega) ((loadedAfter_succ hnext _).trans hb) hend
  | givenUp hb hend => exact .givenUp ((loadedAfter_succ hnext _).trans hb) hend

/-- Loading ends in one of the three ways. -/
theorem settles_follow (next : α → Option (Option α)) : ∀ (bound : Nat) (a : α),
    Settles next bound a (follow next bound a)
  | bound, a => by
    cases hnext : next a with
    | none =>
      rw [follow_of_next_eq_none hnext]
      exact .concrete (Nat.zero_le bound) rfl hnext
    | some found =>
      cases bound with
      | zero =>
        have hload : next a ≠ none := by simp [hnext]
        rw [follow_zero hload]
        exact .givenUp rfl hload
      | succ bound =>
        cases found with
        | none =>
          rw [follow_succ_of_absent hnext]
          exact .absent (Nat.zero_lt_succ bound) rfl hnext
        | some b =>
          rw [follow_succ_of_load hnext]
          exact (settles_follow next bound b).step hnext

/-- No two of the three ways are open at once, so loading is told from the way alone. -/
theorem follow_eq_iff {bound : Nat} {r : Option α × Nat} :
    follow next bound a = r ↔ Settles next bound a r := by
  constructor
  · rintro rfl
    exact settles_follow next bound a
  · intro h
    cases h with
    | @concrete n b hn hb hend =>
      have hadd := follow_add (bound - n) n hb
      rw [Nat.add_sub_cancel' hn, follow_of_next_eq_none hend] at hadd
      simpa using hadd
    | @absent n b hn hb hend =>
      have hadd := follow_add (bound - n - 1 + 1) n hb
      have hbound : n + (bound - n - 1 + 1) = bound := by omega
      rw [hbound, follow_succ_of_absent hend] at hadd
      simpa [Nat.add_comm] using hadd
    | @givenUp b hb hend =>
      have hadd := follow_add 0 bound hb
      rw [Nat.add_zero, follow_zero hend] at hadd
      simpa using hadd

theorem Settles.loads_le {bound : Nat} {r : Option α × Nat} (h : Settles next bound a r) :
    r.2 ≤ bound := by
  cases h with
  | concrete hn _ _ => exact hn
  | absent hn _ _ => exact hn
  | givenUp _ _ => exact Nat.le_refl bound

end Web

/-! ### Values of a graph -/

variable {g : Graph}

/-- Only deferred values stand for others. -/
theorem Graph.next_eq_none_iff {v : FieldValue} : g.next v = none ↔ v.isDeferred = false := by
  unfold next FieldValue.isDeferred
  cases v <;> simp

/-- What a value stands for is concrete. -/
theorem concrete_dereference {v w : FieldValue} (h : g.dereference v = some w) :
    w.isDeferred = false := by
  unfold Graph.dereference at h
  have hsettles := settles_follow g.next maxLoads v
  generalize follow g.next maxLoads v = r at h hsettles
  cases hsettles with
  | concrete _ _ hend =>
    cases h
    exact Graph.next_eq_none_iff.mp hend
  | absent _ _ _ => cases h
  | givenUp _ _ => cases h

/-- A getter that is stock finds concrete values only. -/
theorem concrete_retrieve {f : FieldGetter} (hstock : f.rule = .stock) {object : ObjectRef}
    {accessor : String} {w : FieldValue} (h : f.retrieve g object accessor = some w) :
    w.isDeferred = false := by
  unfold FieldGetter.retrieve at h
  rw [hstock] at h
  obtain ⟨v, -, hv⟩ := Option.bind_eq_some_iff.mp h
  exact concrete_dereference hv

variable {chain : FieldGetterChain}

/-- A chain of stock getters finds concrete values only. -/
theorem concrete_retrieve_chain (hstock : ∀ f ∈ chain.getters, f.rule = .stock) {object : ObjectRef}
    {accessor : String} {w : FieldValue} (h : chain.retrieve g object accessor = some w) :
    w.isDeferred = false := by
  obtain ⟨before, f, after, hgetters, -, hfound, -⟩ := FieldGetterChain.consultAll_eq_some_iff.mp h
  have hmem : f ∈ chain.getters := by
    rw [hgetters]
    simp
  exact concrete_retrieve (hstock f hmem) hfound

/-- A walk with stock getters goes from concrete values to concrete values. -/
theorem concrete_walk_of_stock (hstock : ∀ f ∈ chain.getters, f.rule = .stock) :
    ∀ (accessors : List String) (v : Option FieldValue), (∀ w, v = some w → w.isDeferred = false) →
      ∀ w, (walk g chain v accessors).value = some w → w.isDeferred = false
  | [], v, hv => by
    rw [walk_nil]
    exact hv
  | accessor :: rest, v, hv => by
    by_cases h : ∃ o, v = some (.object o)
    · obtain ⟨o, rfl⟩ := h
      exact concrete_walk_of_stock hstock rest (chain.retrieve g o accessor) fun w hw =>
        concrete_retrieve_chain hstock hw
    · rw [walk_of_no_object g chain (not_exists.mp h)]
      exact hv

/-! ### The work of a walk -/

/-- The loads that a getter makes when it is asked for a value. A custom getter makes none here. -/
def FieldGetter.loads (f : FieldGetter) (g : Graph) (object : ObjectRef) (accessor : String) : Nat :=
  match f.rule with
  | .stock => (g.callGetter object accessor).elim 0 fun v => (follow g.next maxLoads v).2
  | .custom _ _ => 0

/-- The loads that getters make when they are asked in order for the first value found. -/
def FieldGetterChain.loadsAll (g : Graph) (object : ObjectRef) (accessor : String) :
    List FieldGetter → Nat
  | [] => 0
  | f :: fs =>
    if f.handles g object accessor then
      f.loads g object accessor +
        if (f.retrieve g object accessor).isSome then 0 else loadsAll g object accessor fs
    else loadsAll g object accessor fs

/-- The loads that a chain makes for questions. -/
def loadsOf (g : Graph) (chain : FieldGetterChain) : List (ObjectRef × String) → Nat
  | [] => 0
  | q :: asked => FieldGetterChain.loadsAll g q.1 q.2 chain.getters + loadsOf g chain asked

theorem FieldGetter.loads_le (f : FieldGetter) (object : ObjectRef) (accessor : String) :
    f.loads g object accessor ≤ maxLoads := by
  unfold loads
  split
  · cases g.callGetter object accessor with
    | none => exact Nat.zero_le _
    | some v => exact (settles_follow g.next maxLoads v).loads_le
  · exact Nat.zero_le _

theorem FieldGetterChain.loadsAll_le (object : ObjectRef) (accessor : String) :
    ∀ fs : List FieldGetter, loadsAll g object accessor fs ≤ maxLoads * fs.length
  | [] => Nat.zero_le _
  | f :: fs => by
    have hfirst := f.loads_le (g := g) object accessor
    have hrest := loadsAll_le object accessor fs
    rw [List.length_cons, Nat.mul_succ]
    unfold loadsAll
    split
    · split <;> omega
    · omega

/-- A question makes two calls of each getter at most. -/
theorem FieldGetterChain.length_consultAll_le (object : ObjectRef) (accessor : String) :
    ∀ fs : List FieldGetter, (consultAll g object accessor fs).2.length ≤ 2 * fs.length
  | [] => Nat.zero_le _
  | f :: fs => by
    have hrest := length_consultAll_le object accessor fs
    rw [List.length_cons]
    unfold consultAll
    dsimp only
    split
    · split
      · simp only [List.length_cons, List.length_nil]
        omega
      · simp only [List.length_cons]
        omega
    · simp only [List.length_cons]
      omega

theorem length_callsOf_le (asked : List (ObjectRef × String)) :
    (callsOf g chain asked).length ≤ 2 * chain.size * asked.length := by
  induction asked with
  | nil => simp [callsOf]
  | cons q asked ih =>
    have hfirst : (chain.consult g q.1 q.2).2.length ≤ 2 * chain.size :=
      FieldGetterChain.length_consultAll_le q.1 q.2 chain.getters
    unfold callsOf at ih ⊢
    rw [List.flatMap_cons, List.length_append, List.length_cons, Nat.mul_succ]
    omega

theorem loadsOf_le : ∀ asked : List (ObjectRef × String),
    loadsOf g chain asked ≤ maxLoads * chain.size * asked.length
  | [] => Nat.zero_le _
  | q :: asked => by
    have hfirst : FieldGetterChain.loadsAll g q.1 q.2 chain.getters ≤ maxLoads * chain.size :=
      FieldGetterChain.loadsAll_le q.1 q.2 chain.getters
    have hrest := loadsOf_le asked
    rw [List.length_cons, Nat.mul_succ]
    unfold loadsOf
    omega

/-- **Loading is exact and bounded.** In any web of deferred values, loading ends at the first concrete
value if at most eight loads lead there and none of them finds nothing, and else with nothing; it makes
the loads on the way there, or up to the first that finds nothing, and never more than eight. The values
before one that is reached are all deferred, and what loading ends with is not. With only stock getters,
in any graph, no evaluation ends with a deferred value, and each of them ends: after at most one question
for each segment, two calls of each getter for each question, and eight loads by each getter. -/
theorem loading_exact_and_bounded :
    (∀ {α : Type} (next : α → Option (Option α)) (a : α) (r : Option α × Nat),
      follow next maxLoads a = r ↔ Settles next 8 a r) ∧
    (∀ (g : Graph) (v : FieldValue),
      (∃ loads ≤ 8, follow g.next maxLoads v = (g.dereference v, loads) ∧
        Settles g.next 8 v (g.dereference v, loads)) ∧
      (∀ w, g.dereference v = some w → w.isDeferred = false) ∧
      ∀ n w, loadedAfter g.next v n = some w → ∀ m < n, ∃ ref found,
        loadedAfter g.next v m = some (.deferred ref) ∧ g.load ref = some found) ∧
    ∀ (g : Graph) (chain : FieldGetterChain), (∀ f ∈ chain.getters, f.rule = .stock) →
      ∀ object : ObjectRef,
        (∀ raw c w, (evaluateCached g chain object raw c).1.value = some w → w.isDeferred = false) ∧
        ∀ path : PathExpression,
          (∀ w, (evaluatePath g chain object path).value = some w → w.isDeferred = false) ∧
          (evaluatePath g chain object path).asked.length ≤ path.segments.length ∧
          (callsOf g chain (evaluatePath g chain object path).asked).length ≤
            2 * chain.size * path.segments.length ∧
          loadsOf g chain (evaluatePath g chain object path).asked ≤
            8 * chain.size * path.segments.length := by
  refine ⟨fun next a r => follow_eq_iff, fun g v => ⟨?_, fun w => concrete_dereference, ?_⟩,
    fun g chain hstock object => ?_⟩
  · have hsettles := settles_follow g.next maxLoads v
    exact ⟨_, hsettles.loads_le, rfl, hsettles⟩
  · intro n w hn m hm
    obtain ⟨u, found, hu, hload⟩ := next_of_loadedAfter hn hm
    cases u with
    | scalar _ => cases hload
    | object _ => cases hload
    | deferred ref => exact ⟨ref, found, hu, Option.some.inj hload⟩
  · have hpath : ∀ (path : PathExpression) (w : FieldValue),
        (evaluatePath g chain object path).value = some w → w.isDeferred = false := by
      intro path
      apply concrete_walk_of_stock hstock
      intro w hw
      cases hw
      rfl
    refine ⟨fun raw c w hw => ?_, fun path => ?_⟩
    · cases hraw : PathExpression.parse? raw with
      | some path =>
        rw [evaluateCached_of_parse? g chain hraw, evaluatePathCached_fst] at hw
        exact hpath path w hw
      | none =>
        rw [evaluateCached_fst, evaluate, hraw] at hw
        cases hw
        rfl
    · have hasked := length_asked_evaluatePath_le g chain object path
      refine ⟨hpath path, hasked, ?_, ?_⟩
      · calc (callsOf g chain (evaluatePath g chain object path).asked).length
            ≤ 2 * chain.size * (evaluatePath g chain object path).asked.length := length_callsOf_le _
          _ ≤ 2 * chain.size * path.segments.length := Nat.mul_le_mul_left _ hasked
      · calc loadsOf g chain (evaluatePath g chain object path).asked
            ≤ maxLoads * chain.size * (evaluatePath g chain object path).asked.length := loadsOf_le _
          _ ≤ 8 * chain.size * path.segments.length := Nat.mul_le_mul_left _ hasked

/-- Two references that point at each other. -/
def facingMirrors : Graph :=
  .ofDocument (.ofJson (.obj
    [("left", .obj [("$ref", .str "#/right")]), ("right", .obj [("$ref", .str "/left")])]))

/-- Between the mirrors the eight loads are made and the value is given up, and a walk into them asks one
question and ends with nothing. In a web that never comes back to the same place it is the same. -/
theorem loading_facingMirrors :
    (follow facingMirrors.next maxLoads (.deferred (.reference 0 "/left"))).2 = 8 ∧
    follow (fun n : Nat => some (some (n + 1))) maxLoads 0 = (none, 8) ∧
    (∀ w, (evaluatePath facingMirrors (.standard 0) Graph.root ⟨["left", "name"]⟩).value = some w →
      w.isDeferred = false) ∧
    loadsOf facingMirrors (.standard 0)
      (evaluatePath facingMirrors (.standard 0) Graph.root ⟨["left", "name"]⟩).asked = 8 := by
  obtain ⟨hweb, -, hstandard⟩ := loading_exact_and_bounded
  have hstock : ∀ f ∈ (FieldGetterChain.standard 0).getters, f.rule = .stock := by
    intro f hf
    rw [List.mem_singleton.mp hf]
    rfl
  have hwalk := (hstandard facingMirrors (.standard 0) hstock Graph.root).2 ⟨["left", "name"]⟩
  have hendless : loadedAfter (fun n : Nat => some (some (n + 1))) 0 8 = some 8 := rfl
  exact ⟨by decide +kernel, (hweb _ 0 (none, 8)).mpr (.givenUp hendless (by simp)), hwalk.1,
    by decide +kernel⟩

end Recipients
