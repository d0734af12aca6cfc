/-
# Who answers, and who is asked

A getter passes a pair of object and accessor on if it declines it or finds nothing there. A chain
answers with the value of the first getter that does not pass, and with nothing if all of them pass. Each
getter up to that one is asked whether it handles the pair, and right after that for the value if it
does; the getters behind it are not asked at all.

Key definitions: `FieldGetter.Passes`, `FieldGetter.callsAbout`, `callsToOthers`.
Key theorems: `FieldGetterChain.consultAll_append_of_passes`, `FieldGetterChain.consultAll_of_first`,
`FieldGetterChain.consultAll_eq_some_iff`, `FieldGetterChain.consultAll_insert`.
-/
import Recipients.Getter.Chain

namespace Recipients

namespace FieldGetter

/-- The getter declines the pair, or finds nothing there. -/
def Passes (f : FieldGetter) (g : Graph) (object : ObjectRef) (accessor : String) : Prop :=
  f.handles g object accessor = false ∨ f.retrieve g object accessor = none

/-- The calls that the getter receives when the chain comes to it. -/
def callsAbout (f : FieldGetter) (g : Graph) (object : ObjectRef) (accessor : String) : List Call :=
  ⟨f.identity, .handles, object, accessor⟩ ::
    if f.handles g object accessor then [⟨f.identity, .retrieves, object, accessor⟩] else []

variable {f : FieldGetter} {g : Graph} {object : ObjectRef} {accessor : String}

theorem getter_of_mem_callsAbout {call : Call} (h : call ∈ f.callsAbout g object accessor) :
    call.getter = f.identity := by
  unfold callsAbout at h
  rcases List.mem_cons.mp h with rfl | h
  · rfl
  · split at h
    · rw [List.mem_singleton.mp h]
    · simp at h

/-- A getter that does not pass a pair on answers it. -/
theorem passes_or_answers (f : FieldGetter) (g : Graph) (object : ObjectRef) (accessor : String) :
    f.Passes g object accessor ∨
      ∃ v, f.handles g object accessor = true ∧ f.retrieve g object accessor = some v := by
  unfold Passes
  cases hh : f.handles g object accessor with
  | false => exact .inl (.inl rfl)
  | true =>
    cases hv : f.retrieve g object accessor with
    | none => exact .inl (.inr rfl)
    | some v => exact .inr ⟨v, rfl, rfl⟩

end FieldGetter

/-- The calls that getters of other identities receive. -/
def callsToOthers (identity : Nat) (calls : List Call) : List Call :=
  calls.filter fun call => call.getter != identity

namespace FieldGetterChain

open FieldGetter

variable {g : Graph} {object : ObjectRef} {accessor : String} {f : FieldGetter}
  {before after fs : List FieldGetter} {v : FieldValue}

/-! ### One getter more -/

/-- What passes in front of a list of getters is asked, and changes nothing else. -/
theorem consultAll_cons_of_passes (h : f.Passes g object accessor) :
    consultAll g object accessor (f :: fs) =
      ((consultAll g object accessor fs).1,
        f.callsAbout g object accessor ++ (consultAll g object accessor fs).2) := by
  unfold callsAbout
  rw [consultAll]
  rcases h with hdeclines | hnothing
  · simp [hdeclines]
  · cases hh : f.handles g object accessor with
    | false => simp
    | true => simp [hnothing]

/-- Behind a getter that answers nobody is asked. -/
theorem consultAll_cons_of_answers (hh : f.handles g object accessor = true)
    (hv : f.retrieve g object accessor = some v) :
    consultAll g object accessor (f :: fs) = (some v, f.callsAbout g object accessor) := by
  rw [consultAll, callsAbout]
  simp [hh, hv]

theorem consultAll_append_of_passes (after : List FieldGetter) : ∀ {before : List FieldGetter},
    (∀ e ∈ before, e.Passes g object accessor) →
    consultAll g object accessor (before ++ after) =
      ((consultAll g object accessor after).1,
        before.flatMap (·.callsAbout g object accessor) ++ (consultAll g object accessor after).2)
  | [], _ => by simp
  | e :: before, h => by
    have hfirst : e.Passes g object accessor := h e List.mem_cons_self
    have hrest := consultAll_append_of_passes after fun d hd => h d (List.mem_cons_of_mem e hd)
    rw [List.cons_append, consultAll_cons_of_passes hfirst, hrest, List.flatMap_cons,
      List.append_assoc]

/-! ### The first that answers -/

/-- Either all getters pass, or there is a first one that answers. -/
theorem passes_or_first (g : Graph) (object : ObjectRef) (accessor : String) :
    ∀ fs : List FieldGetter, (∀ f ∈ fs, f.Passes g object accessor) ∨
      ∃ before f after v, fs = before ++ f :: after ∧ f.handles g object accessor = true ∧
        f.retrieve g object accessor = some v ∧ ∀ e ∈ before, e.Passes g object accessor
  | [] => .inl (by simp)
  | f :: fs => by
    rcases f.passes_or_answers g object accessor with hf | ⟨v, hh, hv⟩
    · rcases passes_or_first g object accessor fs with hfs | ⟨before, e, after, v, rfl, hh, hv, hbefore⟩
      · refine .inl fun e he => ?_
        rcases List.mem_cons.mp he with rfl | he
        · exact hf
        · exact hfs e he
      · refine .inr ⟨f :: before, e, after, v, rfl, hh, hv, fun d hd => ?_⟩
        rcases List.mem_cons.mp hd with rfl | hd
        · exact hf
        · exact hbefore d hd
    · exact .inr ⟨[], f, fs, v, rfl, hh, hv, by simp⟩

/-- The first getter that answers settles the question, and it is the last to be asked. -/
theorem consultAll_of_first (hh : f.handles g object accessor = true)
    (hv : f.retrieve g object accessor = some v)
    (hbefore : ∀ e ∈ before, e.Passes g object accessor) :
    consultAll g object accessor (before ++ f :: after) =
      (some v, (before ++ [f]).flatMap (·.callsAbout g object accessor)) := by
  rw [consultAll_append_of_passes _ hbefore, consultAll_cons_of_answers hh hv, List.flatMap_append,
    List.flatMap_singleton]

/-- If all pass, all are asked, for nothing. -/
theorem consultAll_of_passes (h : ∀ f ∈ fs, f.Passes g object accessor) :
    consultAll g object accessor fs = (none, fs.flatMap (·.callsAbout g object accessor)) := by
  have happend := consultAll_append_of_passes [] h
  rw [List.append_nil] at happend
  rw [happend, consultAll, List.append_nil]

theorem consultAll_eq_none_iff :
    (consultAll g object accessor fs).1 = none ↔ ∀ f ∈ fs, f.Passes g object accessor := by
  constructor
  · intro h
    rcases passes_or_first g object accessor fs with hall | ⟨before, f, after, v, rfl, hh, hv, hbefore⟩
    · exact hall
    · rw [consultAll_of_first hh hv hbefore] at h
      cases h
  · intro h
    rw [consultAll_of_passes h]

theorem consultAll_eq_some_iff :
    (consultAll g object accessor fs).1 = some v ↔
      ∃ before f after, fs = before ++ f :: after ∧ f.handles g object accessor = true ∧
        f.retrieve g object accessor = some v ∧ ∀ e ∈ before, e.Passes g object accessor := by
  constructor
  · intro h
    rcases passes_or_first g object accessor fs with hall | ⟨before, f, after, w, rfl, hh, hw, hbefore⟩
    · rw [consultAll_of_passes hall] at h
      cases h
    · have hvalue : some w = some v := by
        rw [← h, consultAll_of_first hh hw hbefore]
      exact ⟨before, f, after, rfl, hh, hw.trans hvalue, hbefore⟩
  · rintro ⟨before, f, after, rfl, hh, hv, hbefore⟩
    rw [consultAll_of_first hh hv hbefore]

/-! ### One getter more in the middle -/

theorem callsToOthers_callsAbout (f : FieldGetter) (g : Graph) (object : ObjectRef)
    (accessor : String) : callsToOthers f.identity (f.callsAbout g object accessor) = [] := by
  refine List.filter_eq_nil_iff.mpr fun call hcall => ?_
  simp [getter_of_mem_callsAbout hcall]

/-- A getter that passes does not matter, wherever it stands: the value is the same, and so are the
calls to all others. -/
theorem consultAll_insert (after : List FieldGetter) (h : f.Passes g object accessor) :
    ∀ before : List FieldGetter,
    (consultAll g object accessor (before ++ f :: after)).1 =
        (consultAll g object accessor (before ++ after)).1 ∧
      callsToOthers f.identity (consultAll g object accessor (before ++ f :: after)).2 =
        callsToOthers f.identity (consultAll g object accessor (before ++ after)).2
  | [] => by
    have hown := callsToOthers_callsAbout f g object accessor
    simp only [callsToOthers] at hown
    simp only [List.nil_append, consultAll_cons_of_passes h, callsToOthers, List.filter_append, hown,
      and_self]
  | e :: before => by
    obtain ⟨hvalue, hcalls⟩ := consultAll_insert after h before
    rcases e.passes_or_answers g object accessor with he | ⟨v, hh, hv⟩
    · -- the question goes on to the getters among which `f` stands
      simp only [callsToOthers] at hcalls
      simp only [List.cons_append, consultAll_cons_of_passes he, callsToOthers, List.filter_append,
        hvalue, hcalls, and_self]
    · -- the question does not come as far as `f`
      simp only [List.cons_append, consultAll_cons_of_answers hh hv, and_self]

/-- Only entries of the chain are called. -/
theorem exists_of_mem_consultAll {call : Call} : ∀ {fs : List FieldGetter},
    call ∈ (consultAll g object accessor fs).2 → ∃ e ∈ fs, call.getter = e.identity
  | [], h => by simp [consultAll] at h
  | f :: fs, h => by
    rcases f.passes_or_answers g object accessor with hf | ⟨v, hh, hv⟩
    · rw [consultAll_cons_of_passes hf] at h
      rcases List.mem_append.mp h with h | h
      · exact ⟨f, List.mem_cons_self, getter_of_mem_callsAbout h⟩
      · obtain ⟨e, he, hcall⟩ := exists_of_mem_consultAll h
        exact ⟨e, List.mem_cons_of_mem f he, hcall⟩
    · rw [consultAll_cons_of_answers hh hv] at h
      exact ⟨f, List.mem_cons_self, getter_of_mem_callsAbout h⟩

end FieldGetterChain

end Recipients
