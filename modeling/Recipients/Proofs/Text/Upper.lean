/-
# What is in upper case stays

The upper-case form of a character begins with a character that is its own upper case, so taking it again
changes nothing. The two tables are read for this as intervals: the images of a run stand apart from the
characters of every run and of every expansion, or run and images go in steps of two and never meet. The
tables also leave the underscore alone: it is in no upper-case form but its own.

Key definitions: `CaseRun.lastImage`, `CaseRun.clearOf`.
Key theorems: `upperCodes_cases`, `head_upperCodes`, `head_upper`, `underscore_mem_upper`.
-/
import Recipients.Text.Upper

namespace Recipients.Text

namespace CaseRun

variable {r s : CaseRun} {c : Nat}

/-- The image of the last character. -/
def lastImage (r : CaseRun) : Nat :=
  r.image + (r.last - r.first)

/-- Whether the interval of the images ends before or begins after the other run, or the other run goes in
steps of two between the images. -/
def clearOf (r s : CaseRun) : Bool :=
  Nat.blt r.lastImage s.first || Nat.blt s.last r.image ||
    (s.step == 2 && (r.step == 2 || r.first == r.last) && (r.image + s.first) % 2 == 1)

theorem covers_iff : r.covers c = true ↔ r.first ≤ c ∧ c ≤ r.last ∧ (c - r.first) % r.step = 0 := by
  simp [covers, and_assoc]

/-- Images lie between the first and the last. -/
theorem imageOf_mem (h : r.covers c = true) : r.image ≤ r.imageOf c ∧ r.imageOf c ≤ r.lastImage := by
  obtain ⟨hfirst, hlast, -⟩ := covers_iff.mp h
  unfold imageOf lastImage
  omega

/-- No image lies in a run that the images are clear of. -/
theorem covers_imageOf (hclear : r.clearOf s = true) (h : r.covers c = true) :
    s.covers (r.imageOf c) = false := by
  have hbounds := imageOf_mem h
  obtain ⟨hfirst, hlast, hstep⟩ := covers_iff.mp h
  rw [Bool.eq_false_iff]
  intro hs
  obtain ⟨hsfirst, hslast, hsstep⟩ := covers_iff.mp hs
  simp only [clearOf, Bool.or_eq_true, Bool.and_eq_true, Nat.blt_eq, beq_iff_eq] at hclear
  rcases hclear with (hbefore | hafter) | ⟨⟨htwo, hsteps⟩, hodd⟩
  · omega
  · omega
  · -- the image has one parity and the characters of the other run have the other
    have heven : (c - r.first) % 2 = 0 := by
      rcases hsteps with hsteps | hone
      · rwa [hsteps] at hstep
      · omega
    rw [htwo] at hsstep
    unfold imageOf at hsfirst hsstep
    omega

end CaseRun

/-! ### The tables -/

/-- The images of a run are clear of every run, -/
theorem clearOf_of_mem : ∀ r ∈ caseRuns, ∀ s ∈ caseRuns, r.clearOf s = true := by
  have htable : (caseRuns.all fun r => caseRuns.all fun s => r.clearOf s) = true := by decide +kernel
  simpa only [List.all_eq_true] using htable

/-- and of every expansion. -/
theorem apart_of_mem : ∀ r ∈ caseRuns, ∀ e ∈ expansions, r.lastImage < e.1 ∨ e.1 < r.image := by
  have htable : (caseRuns.all fun r => expansions.all fun e =>
      Nat.blt r.lastImage e.1 || Nat.blt e.1 r.image) = true := by decide +kernel
  simpa only [List.all_eq_true, Bool.or_eq_true, Nat.blt_eq] using htable

/-- Images are characters, and none is the underscore. -/
theorem scalar_of_mem : ∀ r ∈ caseRuns,
    (r.lastImage < 0xD800 ∨ 0xDFFF < r.image ∧ r.lastImage < 0x110000) ∧
      (r.lastImage < 0x5F ∨ 0x5F < r.image) := by
  decide +kernel

/-- An expansion begins with its own upper case, and is written without the underscore. -/
theorem expansion_of_mem : ∀ e ∈ expansions, (∃ head ∈ e.2.head?, upperCodes head = [head]) ∧
    ∀ code ∈ e.2, code < 0xD800 ∧ code ≠ 0x5F := by
  decide +kernel

/-! ### Code points -/

/-- The three ways to come to an upper-case form. -/
theorem upperCodes_cases (c : Nat) :
    (∃ e ∈ expansions, upperCodes c = e.2) ∨
    (∃ r ∈ caseRuns, r.covers c = true ∧ upperCodes c = [r.imageOf c]) ∨ upperCodes c = [c] := by
  unfold upperCodes
  cases hform : expansions.lookup c with
  | some form =>
    obtain ⟨before, after, he, -⟩ := List.lookup_eq_some_iff.mp hform
    exact .inl ⟨(c, form), he ▸ List.mem_append_right _ List.mem_cons_self, rfl⟩
  | none =>
    cases hrun : caseRuns.find? (·.covers c) with
    | some r =>
      have hcovers : r.covers c = true := by simpa using List.find?_some hrun
      exact .inr (.inl ⟨r, List.mem_of_find?_eq_some hrun, hcovers, rfl⟩)
    | none => exact .inr (.inr rfl)

/-- The image of a character is its own upper case. -/
theorem upperCodes_imageOf {r : CaseRun} {c : Nat} (hr : r ∈ caseRuns) (h : r.covers c = true) :
    upperCodes (r.imageOf c) = [r.imageOf c] := by
  have hlookup : expansions.lookup (r.imageOf c) = none := by
    rw [List.lookup_eq_none_iff]
    intro e he
    have hbounds := CaseRun.imageOf_mem h
    have hapart := apart_of_mem r hr e he
    rw [bne_iff_ne]
    omega
  have hrun : caseRuns.find? (·.covers (r.imageOf c)) = none := by
    rw [List.find?_eq_none]
    intro s hs
    rw [CaseRun.covers_imageOf (clearOf_of_mem r hr s hs) h]
    exact Bool.false_ne_true
  rw [upperCodes, hlookup, hrun]

/-- The upper-case form begins with its own upper case. -/
theorem head_upperCodes (c : Nat) : ∃ d ds, upperCodes c = d :: ds ∧ upperCodes d = [d] := by
  rcases upperCodes_cases c with ⟨e, he, hform⟩ | ⟨r, hr, hc, himage⟩ | hself
  · obtain ⟨d, hd, hhead⟩ := (expansion_of_mem e he).1
    obtain ⟨ds, hds⟩ := List.head?_eq_some_iff.mp hd
    exact ⟨d, ds, hform.trans hds, hhead⟩
  · exact ⟨r.imageOf c, [], himage, upperCodes_imageOf hr hc⟩
  · exact ⟨c, [], hself, hself⟩

/-- What stands in the upper-case form of another character is a character, and not the underscore. -/
theorem eq_or_valid_of_mem_upperCodes {c d : Nat} (h : d ∈ upperCodes c) :
    d = c ∨ d.isValidChar ∧ d ≠ 0x5F := by
  rcases upperCodes_cases c with ⟨e, he, hform⟩ | ⟨r, hr, hc, himage⟩ | hself
  · obtain ⟨hvalid, hne⟩ := (expansion_of_mem e he).2 d (hform ▸ h)
    exact .inr ⟨.inl hvalid, hne⟩
  · rw [himage, List.mem_singleton] at h
    subst h
    have hbounds := CaseRun.imageOf_mem hc
    obtain ⟨hvalid, hunderscore⟩ := scalar_of_mem r hr
    refine .inr ⟨?_, by omega⟩
    unfold Nat.isValidChar
    omega
  · rw [hself, List.mem_singleton] at h
    exact .inl h

/-! ### Characters -/

/-- Code points of an upper-case form stand for themselves. -/
theorem toNat_ofNat_of_mem_upperCodes {c : Char} {d : Nat} (h : d ∈ upperCodes c.toNat) :
    (Char.ofNat d).toNat = d := by
  rcases eq_or_valid_of_mem_upperCodes h with rfl | ⟨hvalid, -⟩
  · rw [Char.ofNat_toNat]
  · rw [Char.ofNat, dif_pos hvalid]
    rfl

/-- The upper-case form of a character begins with a character that is its own upper case. -/
theorem head_upper (c : Char) : ∃ d ds, upper c = d :: ds ∧ upper d = [d] := by
  obtain ⟨d, ds, hform, hd⟩ := head_upperCodes c.toNat
  have hcode : (Char.ofNat d).toNat = d :=
    toNat_ofNat_of_mem_upperCodes (hform ▸ List.mem_cons_self)
  refine ⟨Char.ofNat d, ds.map Char.ofNat, ?_, ?_⟩
  · rw [upper, hform, List.map_cons]
  · rw [upper, hcode, hd, List.map_singleton]

/-- The underscore is in its own upper-case form and in no other. -/
theorem underscore_mem_upper {c : Char} : '_' ∈ upper c ↔ c = '_' := by
  constructor
  · intro h
    obtain ⟨d, hd, hchar⟩ := List.mem_map.mp h
    have hcode : d = 0x5F := by
      rw [← toNat_ofNat_of_mem_upperCodes hd, hchar]
      rfl
    rcases eq_or_valid_of_mem_upperCodes hd with hc | ⟨-, hne⟩
    · exact Char.toNat_inj.mp (hc.symm.trans hcode)
    · exact absurd hcode hne
  · rintro rfl
    have hself : upper '_' = ['_'] := by decide +kernel
    rw [hself]
    exact List.mem_cons_self

end Recipients.Text
