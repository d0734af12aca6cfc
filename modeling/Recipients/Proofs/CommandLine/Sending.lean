/-
# What becomes of a request to send

A command line with `--send` among its arguments is scanned to values with the flag set, wherever the flag
stands: no value can be taken for it, and nothing unsets it. What the values come to then depends on the
other options. With a configuration file the message is sent and printed. With receivers the demand for
the file is waived, and the run prints the receivers and sends nothing, as if the flag were not there. A
page may be asked for in place of a run. Every other run exits with 1 or 2 and prints nothing.

The scanner takes one or two arguments at a time and carries the values; `Scans` has a case for each way
of taking them, and the flag is followed through it by induction.

Key definitions: `Given.Scans`, `SendEnds`.
Key theorems: `Given.scans_of_scan`, `Given.Scans.send_of_mem`, `Options.file_or_receivers`,
`sendEnds_runCommandLine`, `sends_with_file`.
-/
import Mathlib.Data.List.TakeWhile
import Recipients.Proofs.CommandLine.Modes

namespace Recipients

namespace Given

/-- How arguments are taken, one or two at a time. -/
inductive Scans : List String → Given → Scanned → Prop
  | done {g} : Scans [] g (.given g)
  | stop {g} : Scans ["--"] g (.given g)
  | send {rest g s} : g.send = false → Scans rest { g with send := true } s → Scans ("--send" :: rest) g s
  | joined {argument rest g g' option value s} : argument ≠ "--send" →
      g.take? option value = some g' → Scans rest g' s → Scans (argument :: rest) g s
  | apart {argument value rest g g' option s} : argument ≠ "--send" → isValue value = true →
      g.take? option value = some g' → Scans rest g' s → Scans (argument :: value :: rest) g s
  | page {argument rest g p} : Scans (argument :: rest) g (.page p)

/-! ### The scanner takes arguments in no other way -/

/-- An argument is known by the characters after its two hyphens. -/
theorem eq_of_name {argument : String} {name : List Char} (h : argument.toList = '-' :: '-' :: name) :
    argument = "--" ++ String.ofList name := by
  apply String.toList_inj.mp
  simp only [h, String.toList_append, String.toList_ofList]
  rfl

theorem name_of_send {name : List Char} (h : "--" ++ String.ofList name = "--send") :
    name = ['s', 'e', 'n', 'd'] := by
  have hlist : "--".toList ++ name = "--send".toList := by
    simpa only [String.toList_append, String.toList_ofList] using congrArg String.toList h
  have hchars : '-' :: '-' :: name = ['-', '-', 's', 'e', 'n', 'd'] := hlist
  exact (List.cons.inj (List.cons.inj hchars).2).2

section Steps

variable {argument : String} {rest : List String} {g : Given} {s : Scanned} {name : List Char}

/-- An argument with an equals sign brings its value with it. -/
theorem scan_joined (hname : argument.toList = '-' :: '-' :: name) {c : Char} {value : List Char}
    (hvalue : name.dropWhile (· != '=') = c :: value) (h : scan (argument :: rest) g = some s) :
    ∃ option g', g.take? option (String.ofList value) = some g' ∧ scan rest g' = some s := by
  rw [scan] at h
  simp only [hname, hvalue] at h
  split at h
  · rename_i option _
    obtain ⟨g', htake, hrest⟩ := Option.bind_eq_some_iff.mp h
    exact ⟨option, g', htake, hrest⟩
  · cases h

/-- Any other one ends the options, is the flag, asks for a page or is followed by its value. -/
theorem scan_plain (hname : argument.toList = '-' :: '-' :: name)
    (hvalue : name.dropWhile (· != '=') = []) (h : scan (argument :: rest) g = some s) :
    (name = [] ∧ rest = [] ∧ s = .given g) ∨
    (name = ['s', 'e', 'n', 'd'] ∧ g.send = false ∧ scan rest { g with send := true } = some s) ∨
    (∃ p, s = .page p) ∨
    ∃ option value rest' g', name ≠ ['s', 'e', 'n', 'd'] ∧ rest = value :: rest' ∧ isValue value = true ∧
      g.take? option value = some g' ∧ scan rest' g' = some s := by
  have hkey : name.takeWhile (· != '=') = name :=
    List.takeWhile_eq_self_iff.mpr (List.dropWhile_eq_nil_iff.mp hvalue)
  rw [scan] at h
  simp only [hname, hvalue, hkey] at h
  split at h
  · rename_i hempty
    split at h
    · rename_i hrest
      cases h
      exact .inl ⟨String.ofList_inj.mp hempty, List.isEmpty_iff.mp hrest, rfl⟩
    · cases h
  · split at h
    · rename_i hsend
      split at h
      · cases h
      · rename_i hfirst
        exact .inr (.inl ⟨String.ofList_inj.mp hsend, Bool.eq_false_iff.mpr hfirst, h⟩)
    · rename_i hother
      split at h
      · cases h
        exact .inr (.inr (.inl ⟨_, rfl⟩))
      · split at h
        · rename_i hisValue
          obtain ⟨g', htake, hrest⟩ := Option.bind_eq_some_iff.mp h
          exact .inr (.inr (.inr ⟨_, _, _, g', fun hname => hother (congrArg String.ofList hname), rfl,
            hisValue, htake, hrest⟩))
        · cases h
      · cases h

/-- An argument that does not begin with two hyphens can only ask for a page. -/
theorem scan_other (hname : ∀ name, argument.toList ≠ '-' :: '-' :: name)
    (h : scan (argument :: rest) g = some s) : ∃ p, s = .page p := by
  rw [scan] at h
  split at h
  · rename_i name heq
    exact absurd heq (hname name)
  · obtain ⟨p, -, rfl⟩ := Option.map_eq_some_iff.mp h
    exact ⟨p, rfl⟩
  · cases h

end Steps

theorem scans_of_scan : ∀ {arguments : List String} {g : Given} {s : Scanned},
    scan arguments g = some s → Scans arguments g s
  | [], g, s, h => by
    rw [scan] at h
    cases h
    exact .done
  | argument :: rest, g, s, h => by
    by_cases hlong : ∃ name, argument.toList = '-' :: '-' :: name
    · obtain ⟨name, hname⟩ := hlong
      obtain rfl := eq_of_name hname
      cases hvalue : name.dropWhile (· != '=') with
      | nil =>
        rcases scan_plain hname hvalue h with ⟨rfl, rfl, rfl⟩ | ⟨rfl, hfirst, hrest⟩ | ⟨p, rfl⟩ |
          ⟨option, value, rest', g', hother, rfl, hisValue, htake, hrest⟩
        · exact .stop
        · exact .send hfirst (scans_of_scan hrest)
        · exact .page
        · exact .apart (fun heq => hother (name_of_send heq)) hisValue htake (scans_of_scan hrest)
      | cons c value =>
        have hsend : "--" ++ String.ofList name ≠ "--send" := by
          intro heq
          rw [name_of_send heq] at hvalue
          cases hvalue
        obtain ⟨option, g', htake, hrest⟩ := scan_joined hname hvalue h
        exact .joined hsend htake (scans_of_scan hrest)
    · obtain ⟨p, rfl⟩ := scan_other (fun name hname => hlong ⟨name, hname⟩) h
      exact .page
termination_by arguments => arguments.length

/-! ### The flag is kept -/

theorem send_take? {g g' : Given} {option : OptionName} {value : String}
    (h : g.take? option value = some g') : g'.send = g.send := by
  unfold take? at h
  split at h
  · cases h
  · cases h
    rfl

/-- The flag is set in the end if it was set or is among the arguments. -/
theorem Scans.send_of_mem {arguments : List String} {g : Given} {s : Scanned} (h : Scans arguments g s)
    (hsend : g.send = true ∨ "--send" ∈ arguments) : ∀ g', s = .given g' → g'.send = true := by
  induction h with
  | done =>
    rintro _ ⟨⟩
    exact hsend.resolve_right List.not_mem_nil
  | stop =>
    rintro _ ⟨⟩
    exact hsend.resolve_right (by decide)
  | send _ _ ih => exact ih (.inl rfl)
  | joined hne htake _ ih =>
    apply ih
    rw [send_take? htake]
    exact hsend.imp_right fun hmem => (List.mem_cons.mp hmem).resolve_left hne.symm
  | apart hne hvalue htake _ ih =>
    apply ih
    rw [send_take? htake]
    refine hsend.imp_right fun hmem => ?_
    rcases List.mem_cons.mp hmem with heq | hmem
    · exact absurd heq.symm hne
    · rcases List.mem_cons.mp hmem with rfl | hmem
      · exact absurd hvalue (by decide)
      · exact hmem
  | page => rintro _ ⟨⟩

end Given

/-! ### What the values come to -/

/-- With the flag, either the configuration file or the receivers are there, and not both. -/
theorem Options.file_or_receivers {g : Given} {o : Options} (h : ofGiven? g = some o)
    (hsend : g.send = true) :
    (∃ context name event arguments, o = ⟨context, some name, none, event, true, arguments⟩) ∨
      ∃ context text event arguments, o = ⟨context, none, some text, event, true, arguments⟩ := by
  unfold ofGiven? at h
  rw [hsend] at h
  cases hconfig : g.value? .config with
  | some name =>
    cases hreceivers : g.value? .receivers with
    | some text => simp [hconfig, hreceivers] at h
    | none =>
      simp only [hconfig, hreceivers, Option.isSome_none, Option.isNone_some, Bool.and_false,
        Bool.false_and, Bool.false_eq_true, if_false] at h
      obtain ⟨context, -, rfl⟩ := Option.map_eq_some_iff.mp h
      exact .inl ⟨context, name, _, _, rfl⟩
  | none =>
    cases hreceivers : g.value? .receivers with
    | some text =>
      simp only [hconfig, hreceivers, Option.isSome_none, Option.isNone_some, Bool.and_false,
        Bool.false_and, Bool.false_eq_true, if_false] at h
      obtain ⟨context, -, rfl⟩ := Option.map_eq_some_iff.mp h
      exact .inr ⟨context, text, _, _, rfl⟩
    | none => simp [hconfig, hreceivers] at h

/-- A command line with the flag is a run with a configuration file, a run with receivers, a request for a
page, or wrong usage. -/
theorem parse?_of_mem_send {arguments : List String} (hsend : "--send" ∈ arguments) :
    (∃ context name event filling,
      Request.parse? arguments = some (.run ⟨context, some name, none, event, true, filling⟩)) ∨
    (∃ context text event filling,
      Request.parse? arguments = some (.run ⟨context, none, some text, event, true, filling⟩)) ∨
    (∃ p, Request.parse? arguments = some (.page p)) ∨ Request.parse? arguments = none := by
  cases hparse : Request.parse? arguments with
  | none => exact .inr (.inr (.inr rfl))
  | some request =>
    obtain ⟨s, hscan, hrequest⟩ := Option.bind_eq_some_iff.mp hparse
    cases s with
    | page p =>
      cases hrequest
      exact .inr (.inr (.inl ⟨p, rfl⟩))
    | given g =>
      obtain ⟨o, ho, rfl⟩ := Option.map_eq_some_iff.mp hrequest
      have hflag : g.send = true := (Given.scans_of_scan hscan).send_of_mem (.inr hsend) g rfl
      rcases Options.file_or_receivers ho hflag with
        ⟨context, name, event, filling, rfl⟩ | ⟨context, text, event, filling, rfl⟩
      · exact .inl ⟨context, name, event, filling, rfl⟩
      · exact .inr (.inl ⟨context, text, event, filling, rfl⟩)

/-! ### What is done -/

/-- How a run with the flag ends: the message was sent, or the receivers that were given are printed as if
the flag were not there, or a page is, or nothing. -/
inductive SendEnds (files : Files) (arguments : List String) : Outcome → Prop
  | sent {context name event filling d c n v} :
      Request.parse? arguments = some (.run ⟨context, some name, none, event, true, filling⟩) →
      Options.Finds files context name event d c n → Json.read (filling.getD "\x7b\x7d") = .ok v →
      (receiversFor d event n.receivers).entries ≠ [] →
      SendEnds files arguments (.done (.ofMessage ⟨c.sender, receiversFor d event n.receivers, n.template, v⟩))
  | waived {context text event filling d raw} :
      Request.parse? arguments = some (.run ⟨context, none, some text, event, true, filling⟩) →
      loadContext files context = .ok d → ReceiverConfig.read text = .ok raw →
      SendEnds files arguments (.done ⟨(receiversFor d event raw).toJson, []⟩)
  | page {p} : Request.parse? arguments = some (.page p) → SendEnds files arguments (.page p)
  | failed {o e} : Request.parse? arguments = some (.run o) → SendEnds files arguments (.failed e)
  | wrongUsage : Request.parse? arguments = none → SendEnds files arguments .wrongUsage

theorem sendEnds_runCommandLine {arguments : List String} (files : Files) (hsend : "--send" ∈ arguments) :
    SendEnds files arguments (runCommandLine files arguments) := by
  have hrun : ∀ {o : Options}, Request.parse? arguments = some (.run o) →
      runCommandLine files arguments = o.run files := runCommandLine_of_run
  rcases parse?_of_mem_send hsend with ⟨context, name, event, filling, hparse⟩ |
    ⟨context, text, event, filling, hparse⟩ | ⟨p, hparse⟩ | hparse
  · rw [hrun hparse, Options.run]
    split
    · rename_i report hreport
      obtain ⟨d, c, n, v, hfinds, hv, hsomebody, rfl⟩ := Options.report_message_iff.mp hreport
      exact .sent hparse hfinds hv hsomebody
    · exact .failed hparse
  · rw [hrun hparse, Options.run]
    split
    · rename_i report hreport
      obtain ⟨d, raw, hcontext, htext, rfl⟩ := Options.report_receivers_iff.mp hreport
      exact .waived hparse hcontext htext
    · exact .failed hparse
  · rw [runCommandLine, hparse]
    exact .page hparse
  · rw [runCommandLine, hparse]
    exact .wrongUsage hparse

/-- **Sending is ignored when receivers are given.** A run with `--send` among its arguments that exits
with 0 sends one message and prints it, if a configuration file is given. If receivers are given instead,
it sends nothing and prints these receivers, and it prints a page that was asked for. Any other run exits
with 1 or 2, sends nothing and prints nothing. -/
theorem sends_with_file (files : Files) {arguments : List String} (hsend : "--send" ∈ arguments) :
    (∀ o name, Request.parse? arguments = some (.run o) → o.config = some name →
      (runCommandLine files arguments).exitCode = 0 →
        ∃ m, (runCommandLine files arguments).sent = [m] ∧
          (runCommandLine files arguments).output = m.toJson.pretty ++ "\n") ∧
    (∀ o, Request.parse? arguments = some (.run o) → o.config = none →
      (runCommandLine files arguments).exitCode = 0 →
        ∃ text d raw, o.receivers = some text ∧ loadContext files o.context = .ok d ∧
          ReceiverConfig.read text = .ok raw ∧ (runCommandLine files arguments).sent = [] ∧
          (runCommandLine files arguments).output = (receiversFor d o.event raw).toJson.pretty ++ "\n") ∧
    (∀ p, Request.parse? arguments = some (.page p) →
      (runCommandLine files arguments).exitCode = 0 ∧ (runCommandLine files arguments).sent = [] ∧
        (runCommandLine files arguments).output = p.text) ∧
    ((runCommandLine files arguments).exitCode ≠ 0 →
      ((runCommandLine files arguments).exitCode = 1 ∨ (runCommandLine files arguments).exitCode = 2) ∧
        (runCommandLine files arguments).sent = [] ∧ (runCommandLine files arguments).output = "") := by
  have hends := sendEnds_runCommandLine files hsend
  generalize runCommandLine files arguments = out at hends
  cases hends with
  | sent hparse _ _ _ =>
    rw [hparse]
    refine ⟨fun _ _ _ _ _ => ⟨_, rfl, rfl⟩, ?_, ?_, fun h => absurd rfl h⟩
    · rintro _ ⟨⟩ ⟨⟩
    · rintro _ ⟨⟩
  | waived hparse hcontext htext =>
    rw [hparse]
    refine ⟨?_, ?_, ?_, fun h => absurd rfl h⟩
    · rintro _ _ ⟨⟩ ⟨⟩
    · rintro _ ⟨⟩ _ _
      exact ⟨_, _, _, rfl, hcontext, htext, rfl, rfl⟩
    · rintro _ ⟨⟩
  | page hparse =>
    rw [hparse]
    refine ⟨?_, ?_, ?_, fun h => absurd rfl h⟩
    · rintro _ _ ⟨⟩
    · rintro _ ⟨⟩
    · rintro _ ⟨⟩
      exact ⟨rfl, rfl, rfl⟩
  | failed hparse =>
    rw [hparse]
    refine ⟨?_, ?_, ?_, fun _ => ⟨.inl rfl, rfl, rfl⟩⟩
    · rintro _ _ _ _ ⟨⟩
    · rintro _ _ _ ⟨⟩
    · rintro _ ⟨⟩
  | wrongUsage hparse =>
    rw [hparse]
    refine ⟨?_, ?_, ?_, fun _ => ⟨.inr rfl, rfl, rfl⟩⟩
    · rintro _ _ ⟨⟩
    · rintro _ ⟨⟩
    · rintro _ ⟨⟩

/-- The greeting is sent, and it goes to the two people. -/
theorem greeting_sends : "--send" ∈ sendLine ∧ (runCommandLine greetingFiles sendLine).exitCode = 0 ∧
    ∃ m, (runCommandLine greetingFiles sendLine).sent = [m] ∧
      (runCommandLine greetingFiles sendLine).output = m.toJson.pretty ++ "\n" := by
  have hsend : "--send" ∈ sendLine := by decide
  have hparse : Request.parse? sendLine =
      some (.run ⟨people, some "greeting.json", none, none, true, none⟩) := by decide +kernel
  obtain ⟨d, hfinds, hentries⟩ := greeting_found
  have hsomebody : (receiversFor d none peopleReceivers).entries ≠ [] := by
    rw [hentries]
    exact List.cons_ne_nil _ _
  have hexit : (runCommandLine greetingFiles sendLine).exitCode = 0 := by
    rw [runCommandLine_of_run hparse]
    exact Options.exitCode_run.mpr
      ⟨_, Options.report_message_iff.mpr ⟨d, _, _, .obj [], hfinds, rfl, hsomebody, rfl⟩⟩
  exact ⟨hsend, hexit, (sends_with_file greetingFiles hsend).1 _ _ hparse rfl hexit⟩

/-- Receivers that are given together with the flag. -/
def waivedLine : List String :=
  ["--context", "\x7b\x7d", "--receivers", "\x7b\"a@example.com\":\"A\"\x7d", "--send"]

/-- On `waivedLine` the flag is ignored: the receivers are printed, nothing is sent, and the exit code is 0.
The demand for a configuration file was to keep such a run from starting. -/
theorem waivedLine_sends_nothing :
    "--send" ∈ waivedLine ∧ (runCommandLine (fun _ => none) waivedLine).exitCode = 0 ∧
      (runCommandLine (fun _ => none) waivedLine).sent = [] ∧
      (runCommandLine (fun _ => none) waivedLine).output = "\x7b\n  \"a@example.com\": \"A\"\n\x7d\n" ∧
      ¬ ∀ (files : Files) (arguments : List String), "--send" ∈ arguments →
        (runCommandLine files arguments).exitCode = 0 →
        ∃ m, (runCommandLine files arguments).sent = [m] ∧
          (runCommandLine files arguments).output = m.toJson.pretty ++ "\n" := by
  have hsend : "--send" ∈ waivedLine := by decide
  have hexit : (runCommandLine (fun _ => none) waivedLine).exitCode = 0 := by decide +kernel
  have hsent : (runCommandLine (fun _ => none) waivedLine).sent = [] := by
    have hempty : (runCommandLine (fun _ => none) waivedLine).sent.isEmpty = true := by decide +kernel
    exact List.isEmpty_iff.mp hempty
  refine ⟨hsend, hexit, hsent, by decide +kernel, fun h => ?_⟩
  obtain ⟨m, hm, -⟩ := h (fun _ => none) waivedLine hsend hexit
  rw [hsent] at hm
  cases hm

end Recipients
