/-
# The modes of a run agree

A run prints the receivers of a notification, or those of a mapping that was given, or it sends the
message of a notification and prints that. Each mode reads, looks up and prints in its own way. All of
them come to the receivers that the one determiner finds at the root of the context, which does not look
at the event. So a mapping that reads as the one of the notification has the same receivers, and a message
goes to the receivers that are printed when nothing is sent. Sending asks for more: somebody to send to,
and arguments that can be read.

Each mode has one lemma that says exactly when it reports, and what. A run that reports nothing prints
nothing.

Key definitions: `Notifier.dry`, `Options.Finds`.
Key theorems: `Options.report_notification_iff`, `Options.report_receivers_iff`,
`Options.report_message_iff`, `modes_agree`.
-/
import Recipients.CommandLine.Run
import Recipients.Proofs.Notification.ConfigText
import Recipients.Proofs.Notification.Runs

namespace Recipients

/-- The one determiner resolves with its own getters, whatever the event is. -/
theorem receiversFor_eq (d : Document) (event : Option String) (raw : ReceiverConfig) :
    receiversFor d event raw = resolveReceivers (.ofDocument d) (.standard 0) Graph.root raw :=
  rfl

theorem orFail_eq_ok_iff {α : Type} {r : Except ReadError α} {a : α} : orFail r = .ok a ↔ r = .ok a := by
  cases r with
  | ok b => rw [orFail, Except.ok.injEq, Except.ok.injEq]
  | error e => simp [orFail]

/-- A computation succeeds if its first step does, and the others do with what comes of it. -/
theorem bind_eq_ok_iff {α β : Type} {x : Except Failure α} {f : α → Except Failure β} {b : β} :
    (x >>= f) = .ok b ↔ ∃ a, x = .ok a ∧ f a = .ok b := by
  cases x with
  | ok a =>
    constructor
    · intro h
      exact ⟨a, rfl, h⟩
    · rintro ⟨a', h, hf⟩
      cases h
      exact hf
  | error e =>
    constructor
    · intro h
      cases h
    · rintro ⟨a, h, -⟩
      cases h

namespace Outcome

/-- Only a run that succeeds prints. -/
theorem output_of_exitCode_ne_zero {out : Outcome} (h : out.exitCode ≠ 0) : out.output = "" := by
  cases out with
  | done report => exact absurd rfl h
  | failed cause => rfl
  | page p => exact absurd rfl h
  | wrongUsage => rfl

end Outcome

/-- The report of a message that the dry run was handed. -/
def Report.ofMessage (m : Message) : Report :=
  ⟨m.toJson, [m]⟩

/-- The notifier of a run: it asks the standard registry, and its dry run has sent nothing yet. -/
abbrev Notifier.dry (c : NotificationConfig) : Notifier :=
  ⟨.standard, 0, c, .dryRun []⟩

/-- A dry run refuses nothing: what is prepared is answered, and it is what was sent. -/
theorem Notifier.notify_dry (c : NotificationConfig) (g : Graph) (object : ObjectRef)
    (event : Option String) (v : Json) :
    ((dry c).notify g object event v).1 = (dry c).prepare g object event v ∧
      ((dry c).notify g object event v).2.mailer.sent =
        ((dry c).prepare g object event v).toOption.toList := by
  unfold notify
  rw [deliver_fst, deliver_snd]
  cases (dry c).prepare g object event v with
  | error e => exact ⟨rfl, rfl⟩
  | ok m => exact ⟨rfl, rfl⟩

/-- What is prepared is the message for the receivers that are printed when nothing is sent, if there are
any. -/
theorem Notifier.prepare_dry_eq_ok_iff {c : NotificationConfig} {d : Document} {event : Option String}
    (v : Json) {m : Message} :
    (dry c).prepare (.ofDocument d) Graph.root event v = .ok m ↔
      ∃ n, c.Selects event n ∧ (receiversFor d event n.receivers).entries ≠ [] ∧
        m = ⟨c.sender, receiversFor d event n.receivers, n.template, v⟩ := by
  have hprepare : (dry c).prepare (.ofDocument d) Graph.root event v = .ok m ↔
      (dry c).Prepares (.ofDocument d) ⟨true, Graph.root, event, v⟩ (.ok m) :=
    @prepare_eq_iff (dry c) _ ⟨true, Graph.root, event, v⟩ _
  rw [hprepare]
  constructor
  · intro h
    cases h with
    | message hn hreceivers hsomebody =>
      subst hreceivers
      exact ⟨_, hn, hsomebody, rfl⟩
  · rintro ⟨n, hn, hsomebody, rfl⟩
    exact .message hn rfl hsomebody

namespace Options

/-- The context is read as the document, the named file as the configuration, and the configuration has
the notification for the event. -/
structure Finds (files : Files) (context name : String) (event : Option String) (d : Document)
    (c : NotificationConfig) (n : Notification) : Prop where
  context : loadContext files context = .ok d
  config : loadConfig files name = .ok c
  notification : c.Selects event n

variable {o : Options} {files : Files} {r : Report}

/-- A run reports and exits with 0, or exits with 1. -/
theorem exitCode_run : (o.run files).exitCode = 0 ↔ ∃ r, o.report files = .ok r := by
  unfold run
  cases h : o.report files with
  | ok r => exact ⟨fun _ => ⟨r, rfl⟩, fun _ => rfl⟩
  | error e => exact ⟨fun h0 => absurd h0 Nat.one_ne_zero, fun ⟨r, hr⟩ => by cases hr⟩

theorem run_of_report (h : o.report files = .ok r) : o.run files = .done r := by
  rw [run, h]

theorem exitCode_run_le_one : (o.run files).exitCode = 0 ∨ (o.run files).exitCode = 1 := by
  unfold run
  cases o.report files with
  | ok r => exact .inl rfl
  | error e => exact .inr rfl

/-! ### What each mode reports -/

theorem sendNotification_eq_ok_iff {d : Document} {c : NotificationConfig} :
    o.sendNotification d c = .ok r ↔
      ∃ n v, c.Selects o.event n ∧ Json.read (o.arguments.getD "\x7b\x7d") = .ok v ∧
        (receiversFor d o.event n.receivers).entries ≠ [] ∧
        r = Report.ofMessage ⟨c.sender, receiversFor d o.event n.receivers, n.template, v⟩ := by
  have hnotify := Notifier.notify_dry c (.ofDocument d) Graph.root o.event
  simp only [sendNotification, bind_eq_ok_iff, orFail_eq_ok_iff, hnotify]
  constructor
  · rintro ⟨v, hv, m, hm, h⟩
    rw [hm] at h
    obtain ⟨n, hn, hsomebody, rfl⟩ := (Notifier.prepare_dry_eq_ok_iff v).mp hm
    exact ⟨n, v, hn, hv, hsomebody, (Except.ok.inj h).symm⟩
  · rintro ⟨n, v, hn, hv, hsomebody, rfl⟩
    have hm := (Notifier.prepare_dry_eq_ok_iff v).mpr ⟨n, hn, hsomebody, rfl⟩
    refine ⟨v, hv, _, hm, ?_⟩
    rw [hm]
    rfl

section Modes

variable {context name text : String} {event arguments : Option String}

/-- Without sending, the receivers of the event's notification are reported. -/
theorem report_notification_iff :
    (Options.mk context (some name) none event false arguments).report files = .ok r ↔
      ∃ d c n, Finds files context name event d c n ∧
        r = ⟨(receiversFor d event n.receivers).toJson, []⟩ := by
  simp only [report, bind_eq_ok_iff, Bool.false_eq_true, if_false, notificationReceivers]
  constructor
  · rintro ⟨d, hd, c, hc, h⟩
    cases hn : c.notification? event with
    | none => simp [hn] at h
    | some n =>
      rw [hn] at h
      exact ⟨d, c, n, ⟨hd, hc, NotificationConfig.selects_iff.mpr hn⟩, (Except.ok.inj h).symm⟩
  · rintro ⟨d, c, n, ⟨hd, hc, hn⟩, rfl⟩
    refine ⟨d, hd, c, hc, ?_⟩
    rw [NotificationConfig.selects_iff.mp hn]

/-- Given receivers are reported as they come out, whatever the event is. -/
theorem report_receivers_iff {send : Bool} :
    (Options.mk context none (some text) event send arguments).report files = .ok r ↔
      ∃ d raw, loadContext files context = .ok d ∧ ReceiverConfig.read text = .ok raw ∧
        r = ⟨(receiversFor d event raw).toJson, []⟩ := by
  simp only [report, bind_eq_ok_iff, orFail_eq_ok_iff]
  constructor
  · rintro ⟨d, hd, raw, hraw, h⟩
    exact ⟨d, raw, hd, hraw, (Except.ok.inj h).symm⟩
  · rintro ⟨d, raw, hd, hraw, rfl⟩
    exact ⟨d, hd, raw, hraw, rfl⟩

/-- Sending reports the message, which went to the dry run, if somebody receives it and what fills it in
can be read. -/
theorem report_message_iff :
    (Options.mk context (some name) none event true arguments).report files = .ok r ↔
      ∃ d c n v, Finds files context name event d c n ∧ Json.read (arguments.getD "\x7b\x7d") = .ok v ∧
        (receiversFor d event n.receivers).entries ≠ [] ∧
        r = Report.ofMessage ⟨c.sender, receiversFor d event n.receivers, n.template, v⟩ := by
  simp only [report, bind_eq_ok_iff, if_true, sendNotification_eq_ok_iff]
  constructor
  · rintro ⟨d, hd, c, hc, n, v, hn, hv, hsomebody, rfl⟩
    exact ⟨d, c, n, v, ⟨hd, hc, hn⟩, hv, hsomebody, rfl⟩
  · rintro ⟨d, c, n, v, ⟨hd, hc, hn⟩, hv, hsomebody, rfl⟩
    exact ⟨d, hd, c, hc, n, v, hn, hv, hsomebody, rfl⟩

end Modes

/-- What is found is determined by the files and the command line. -/
theorem Finds.unique {context name : String} {event : Option String} {d d' : Document}
    {c c' : NotificationConfig} {n n' : Notification} (h : Finds files context name event d c n)
    (h' : Finds files context name event d' c' n') : d' = d ∧ c' = c ∧ n' = n := by
  obtain rfl : d = d' := Except.ok.inj (h.context.symm.trans h'.context)
  obtain rfl : c = c' := Except.ok.inj (h.config.symm.trans h'.config)
  have hn := NotificationConfig.selects_iff.mp h.notification
  have hn' := NotificationConfig.selects_iff.mp h'.notification
  exact ⟨rfl, rfl, Option.some.inj (hn'.symm.trans hn)⟩

end Options

open Options

variable {files : Files} {arguments : List String}

theorem runCommandLine_of_run {o : Options} (h : Request.parse? arguments = some (.run o)) :
    runCommandLine files arguments = o.run files := by
  rw [runCommandLine, h]

/-- **The modes agree.** Without sending, a run that succeeds prints the receivers of the event's
notification, and so does every run that is given receivers which read as those of the notification.
Sending succeeds if this run does, the receivers are not empty, and the arguments can be read; it then
prints the message to these receivers, the one that was sent. Otherwise it exits with 1. No run that does
not exit with 0 prints. -/
theorem modes_agree {context name : String} {event unused filling : Option String}
    {plain sending : List String}
    (hplain : Request.parse? plain = some (.run ⟨context, some name, none, event, false, unused⟩))
    (hsending : Request.parse? sending = some (.run ⟨context, some name, none, event, true, filling⟩)) :
    ((runCommandLine files plain).exitCode = 0 → ∃ d c n, Finds files context name event d c n ∧
      (runCommandLine files plain).output = (receiversFor d event n.receivers).toJson.pretty ++ "\n" ∧
      ∀ direct text event' send unused',
        Request.parse? direct = some (.run ⟨context, none, some text, event', send, unused'⟩) →
        ReceiverConfig.read text = .ok n.receivers →
        (runCommandLine files direct).exitCode = 0 ∧
          (runCommandLine files direct).output = (runCommandLine files plain).output) ∧
    ((runCommandLine files sending).exitCode = 0 ↔ (runCommandLine files plain).exitCode = 0 ∧
      (∃ d c n, Finds files context name event d c n ∧ (receiversFor d event n.receivers).entries ≠ []) ∧
      ∃ v, Json.read (filling.getD "\x7b\x7d") = .ok v) ∧
    ((runCommandLine files sending).exitCode = 0 → ∃ d c n v, Finds files context name event d c n ∧
      Json.read (filling.getD "\x7b\x7d") = .ok v ∧
      (runCommandLine files plain).output = (receiversFor d event n.receivers).toJson.pretty ++ "\n" ∧
      (runCommandLine files sending).output = (Json.obj
        [("from", c.sender.toJson), ("to", (receiversFor d event n.receivers).toJson),
          ("template", .str n.template), ("arguments", v)]).pretty ++ "\n" ∧
      (runCommandLine files sending).sent = [⟨c.sender, receiversFor d event n.receivers, n.template, v⟩]) ∧
    ((runCommandLine files sending).exitCode ≠ 0 → (runCommandLine files sending).exitCode = 1) ∧
    ∀ arguments, (runCommandLine files arguments).exitCode ≠ 0 →
      (runCommandLine files arguments).output = "" := by
  rw [runCommandLine_of_run hplain, runCommandLine_of_run hsending]
  refine ⟨fun h => ?_, ⟨fun h => ?_, fun ⟨h, hsomebody, hfilling⟩ => ?_⟩, fun h => ?_, fun h => ?_,
    fun _ => Outcome.output_of_exitCode_ne_zero⟩
  · obtain ⟨r, hr⟩ := exitCode_run.mp h
    obtain ⟨d, c, n, hfinds, rfl⟩ := report_notification_iff.mp hr
    have houtput : (Options.run ⟨context, some name, none, event, false, unused⟩ files).output =
        (receiversFor d event n.receivers).toJson.pretty ++ "\n" := by
      rw [run_of_report hr]
      rfl
    refine ⟨d, c, n, hfinds, houtput, fun direct text event' send unused' hdirect htext => ?_⟩
    have hreport : (Options.mk context none (some text) event' send unused').report files = .ok _ :=
      report_receivers_iff.mpr ⟨d, n.receivers, hfinds.context, htext, rfl⟩
    rw [runCommandLine_of_run hdirect, run_of_report hreport, run_of_report hr, receiversFor_eq,
      receiversFor_eq]
    exact ⟨rfl, rfl⟩
  · obtain ⟨r, hr⟩ := exitCode_run.mp h
    obtain ⟨d, c, n, v, hfinds, hv, hsomebody, -⟩ := report_message_iff.mp hr
    exact ⟨exitCode_run.mpr ⟨_, report_notification_iff.mpr ⟨d, c, n, hfinds, rfl⟩⟩,
      ⟨d, c, n, hfinds, hsomebody⟩, v, hv⟩
  · obtain ⟨d, c, n, hfinds, hsomebody⟩ := hsomebody
    obtain ⟨v, hv⟩ := hfilling
    exact exitCode_run.mpr ⟨_, report_message_iff.mpr ⟨d, c, n, v, hfinds, hv, hsomebody, rfl⟩⟩
  · obtain ⟨r, hr⟩ := exitCode_run.mp h
    obtain ⟨d, c, n, v, hfinds, hv, -, rfl⟩ := report_message_iff.mp hr
    refine ⟨d, c, n, v, hfinds, hv, ?_, ?_, ?_⟩
    · rw [run_of_report (report_notification_iff.mpr ⟨d, c, n, hfinds, rfl⟩)]
      rfl
    · rw [run_of_report hr]
      rfl
    · rw [run_of_report hr]
      rfl
  · exact exitCode_run_le_one.resolve_left h

/-- A context with two people. -/
def people : String :=
  "\x7b\"a\":\"x\",\"b\":\"y\"\x7d"

/-- The two of them, the second one first. -/
def peopleReceivers : ReceiverConfig :=
  .ofList [("\x7b\x7bb\x7d\x7d", "B"), ("\x7b\x7ba\x7d\x7d", "A")]

/-- A greeting for them. -/
def greeting : NotificationConfig :=
  ⟨.ofList [("s@example.com", "S")], .ofList [("default", ⟨"hello", peopleReceivers⟩)]⟩

/-- The only file holds the greeting. -/
def greetingFiles : Files := fun name =>
  if name = "greeting.json" then some (.text greeting.toJson.pretty) else none

theorem greeting_found : ∃ d, Finds greetingFiles people "greeting.json" none d greeting
    ⟨"hello", peopleReceivers⟩ ∧
      (receiversFor d none peopleReceivers).entries = [("y", "B"), ("x", "A")] := by
  have hresolved : ((loadContext (fun _ => none) people).toOption.map fun d =>
      (receiversFor d none peopleReceivers).entries) = some [("y", "B"), ("x", "A")] := by
    decide +kernel
  obtain ⟨d, hd, hentries⟩ := Option.map_eq_some_iff.mp hresolved
  have hcontext : loadContext greetingFiles people = .ok d := by
    cases h : loadContext (fun _ => none) people with
    | ok d' =>
      rw [h] at hd
      cases hd
      rw [← h, loadContext, greetingFiles, if_neg (by decide)]
      rfl
    | error e =>
      rw [h] at hd
      cases hd
  have hconfig : loadConfig greetingFiles "greeting.json" = .ok greeting := by
    have hread : NotificationConfig.read greeting.toJson.pretty = .ok greeting := by
      rw [NotificationConfig.read_pretty]
      rfl
    rw [loadConfig, greetingFiles, if_pos rfl]
    exact hread
  exact ⟨d, ⟨hcontext, hconfig, .fallback (fun _ h => by cases h) rfl⟩, hentries⟩

/-- Prints the receivers of the greeting. -/
def printLine : List String :=
  ["--context", people, "--config=greeting.json"]

/-- Sends the greeting. -/
def sendLine : List String :=
  ["--send", "--config", "greeting.json", "--context", people]

/-- Prints the same receivers without the file, and for another event. -/
def directLine : List String :=
  ["--event", "sold", "--context", people, "--receivers", peopleReceivers.toJson.pretty]

/-- The two people are printed in the order of the greeting, also without the file, and it is sent. -/
theorem greeting_modes_agree :
    Request.parse? printLine = some (.run ⟨people, some "greeting.json", none, none, false, none⟩) ∧
    Request.parse? sendLine = some (.run ⟨people, some "greeting.json", none, none, true, none⟩) ∧
    (runCommandLine greetingFiles printLine).exitCode = 0 ∧
    (runCommandLine greetingFiles printLine).output =
      (Json.obj [("y", .str "B"), ("x", .str "A")]).pretty ++ "\n" ∧
    (runCommandLine greetingFiles directLine).output = (runCommandLine greetingFiles printLine).output ∧
    (runCommandLine greetingFiles sendLine).exitCode = 0 := by
  have hplain : Request.parse? printLine =
      some (.run ⟨people, some "greeting.json", none, none, false, none⟩) := by decide +kernel
  have hsending : Request.parse? sendLine =
      some (.run ⟨people, some "greeting.json", none, none, true, none⟩) := by decide +kernel
  have hdirect : Request.parse? directLine =
      some (.run ⟨people, none, some peopleReceivers.toJson.pretty, some "sold", false, none⟩) := by
    decide +kernel
  obtain ⟨d, hfinds, hentries⟩ := greeting_found
  obtain ⟨hprints, hsends, -, -, -⟩ := modes_agree hplain hsending
  have hexit : (runCommandLine greetingFiles printLine).exitCode = 0 := by
    rw [runCommandLine_of_run hplain]
    exact exitCode_run.mpr ⟨_, report_notification_iff.mpr ⟨d, _, _, hfinds, rfl⟩⟩
  obtain ⟨d', c', n', hfinds', houtput, hsame⟩ := hprints hexit
  obtain ⟨rfl, rfl, rfl⟩ := hfinds.unique hfinds'
  refine ⟨hplain, hsending, hexit, ?_, (hsame _ _ _ _ _ hdirect peopleReceivers.read_pretty).2, ?_⟩
  · rw [houtput, OrderedMap.toJson, hentries]
    rfl
  · refine hsends.mpr ⟨hexit, ⟨_, _, _, hfinds, ?_⟩, .obj [], rfl⟩
    rw [hentries]
    exact List.cons_ne_nil _ _

end Recipients
