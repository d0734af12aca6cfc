/-
# One run of the command line

A run reads the context, then what to resolve, and prints the result with one entry a line. The context
is the text of a file if there is one of that name, and the given text itself otherwise. With a
configuration file it prints the receivers of the event's notification, or, when told to send, the whole
message, which goes to a dry run; with receivers it prints them resolved. Only one determiner, which
takes every pair, is asked. A page that was asked for is printed as it is.

Key definitions: `FileEntry`, `Files`, `Report`, `Outcome`, `Options.run`, `runCommandLine`.
-/
import Recipients.CommandLine.Options
import Recipients.Json.Printer
import Recipients.Notification.ConfigReader
import Recipients.Notification.Notifier
import Recipients.Policy.Standard

namespace Recipients

/-- A file: its text, or that it cannot be read as text. -/
inductive FileEntry where
  | text (content : String)
  | unreadable

/-- The files by name. -/
abbrev Files : Type := String → Option FileEntry

/-- What a run that succeeds has to print, and the messages it handed to the dry run. -/
structure Report where
  value : Json
  sent : List Message

/-- How a run ends: with a report, with a failure, or at once with a page or for wrong usage. -/
inductive Outcome where
  | done (report : Report)
  | failed (cause : Failure)
  | page (page : Page)
  | wrongUsage

namespace Outcome

/-- The exit code. -/
def exitCode : Outcome → Nat
  | done _ => 0
  | failed _ => 1
  | page _ => 0
  | wrongUsage => 2

/-- What goes to the standard output: the value with one entry a line, the page, or nothing. -/
def output : Outcome → String
  | done report => report.value.pretty ++ "\n"
  | page p => p.text
  | _ => ""

/-- The messages that were handed to the dry run. -/
def sent : Outcome → List Message
  | done report => report.sent
  | _ => []

/-- What is reported as the failure, if there is one. -/
def failure? : Outcome → Option Failure
  | failed cause => some cause
  | _ => none

end Outcome

/-- Gives the fault of a text the form of a failure. -/
def orFail {α : Type} : Except ReadError α → Except Failure α
  | .ok a => .ok a
  | .error e => .error (.json e)

/-- The document of the context: the file of that name, or the text itself. -/
def loadContext (files : Files) (context : String) : Except Failure Document :=
  match files context with
  | some (.text content) => orFail (Document.read content)
  | some .unreadable => .error (.io "the context file cannot be read")
  | none => orFail (Document.read context)

/-- The configuration in a file. -/
def loadConfig (files : Files) (name : String) : Except Failure NotificationConfig :=
  match files name with
  | some (.text content) => NotificationConfig.read content
  | _ => .error (.io "the configuration file cannot be read")

namespace Options

/-- Sends the event's notification to a dry run and reports the message. -/
def sendNotification (o : Options) (d : Document) (c : NotificationConfig) : Except Failure Report := do
  let arguments ← orFail (Json.read (o.arguments.getD "\x7b\x7d"))
  let notifier : Notifier := ⟨.standard, 0, c, .dryRun []⟩
  let (answer, notifier) := notifier.notify (.ofDocument d) Graph.root o.event arguments
  let m ← answer
  return ⟨m.toJson, notifier.mailer.sent⟩

/-- Reports the receivers of the event's notification. -/
def notificationReceivers (o : Options) (d : Document) (c : NotificationConfig) :
    Except Failure Report :=
  match c.notification? o.event with
  | none => .error (.unknownEvent (o.event.getD defaultEvent))
  | some n => .ok ⟨(receiversFor d o.event n.receivers).toJson, []⟩

/-- The report of the run. -/
def report (o : Options) (files : Files) : Except Failure Report := do
  let d ← loadContext files o.context
  match o.config, o.receivers with
  | some name, _ =>
    let c ← loadConfig files name
    if o.send then o.sendNotification d c else o.notificationReceivers d c
  | none, some text =>
    let raw ← orFail (ReceiverConfig.read text)
    return ⟨(receiversFor d o.event raw).toJson, []⟩
  | none, none => .error (.config .nothingToResolve)

/-- Runs the options. -/
def run (o : Options) (files : Files) : Outcome :=
  match o.report files with
  | .ok report => .done report
  | .error e => .failed e

end Options

/-- Runs a command line. -/
def runCommandLine (files : Files) (arguments : List String) : Outcome :=
  match Request.parse? arguments with
  | some (.run o) => o.run files
  | some (.page p) => .page p
  | none => .wrongUsage

end Recipients
