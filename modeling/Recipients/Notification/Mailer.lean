/-
# Messages and mailers

A message is what a transport needs to render and send one notification. A mailer is handed messages: a
dry run keeps them in the order in which they were sent; any other transport takes or refuses each of
them by a rule of its own, which may look at what it was handed before. A broken transport refuses every
message.

Key definitions: `Message`, `Message.toJson`, `Mailer`, `Mailer.refusal?`, `Mailer.hand`, `Mailer.sent`.
-/
import Recipients.Notification.Config

namespace Recipients

/-- Who sends, to whom, which template, and what fills it in. -/
structure Message where
  sender : OrderedMap String
  receivers : Receivers
  template : String
  arguments : Json

/-- The message as an object. -/
def Message.toJson (m : Message) : Json :=
  .obj [("from", m.sender.toJson), ("to", m.receivers.toJson), ("template", .str m.template),
    ("arguments", m.arguments)]

/-- A dry run with the messages it was given, or a transport with its rule and what it was handed. -/
inductive Mailer where
  | dryRun (sent : List Message)
  | transport (refuses : List Message → Message → Option Failure) (handed : List Message)

namespace Mailer

/-- A transport that fails for a reason. -/
def broken (reason : String) : Mailer :=
  .transport (fun _ _ => some (.transport reason)) []

/-- Why the mailer refuses the message, if it does. -/
def refusal? : Mailer → Message → Option Failure
  | dryRun _, _ => none
  | transport refuses handed, m => refuses handed m

/-- The mailer that was handed the message. -/
def hand (mailer : Mailer) (m : Message) : Mailer :=
  match mailer with
  | dryRun sent => dryRun (sent ++ [m])
  | transport refuses handed => transport refuses (handed ++ [m])

/-- The messages that a dry run has sent so far, in order; nobody can see into another transport. -/
def sent : Mailer → List Message
  | dryRun sent => sent
  | transport _ _ => []

end Mailer

end Recipients
