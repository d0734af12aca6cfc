/-
# Notifying

A notifier prepares the message for an event: it looks the event's notification up, asks its policy for
the receivers, and puts the message together. The policy is asked about the event that was given, also
when the default notification stands in for it. An event without a notification, and one without any
receiver, are failures, in this order. Notifying prepares the message and delivers it; only a message
that was prepared is handed to the mailer, and the mailer may refuse it.

Key definitions: `Notifier`, `Notifier.compose`, `Notifier.prepare`, `Notifier.deliver`,
`Notifier.notify`.
-/
import Recipients.Notification.Mailer
import Recipients.Policy.Dispatch

namespace Recipients

/-- A policy of a registry, a configuration and a mailer. -/
structure Notifier where
  registry : Registry
  policy : PolicyId
  config : NotificationConfig
  mailer : Mailer

namespace Notifier

/-- Puts the message of a notification together once its receivers are known. -/
def compose (n : Notifier) (event : Option String) (notification : Notification)
    (receivers : Receivers) (arguments : Json) : Except Failure Message :=
  if receivers.isEmpty then .error (.noReceivers (event.getD defaultEvent))
  else .ok ⟨n.config.sender, receivers, notification.template, arguments⟩

/-- Puts the message for an event together. -/
def prepare (n : Notifier) (g : Graph) (object : ObjectRef) (event : Option String)
    (arguments : Json) : Except Failure Message :=
  match n.config.notification? event with
  | none => .error (.unknownEvent (event.getD defaultEvent))
  | some notification =>
    let receivers := n.registry.receivers g object event n.policy notification.receivers
    n.compose event notification receivers arguments

/-- Hands a message that was prepared to the mailer, and answers it unless the mailer refuses it. -/
def deliver (n : Notifier) : Except Failure Message → Except Failure Message × Notifier
  | .error e => (.error e, n)
  | .ok m =>
    let after := { n with mailer := n.mailer.hand m }
    match n.mailer.refusal? m with
    | some e => (.error e, after)
    | none => (.ok m, after)

/-- Prepares the message for an event and sends it. -/
def notify (n : Notifier) (g : Graph) (object : ObjectRef) (event : Option String)
    (arguments : Json) : Except Failure Message × Notifier :=
  n.deliver (n.prepare g object event arguments)

end Notifier

end Recipients
