/-
# Calls of one notifier

A notifier is used for many calls, each about an object, an event and arguments, to prepare a message or
also to send it. What goes on from call to call is the mailer, and what the policies and the documents
remember of names.

Key definitions: `NotifierCall`, `Notifier.prepareCached`, `Notifier.callCached`, `Notifier.runCached`,
`NotifierRun`.
-/
import Recipients.Notification.Notifier
import Recipients.Policy.Caches

namespace Recipients

/-- A call to prepare a message, or also to send it. -/
structure NotifierCall where
  sends : Bool
  object : ObjectRef
  event : Option String
  arguments : Json

/-- The answers of a run in order, and the notifier and the tables after it. -/
structure NotifierRun where
  answers : List (Except Failure Message)
  notifier : Notifier
  caches : PolicyCaches

namespace Notifier

variable (n : Notifier) (g : Graph)

/-- Puts the message for a call together. -/
def prepareCached (call : NotifierCall) (c : PolicyCaches) : Except Failure Message × PolicyCaches :=
  match n.config.notification? call.event with
  | none => (.error (.unknownEvent (call.event.getD defaultEvent)), c)
  | some notification =>
    let asked :=
      n.registry.receiversCached g call.object call.event n.policy notification.receivers c
    (n.compose call.event notification asked.1 call.arguments, asked.2)

/-- Answers one call. -/
def callCached (call : NotifierCall) (c : PolicyCaches) :
    Except Failure Message × Notifier × PolicyCaches :=
  let prepared := n.prepareCached g call c
  if call.sends then
    let delivered := n.deliver prepared.1
    (delivered.1, delivered.2, prepared.2)
  else (prepared.1, n, prepared.2)

end Notifier

/-- Answers calls one after the other. -/
def Notifier.runCached (g : Graph) : Notifier → PolicyCaches → List NotifierCall → NotifierRun
  | n, c, [] => ⟨[], n, c⟩
  | n, c, call :: calls =>
    let answered := n.callCached g call c
    let rest := runCached g answered.2.1 answered.2.2 calls
    ⟨answered.1 :: rest.answers, rest.notifier, rest.caches⟩

end Recipients
