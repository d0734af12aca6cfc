/-
# Notification configurations

A configuration names the sender and, for each event, a template and a receiver configuration. The event
`default` stands in for every event without an entry of its own, and for no event. A configuration is
valid if it names a sender and no template is blank.

As it is written down, a configuration is a list of definitions, in which names may be repeated; each
name then stands where it first comes, with its last definition.

Key definitions: `Notification`, `NotificationConfig`, `Definitions`, `Definitions.collect`,
`NotificationConfig.fault?`, `NotificationConfig.notification?`, `NotificationConfig.toJson`.
-/
import Recipients.Failure
import Recipients.Text.Blank

namespace Recipients

/-- A template, and whom to send it to. -/
structure Notification where
  template : String
  receivers : ReceiverConfig

/-- Who sends, and the notifications by event. -/
structure NotificationConfig where
  sender : OrderedMap String
  notifications : OrderedMap Notification

/-- A notification as it is written down. -/
structure NotificationDefinition where
  template : String
  receivers : List (String × String)

/-- A configuration as it is written down. -/
structure Definitions where
  sender : List (String × String)
  notifications : List (String × NotificationDefinition)

/-- The notification that a definition describes. -/
def NotificationDefinition.collect (n : NotificationDefinition) : Notification :=
  ⟨n.template, .ofList n.receivers⟩

/-- The configuration that the definitions describe. -/
def Definitions.collect (d : Definitions) : NotificationConfig :=
  ⟨.ofList d.sender, .ofList (d.notifications.map fun e => (e.1, e.2.collect))⟩

/-- The event that stands in for the others. -/
def defaultEvent : String := "default"

namespace NotificationConfig

/-- What makes the configuration invalid: that there is no sender, or else the first event with a blank
template. -/
def fault? (c : NotificationConfig) : Option ConfigFault :=
  if c.sender.isEmpty then some .noSender
  else
    (c.notifications.entries.find? fun e => Text.isBlankText e.2.template).map fun e =>
      .noTemplate e.1

/-- The notification for an event, or for none: its own, or else the default. -/
def notification? (c : NotificationConfig) (event : Option String) : Option Notification :=
  (event.bind c.notifications.get?).or (c.notifications.get? defaultEvent)

end NotificationConfig

/-- An object whose members are texts, in the order of the map. -/
def OrderedMap.toJson (m : OrderedMap String) : Json :=
  .obj (m.entries.map fun e => (e.1, .str e.2))

/-- The notification as an object. -/
def Notification.toJson (n : Notification) : Json :=
  .obj [("template", .str n.template), ("receivers", n.receivers.toJson)]

/-- The configuration as an object. -/
def NotificationConfig.toJson (c : NotificationConfig) : Json :=
  .obj [("sender", c.sender.toJson),
    ("notifications", .obj (c.notifications.entries.map fun e => (e.1, e.2.toJson)))]

end Recipients
