/-
# Reading a configuration

A configuration is read off its text as the text goes, so the first thing wrong in reading order is the
one reported: a value of the wrong type is named once it has been read, and a repeated field as soon as
its key has been. A record is written as an object, in which fields of other names are passed over, or
as an array of its fields in order. A notification must have a template; any other field may be left
out and is then empty.

Key definitions: `readText`, `readMap`, `readNotification`, `readDefinitions`,
`NotificationConfig.read`, `ReceiverConfig.read`.
-/
import Recipients.Json.Reader
import Recipients.Notification.Config

namespace Recipients

open Json (skipBlank readString readScalar readSequence readList readKey readColon readMember skipValue
  readWhole)

variable {α : Type}

/-! ### Texts and maps -/

/-- The error for a value of another type than expected, which is read first unless it is a container. -/
def wrongType (expected : Shape) : List Char → ReadError
  | '[' :: _ => .mismatch (.wrongType .sequence expected)
  | '\x7b' :: _ => .mismatch (.wrongType .map expected)
  | cs =>
    match readScalar cs with
    | .error e => e
    | .ok (.bool b, _) => .mismatch (.wrongType (.bool b) expected)
    | .ok (.num n, _) => .mismatch (.wrongType (.number n) expected)
    | .ok (.str s, _) => .mismatch (.wrongType (.text s) expected)
    | .ok _ => .mismatch (.wrongType .null expected)

/-- Reads a string. -/
def readText : Reader String := fun cs =>
  match skipBlank cs with
  | '"' :: rest => readString rest
  | cs => .error (wrongType .text cs)

/-- Reads a map, entry by entry, with repeated keys. -/
def readMap (value : Reader α) : Reader (List (String × α)) := fun cs =>
  match skipBlank cs with
  | '\x7b' :: rest => readList '\x7d' (readMember value) rest
  | cs => .error (wrongType .map cs)

/-! ### Records -/

/-- Reads the value of a field that must not have been read before. -/
def readField (name : String) (value : Reader α) (known : Option α) : Reader (Option α) := fun cs =>
  match known with
  | some _ => .error (.mismatch (.repeatedField name))
  | none => do
    let cs ← readColon cs
    let (v, cs) ← value cs
    return (some v, cs)

/-- Passes over a field that the record does not have. -/
def skipField : List Char → Except ReadError (List Char) := fun cs => do
  let cs ← readColon cs
  let (_, cs) ← skipValue cs
  return cs

/-- Reads a field of a record with two fields, and carries the values read so far. -/
def readPairField {β : Type} (first : String) (readFirst : Reader α) (second : String)
    (readSecond : Reader β) (known : Option α × Option β) : Reader (Option α × Option β) := fun cs => do
  let (key, cs) ← readKey cs
  if key = first then
    let (v, cs) ← readField first readFirst known.1 cs
    return ((v, known.2), cs)
  else if key = second then
    let (v, cs) ← readField second readSecond known.2 cs
    return ((known.1, v), cs)
  else
    let cs ← skipField cs
    return (known, cs)

/-- Reads the next element of a record written as an array, unless the array ends. -/
def readElement (value : Reader α) (isFirst : Bool) : Reader (Option α) := fun cs =>
  match skipBlank cs with
  | [] => .error .cutShort
  | c :: rest =>
    if c = ']' then .ok (none, c :: rest)
    else if isFirst then (value (c :: rest)).map fun r => (some r.1, r.2)
    else if c = ',' then
      match skipBlank rest with
      | [] => .error .cutShort
      | c :: rest =>
        if c = ']' then .error .malformed else (value (c :: rest)).map fun r => (some r.1, r.2)
    else .error .malformed

/-- Reads the bracket that closes a record written as an array. -/
def readClose : List Char → Except ReadError (List Char) := fun cs =>
  match skipBlank cs with
  | [] => .error .cutShort
  | c :: rest => if c = ']' then .ok rest else .error .malformed

/-- Reads a record with two fields. `complete` makes the record of the values that were written, given
the error to report if the first is missing. -/
def readPair {β γ : Type} (name first : String) (readFirst : Reader α) (second : String)
    (readSecond : Reader β) (complete : ReadError → Option α → Option β → Except ReadError γ) :
    Reader γ := fun cs =>
  match skipBlank cs with
  | '[' :: cs => do
    let (a, cs) ← readElement readFirst true cs
    let (b, cs) ← readElement readSecond false cs
    let record ← complete (.mismatch (.tooFewElements 0 (.record name) 2)) a b
    let cs ← readClose cs
    return (record, cs)
  | '\x7b' :: cs => do
    let (parts, cs) ←
      readSequence '\x7d' (readPairField first readFirst second readSecond) (none, none) cs
    let record ← complete (.mismatch (.missingField first)) parts.1 parts.2
    return (record, cs)
  | cs => .error (wrongType (.record name) cs)

/-- Reads a notification. -/
def readNotification : Reader NotificationDefinition :=
  readPair "Notification" "template" readText "receivers" (readMap readText)
    fun missing template receivers =>
      match template with
      | some template => .ok ⟨template, receivers.getD []⟩
      | none => .error missing

/-- Reads a configuration as it is written down. -/
def readDefinitions : Reader Definitions :=
  readPair "NotificationConfig" "sender" (readMap readText) "notifications"
    (readMap readNotification)
    fun _ sender notifications => .ok ⟨sender.getD [], notifications.getD []⟩

/-- Reads a text as definitions. -/
def Definitions.read (text : String) : Except ReadError Definitions :=
  readWhole readDefinitions text

namespace NotificationConfig

/-- Accepts a configuration that is valid. -/
def validate (c : NotificationConfig) : Except Failure NotificationConfig :=
  match c.fault? with
  | some fault => .error (.config fault)
  | none => .ok c

/-- Reads a text as a configuration, which must be valid. -/
def read (text : String) : Except Failure NotificationConfig :=
  match Definitions.read text with
  | .error e => .error (.json e)
  | .ok definitions => definitions.collect.validate

end NotificationConfig

/-- Reads a text as a receiver configuration. -/
def ReceiverConfig.read (text : String) : Except ReadError ReceiverConfig :=
  (readWhole (readMap readText) text).map .ofList

end Recipients
