/-
# Repeated definitions

A text may define an address, an event or a receiver more than once. The configuration that is read from
it lists each name once, where the name is first defined, with its last definition, and only these count
for the check: a blank template that is defined again is no fault, and of the events that are left with a
blank template the one that is first defined is reported.

Key definitions: `LastGiven`, `KeepsLast`, `Definitions.Describes`, `Definitions.EndsBlank`,
`Definitions.FirstBlank`, `Definitions.Selects`.
Key theorems: `keepsLast_ofList`, `Definitions.describes_iff`, `Definitions.Describes.find?_blank_iff`,
`Definitions.Describes.notification?_eq_some_iff`, `ConfigFault.message_injective`,
`NotificationConfig.last_definitions_stand`.
-/
import Recipients.Proofs.Notification.ConfigText
import Recipients.Proofs.Notification.Runs

namespace Recipients

variable {α β : Type}

/-! ### The last value of each name -/

/-- The pairs give the name this value, and no other value after it. -/
def LastGiven (pairs : List (String × α)) (name : String) (value : α) : Prop :=
  ∃ before after, pairs = before ++ (name, value) :: after ∧ ∀ e ∈ after, e.1 ≠ name

/-- Where the name first comes in the pairs. -/
def firstPlace (pairs : List (String × α)) (name : String) : Nat :=
  (pairs.map Prod.fst).idxOf name

/-- The map lists the names of the pairs, each once and in the order in which they first come. What it has
for a name is what the last value of the name describes. -/
structure KeepsLast (Describes : α → β → Prop) (pairs : List (String × α)) (m : OrderedMap β) : Prop where
  mem_keys_iff : ∀ name, name ∈ m.keys ↔ name ∈ pairs.map Prod.fst
  ordered : m.keys.Pairwise fun j k => firstPlace pairs j < firstPlace pairs k
  get?_iff : ∀ name b, m.get? name = some b ↔ ∃ a, LastGiven pairs name a ∧ Describes a b

/-- The last value of a name is last among the images, too. -/
theorem lastGiven_map_iff {f : α → β} {pairs : List (String × α)} {name : String} {b : β} :
    LastGiven (pairs.map fun e => (e.1, f e.2)) name b ↔ ∃ a, LastGiven pairs name a ∧ b = f a := by
  constructor
  · rintro ⟨before, after, he, hlast⟩
    obtain ⟨bs, rest, rfl, rfl, hrest⟩ := List.map_eq_append_iff.mp he
    obtain ⟨e, as, rfl, hhead, rfl⟩ := List.map_eq_cons_iff.mp hrest
    obtain ⟨rfl, rfl⟩ := Prod.mk.inj hhead
    exact ⟨e.2, ⟨bs, as, rfl, fun e' h => hlast _ (List.mem_map_of_mem h)⟩, rfl⟩
  · rintro ⟨a, ⟨before, after, rfl, hlast⟩, rfl⟩
    refine ⟨_, _, List.map_append, fun e h => ?_⟩
    obtain ⟨e', h', rfl⟩ := List.mem_map.mp h
    exact hlast e' h'

/-- Writing the images of the pairs one after the other keeps the last one of each name. -/
theorem keepsLast_ofList {Describes : α → β → Prop} {f : α → β}
    (h : ∀ a b, Describes a b ↔ b = f a) (pairs : List (String × α)) :
    KeepsLast Describes pairs (.ofList (pairs.map fun e => (e.1, f e.2))) := by
  have hnames : (pairs.map fun e => (e.1, f e.2)).map Prod.fst = pairs.map Prod.fst := by
    rw [List.map_map]
    rfl
  refine ⟨fun name => ?_, ?_, fun name b => ?_⟩
  · rw [OrderedMap.mem_keys_ofList, hnames]
  · have hordered := OrderedMap.pairwise_keys_ofList (pairs.map fun e => (e.1, f e.2))
    rwa [hnames] at hordered
  · simp only [h]
    exact OrderedMap.get?_ofList_eq_some_iff.trans lastGiven_map_iff

namespace KeepsLast

variable {Describes : α → β → Prop} {pairs : List (String × α)} {m : OrderedMap β}

/-- There is no other map that does. -/
theorem unique (hm : KeepsLast Describes pairs m) {n : OrderedMap β} (hn : KeepsLast Describes pairs n) :
    n = m := by
  refine OrderedMap.eq_of_get? (firstPlace pairs) hn.ordered hm.ordered fun name => ?_
  ext b
  rw [hn.get?_iff, hm.get?_iff]

theorem entries_eq_nil_iff (h : KeepsLast Describes pairs m) : m.entries = [] ↔ pairs = [] := by
  have hkeys : m.keys = [] ↔ pairs.map Prod.fst = [] := by
    simp only [List.eq_nil_iff_forall_not_mem, h.mem_keys_iff]
  simpa only [OrderedMap.keys, List.map_eq_nil_iff] using hkeys

/-- A map has no value for the names that are not given. -/
theorem get?_eq_none_iff (h : KeepsLast Describes pairs m) {name : String} :
    m.get? name = none ↔ name ∉ pairs.map Prod.fst := by
  rw [← h.mem_keys_iff, OrderedMap.mem_keys_iff, ← Option.isSome_iff_exists,
    Option.not_isSome_iff_eq_none]

end KeepsLast

/-! ### What definitions describe -/

/-- The notification has the template of the definition and its receivers, each with its last name. -/
structure NotificationDefinition.Describes (n : NotificationDefinition) (m : Notification) : Prop where
  template : m.template = n.template
  receivers : KeepsLast (fun a b => b = a) n.receivers m.receivers

/-- The configuration has the addresses of the sender and the events, each with its last definition. -/
structure Definitions.Describes (d : Definitions) (c : NotificationConfig) : Prop where
  sender : KeepsLast (fun a b => b = a) d.sender c.sender
  notifications : KeepsLast NotificationDefinition.Describes d.notifications c.notifications

theorem keepsLast_texts (pairs : List (String × String)) :
    KeepsLast (fun a b => b = a) pairs (.ofList pairs) := by
  have h : KeepsLast (fun a b => b = a) pairs (.ofList (pairs.map fun e => (e.1, id e.2))) :=
    keepsLast_ofList (fun _ _ => Iff.rfl) pairs
  rwa [show (pairs.map fun e => (e.1, id e.2)) = pairs from List.map_id _] at h

theorem NotificationDefinition.describes_iff (n : NotificationDefinition) (m : Notification) :
    n.Describes m ↔ m = n.collect := by
  constructor
  · intro h
    obtain ⟨template, receivers⟩ := m
    obtain rfl : template = n.template := h.template
    obtain rfl : receivers = .ofList n.receivers := (keepsLast_texts n.receivers).unique h.receivers
    rfl
  · rintro rfl
    exact ⟨rfl, keepsLast_texts n.receivers⟩

theorem NotificationDefinition.describes_collect (n : NotificationDefinition) : n.Describes n.collect :=
  (n.describes_iff _).mpr rfl

/-- Definitions describe one configuration: the one that is collected from them. -/
theorem Definitions.describes_iff (d : Definitions) (c : NotificationConfig) :
    d.Describes c ↔ c = d.collect := by
  have hnotifications : KeepsLast NotificationDefinition.Describes d.notifications d.collect.notifications :=
    keepsLast_ofList NotificationDefinition.describes_iff d.notifications
  constructor
  · intro h
    obtain ⟨sender, notifications⟩ := c
    obtain rfl : sender = d.collect.sender := (keepsLast_texts d.sender).unique h.sender
    obtain rfl : notifications = d.collect.notifications := hnotifications.unique h.notifications
    rfl
  · rintro rfl
    exact ⟨keepsLast_texts d.sender, hnotifications⟩

namespace Definitions

theorem describes_collect (d : Definitions) : d.Describes d.collect :=
  (d.describes_iff _).mpr rfl

/-- The last definition of the event has a blank template. -/
def EndsBlank (d : Definitions) (event : String) : Prop :=
  ∃ n, LastGiven d.notifications event n ∧ Text.isBlankText n.template = true

/-- Of the events that end blank, this one is defined first. -/
def FirstBlank (d : Definitions) (event : String) : Prop :=
  d.EndsBlank event ∧
    ∀ other, d.EndsBlank other → firstPlace d.notifications event ≤ firstPlace d.notifications other

/-- The definition stands for the event: its own last one if it has any, or else the last one of the
event that stands in for the others. -/
inductive Selects (d : Definitions) : Option String → NotificationDefinition → Prop
  | own {event n} : LastGiven d.notifications event n → Selects d (some event) n
  | fallback {event n} : (∀ name, event = some name → name ∉ d.notifications.map Prod.fst) →
      LastGiven d.notifications "default" n → Selects d event n

namespace Describes

variable {d : Definitions} {c : NotificationConfig}

theorem endsBlank_iff (h : d.Describes c) {event : String} :
    d.EndsBlank event ↔
      ∃ m, (event, m) ∈ c.notifications.entries ∧ Text.isBlankText m.template = true := by
  simp only [← OrderedMap.get?_eq_some_iff, h.notifications.get?_iff]
  constructor
  · rintro ⟨n, hlast, hblank⟩
    exact ⟨n.collect, ⟨n, hlast, n.describes_collect⟩, hblank⟩
  · rintro ⟨m, ⟨n, hlast, hm⟩, hblank⟩
    exact ⟨n, hlast, hm.template ▸ hblank⟩

/-- The first blank template of the configuration is the one of the event that is defined first among
those that end blank. -/
theorem find?_blank_iff (h : d.Describes c) {event : String} :
    (∃ m, (c.notifications.entries.find? fun e => Text.isBlankText e.2.template) = some (event, m)) ↔
      d.FirstBlank event := by
  have hordered := h.notifications.ordered
  rw [OrderedMap.keys, List.pairwise_map] at hordered
  have hfirst := fun m => OrderedMap.find?_eq_some_iff_least
    (fun e e' => firstPlace d.notifications e.1 ≤ firstPlace d.notifications e'.1)
    (p := fun e => Text.isBlankText e.2.template) (a := (event, m)) (fun _ => Nat.le_refl _)
    (hordered.imp fun hlt => ⟨Nat.le_of_lt hlt, fun hle => absurd hlt (Nat.not_lt.mpr hle)⟩)
  rw [FirstBlank, h.endsBlank_iff, exists_congr hfirst]
  constructor
  · rintro ⟨m, hm, hleast⟩
    refine ⟨⟨m, hm⟩, fun other hother => ?_⟩
    obtain ⟨m', hm'⟩ := h.endsBlank_iff.mp hother
    exact hleast (other, m') hm'
  · rintro ⟨⟨m, hm⟩, hleast⟩
    exact ⟨m, hm, fun e he => hleast e.1 (h.endsBlank_iff.mpr ⟨e.2, he⟩)⟩

/-- Some event is the first to end blank if any ends blank. -/
theorem exists_firstBlank_iff (h : d.Describes c) :
    (∃ event, d.FirstBlank event) ↔ ∃ event, d.EndsBlank event := by
  simp only [← h.find?_blank_iff, h.endsBlank_iff]
  have hfound : (∃ e, (c.notifications.entries.find? fun e => Text.isBlankText e.2.template) = some e) ↔
      ∃ e, e ∈ c.notifications.entries ∧ Text.isBlankText e.2.template = true :=
    Option.isSome_iff_exists.symm.trans List.find?_isSome
  simpa only [Prod.exists] using hfound

/-- What the configuration has for an event is described by the definition that stands for it. -/
theorem notification?_eq_some_iff (h : d.Describes c) {event : Option String} {m : Notification} :
    c.notification? event = some m ↔ ∃ n, d.Selects event n ∧ n.Describes m := by
  rw [← NotificationConfig.selects_iff]
  constructor
  · rintro (hown | ⟨hnone, hdefault⟩)
    · obtain ⟨n, hlast, hm⟩ := (h.notifications.get?_iff _ _).mp hown
      exact ⟨n, .own hlast, hm⟩
    · obtain ⟨n, hlast, hm⟩ := (h.notifications.get?_iff _ _).mp hdefault
      exact ⟨n, .fallback (fun name hname => h.notifications.get?_eq_none_iff.mp (hnone name hname)) hlast,
        hm⟩
  · rintro ⟨n, (hlast | ⟨hnone, hlast⟩), hm⟩
    · exact .own ((h.notifications.get?_iff _ _).mpr ⟨n, hlast, hm⟩)
    · exact .fallback (fun name hname => h.notifications.get?_eq_none_iff.mpr (hnone name hname))
        ((h.notifications.get?_iff _ _).mpr ⟨n, hlast, hm⟩)

/-- It has nothing if no definition stands for the event. -/
theorem notification?_eq_none_iff (h : d.Describes c) {event : Option String} :
    c.notification? event = none ↔ ∀ n, ¬ d.Selects event n := by
  rw [Option.eq_none_iff_forall_ne_some]
  constructor
  · intro hnone n hn
    exact hnone n.collect (h.notification?_eq_some_iff.mpr ⟨n, hn, n.describes_collect⟩)
  · intro hnone m hm
    obtain ⟨n, hn, -⟩ := h.notification?_eq_some_iff.mp hm
    exact hnone n hn

end Describes

end Definitions

/-! ### What is wrong with a configuration -/

namespace ConfigFault

theorem message_noTemplate (event : String) :
    (noTemplate event).message = "notification `" ++ event ++ "` has no template" := rfl

/-- The character that a message begins with tells which fault it is. -/
theorem head_message (fault : ConfigFault) : fault.message.toList.head? = some (match fault with
    | .noSender => 's'
    | .noTemplate _ => 'n'
    | .nothingToResolve => 'e') := by
  cases fault with
  | noSender => rfl
  | noTemplate event =>
    rw [message_noTemplate, String.toList_append, String.toList_append, List.append_assoc]
    rfl
  | nothingToResolve => rfl

theorem eq_of_message_noTemplate {a b : String} (h : (noTemplate a).message = (noTemplate b).message) :
    a = b := by
  rw [message_noTemplate, message_noTemplate, ← String.toList_inj] at h
  simp only [String.toList_append, List.append_cancel_left_eq, List.append_cancel_right_eq] at h
  exact String.toList_inj.mp h

/-- Different faults have different messages. -/
theorem message_injective : Function.Injective message := by
  intro a b h
  have hhead : a.message.toList.head? = b.message.toList.head? := by rw [h]
  rw [head_message, head_message] at hhead
  cases a with
  | noTemplate event =>
    cases b with
    | noTemplate other => rw [eq_of_message_noTemplate h]
    | noSender | nothingToResolve => exact absurd hhead (by simp)
  | noSender | nothingToResolve =>
    cases b with
    | noTemplate other => exact absurd hhead (by simp)
    | noSender | nothingToResolve => first | rfl | exact absurd hhead (by simp)

end ConfigFault

namespace NotificationConfig

variable {c : NotificationConfig}

theorem fault?_eq_noSender_iff : c.fault? = some .noSender ↔ c.sender.entries = [] := by
  rw [fault?, OrderedMap.isEmpty]
  cases c.sender.entries <;> simp

theorem fault?_eq_noTemplate_iff {event : String} :
    c.fault? = some (.noTemplate event) ↔ c.sender.entries ≠ [] ∧
      ∃ m, (c.notifications.entries.find? fun e => Text.isBlankText e.2.template) = some (event, m) := by
  rw [fault?, OrderedMap.isEmpty]
  cases c.sender.entries <;> simp

theorem fault?_eq_none_iff :
    c.fault? = none ↔ c.sender.entries ≠ [] ∧
      ∀ e ∈ c.notifications.entries, Text.isBlankText e.2.template ≠ true := by
  rw [fault?, OrderedMap.isEmpty]
  cases c.sender.entries <;> simp

/-- The text is refused for a fault of the configuration that has this message. -/
def RefusedFor (text message : String) : Prop :=
  ∃ fault, read text = .error (.config fault) ∧ fault.message = message

variable {text : String} {d : Definitions}

/-- The check of definitions that were read is the check of what they describe. -/
theorem read_of_definitions (h : Definitions.read text = .ok d) : read text = d.collect.validate := by
  rw [read, h]

theorem refusedFor_iff (h : Definitions.read text = .ok d) (fault : ConfigFault) :
    RefusedFor text fault.message ↔ d.collect.fault? = some fault := by
  simp only [RefusedFor, read_of_definitions h, validate_eq_error_iff, Failure.config.injEq]
  constructor
  · rintro ⟨other, ⟨_, hfault, rfl⟩, hmessage⟩
    rwa [ConfigFault.message_injective hmessage] at hfault
  · intro hfault
    exact ⟨fault, ⟨fault, hfault, rfl⟩, rfl⟩

/-- **The last definition of a name stands, in the place of its first.** A text that is read as
definitions is refused for lack of a sender if no address is defined, and otherwise for the first event
whose last definition has a blank template. Otherwise it is accepted: the configuration lists each
address, each event and each receiver of an event once, in the order in which the names first come, with
the last definition of each. For an event it has the last definition of that event if there is any, and
else, as without an event, the last one of `default`, or nothing. -/
theorem last_definitions_stand (h : Definitions.read text = .ok d) :
    (RefusedFor text "sender must not be empty" ↔ d.sender = []) ∧
    (∀ event, RefusedFor text ("notification `" ++ event ++ "` has no template") ↔
      d.sender ≠ [] ∧ d.FirstBlank event) ∧
    ((∃ event, d.FirstBlank event) ↔ ∃ event, d.EndsBlank event) ∧
    ((∃ c, read text = .ok c) ↔ d.sender ≠ [] ∧ ∀ event, ¬ d.EndsBlank event) ∧
    ∀ c, read text = .ok c → d.Describes c ∧ ∀ event,
      (∀ m, c.notification? event = some m ↔ ∃ n, d.Selects event n ∧ n.Describes m) ∧
      (c.notification? event = none ↔ ∀ n, ¬ d.Selects event n) := by
  have hd : d.Describes d.collect := d.describes_collect
  have hsender : d.collect.sender.entries = [] ↔ d.sender = [] := hd.sender.entries_eq_nil_iff
  have hblank : (∀ e ∈ d.collect.notifications.entries, Text.isBlankText e.2.template ≠ true) ↔
      ∀ event, ¬ d.EndsBlank event := by
    simp only [hd.endsBlank_iff, not_exists, not_and, Prod.forall]
  refine ⟨?_, fun event => ?_, hd.exists_firstBlank_iff, ?_, fun c hc => ?_⟩
  · rw [← hsender, ← fault?_eq_noSender_iff]
    exact refusedFor_iff h .noSender
  · rw [← hd.find?_blank_iff, Ne, ← hsender, ← Ne, ← fault?_eq_noTemplate_iff]
    exact refusedFor_iff h (.noTemplate event)
  · simp only [read_of_definitions h, validate_eq_ok_iff, exists_eq_left]
    rw [fault?_eq_none_iff, Ne, hsender, hblank]
  · rw [read_of_definitions h, validate_eq_ok_iff] at hc
    obtain ⟨rfl, -⟩ := hc
    exact ⟨hd, fun event => ⟨fun m => hd.notification?_eq_some_iff, hd.notification?_eq_none_iff⟩⟩

/-- An address, two events and a receiver that are defined more than once, the events with a blank
template first. -/
def repeated (template : String) : Definitions :=
  ⟨[("shop", "Old"), ("desk", "Desk"), ("shop", "Shop")],
    [("shipped", ⟨" ", []⟩), ("default", ⟨"\t", []⟩), ("shipped", ⟨template, [("b", "1"), ("b", "2")]⟩),
      ("default", ⟨template, []⟩)]⟩

/-- Their text holds every repetition. With another last template it is accepted, and an unknown event
has that template; with a blank one `shipped` is reported, which comes before `default`. -/
theorem repeated_last_template_counts :
    Definitions.read (repeated "t").toJson.pretty = .ok (repeated "t") ∧
      Definitions.read (repeated " ").toJson.pretty = .ok (repeated " ") ∧
      (∃ c, read (repeated "t").toJson.pretty = .ok c ∧
        c.notification? (some "paid") = some ⟨"t", .empty⟩) ∧
      RefusedFor (repeated " ").toJson.pretty "notification `shipped` has no template" := by
  have hread := fun template => (repeated template).read_pretty
  have hnoneBlank : ∀ event, ¬ (repeated "t").EndsBlank event := by
    intro event hends
    obtain ⟨m, hm, hblank⟩ := (repeated "t").describes_collect.endsBlank_iff.mp hends
    have htemplates : ∀ e ∈ (repeated "t").collect.notifications.entries,
        Text.isBlankText e.2.template = false := by decide
    rw [htemplates _ hm] at hblank
    cases hblank
  have hdefault : (repeated "t").Selects (some "paid") ⟨"t", []⟩ := by
    refine .fallback (fun name hname => ?_) ⟨(repeated "t").notifications.take 3, [], rfl, nofun⟩
    cases hname
    decide
  have hends : (repeated " ").EndsBlank "shipped" :=
    ⟨_, ⟨(repeated " ").notifications.take 2, [("default", ⟨" ", []⟩)], rfl, by decide⟩, by decide⟩
  have hshipped : (repeated " ").FirstBlank "shipped" := ⟨hends, fun _ _ => Nat.zero_le _⟩
  obtain ⟨-, -, -, haccepted, hconfig⟩ := last_definitions_stand (hread "t")
  obtain ⟨-, hrefused, -⟩ := last_definitions_stand (hread " ")
  obtain ⟨c, hc⟩ := haccepted.mpr ⟨nofun, hnoneBlank⟩
  obtain ⟨-, hselected⟩ := hconfig c hc
  have hnotification := ((hselected (some "paid")).1 _).mpr
    ⟨_, hdefault, NotificationDefinition.describes_collect ⟨"t", []⟩⟩
  exact ⟨hread "t", hread " ", ⟨c, hc, hnotification⟩, (hrefused "shipped").mpr ⟨nofun, hshipped⟩⟩

end NotificationConfig

end Recipients
