/-
# A configuration comes back from its text

What is written down as definitions is an object of objects, and it is read off its text as it goes. The
layout is the one of `bodyChars` at every level, so each reader has one lemma: it reads what was written
for a value as that value. Definitions come back as they are, with the names that they repeat. A
configuration is written as definitions in which no name is repeated, and these make up the configuration
again, entry by entry and in order. The check that a text must pass is the check of the configuration.

Key definitions: `Definitions.toJson`, `NotificationConfig.definitions`.
Key theorems: `reads_readMap`, `reads_readPair`, `Definitions.read_pretty`,
`NotificationConfig.read_definitions`, `NotificationConfig.printed_and_read`.
-/
import Recipients.Notification.ConfigReader
import Recipients.Proofs.Json.Layout
import Recipients.Proofs.OrderedMap

namespace Recipients

open Json

variable {α β γ : Type}

/-! ### Texts and maps -/

theorem reads_readText (s : String) : Reads readText (strText s) s := by
  intro blanks rest hblanks _
  have hskip : skipBlank (blanks ++ (strText s ++ rest)) =
      '"' :: (s.toList.flatMap escapeChar ++ '"' :: rest) := by
    rw [skipBlank_append hblanks, strText, List.cons_append, List.append_assoc, List.singleton_append,
      skipBlank_cons (by decide)]
  rw [readText, hskip]
  exact readString_escaped s rest

/-- A written object is read as a map if each of its values is read. -/
theorem reads_readMap {level : Nat} {value : Reader α} (toJson : α → Json)
    (h : ∀ a, Reads value (prettyChars (level + 1) (toJson a)) a) (es : List (String × α)) :
    Reads (readMap value) (prettyChars level (.obj (es.map fun e => (e.1, toJson e.2)))) es := by
  intro blanks rest hblanks _
  have hmembers : List.Forall₂ (Reads (readMember value))
      ((es.map fun e => (e.1, toJson e.2)).map (memberChars level)) es := by
    rw [List.map_map, List.forall₂_map_left_iff, List.forall₂_same]
    exact fun e _ => reads_readMember (h e.2)
  rw [prettyChars_obj, List.cons_append, readMap, skipBlank_append hblanks, skipBlank_cons (by decide)]
  exact readList_bodyChars hmembers rest

/-- Texts by name as an object, in which names may be repeated. -/
def textsJson (es : List (String × String)) : Json :=
  .obj (es.map fun e => (e.1, .str e.2))

theorem reads_readMap_text (level : Nat) (es : List (String × String)) :
    Reads (readMap readText) (prettyChars level (textsJson es)) es :=
  reads_readMap .str reads_readText es

/-- A receiver configuration comes back from its text. -/
theorem ReceiverConfig.read_pretty (raw : ReceiverConfig) :
    ReceiverConfig.read raw.toJson.pretty = .ok raw := by
  have hread : readWhole (readMap readText) raw.toJson.pretty = .ok raw.entries :=
    (reads_readMap_text 0 raw.entries).readWhole
  rw [ReceiverConfig.read, hread]
  exact congrArg Except.ok raw.ofList_entries

/-! ### Records -/

/-- The first field of a record is read into its place. -/
theorem reads_readPairField_first {level : Nat} {first second : String} {readFirst : Reader α}
    {readSecond : Reader β} {v : Json} {a : α} (hv : Reads readFirst (prettyChars (level + 1) v) a)
    (b : Option β) :
    Reads (readPairField first readFirst second readSecond (none, b)) (memberChars level (first, v))
      (some a, b) := by
  intro blanks rest hblanks hended
  have hvalue : readFirst (' ' :: (prettyChars (level + 1) v ++ rest)) = .ok (a, rest) :=
    hv [' '] rest (fun _ => isBlank_of_mem_space) hended
  rw [memberChars, List.append_assoc, List.cons_append, List.cons_append, readPairField,
    readKey_strText hblanks]
  simp only [bind, Except.bind, if_true, readField, readColon_cons, hvalue]
  rfl

/-- So is the second, whose name is another one. -/
theorem reads_readPairField_second {level : Nat} {first second : String} (hne : second ≠ first)
    {readFirst : Reader α} {readSecond : Reader β} {w : Json} {b : β}
    (hw : Reads readSecond (prettyChars (level + 1) w) b) (a : Option α) :
    Reads (readPairField first readFirst second readSecond (a, none)) (memberChars level (second, w))
      (a, some b) := by
  intro blanks rest hblanks hended
  have hvalue : readSecond (' ' :: (prettyChars (level + 1) w ++ rest)) = .ok (b, rest) :=
    hw [' '] rest (fun _ => isBlank_of_mem_space) hended
  rw [memberChars, List.append_assoc, List.cons_append, List.cons_append, readPairField,
    readKey_strText hblanks]
  simp only [bind, Except.bind, if_neg hne, if_true, readField, readColon_cons, hvalue]
  rfl

/-- A written record is read as what `complete` makes of its two fields. -/
theorem reads_readPair {level : Nat} {name first second : String} (hne : second ≠ first)
    {readFirst : Reader α} {readSecond : Reader β}
    {complete : ReadError → Option α → Option β → Except ReadError γ} {v w : Json} {a : α} {b : β}
    {record : γ} (hv : Reads readFirst (prettyChars (level + 1) v) a)
    (hw : Reads readSecond (prettyChars (level + 1) w) b)
    (hcomplete : complete (.mismatch (.missingField first)) (some a) (some b) = .ok record) :
    Reads (readPair name first readFirst second readSecond complete)
      (prettyChars level (.obj [(first, v), (second, w)])) record := by
  intro blanks rest hblanks _
  have henters : Enters (readPairField first readFirst second readSecond) (none, none)
      ([(first, v), (second, w)].map (memberChars level)) (some a, some b) :=
    .cons (reads_readPairField_first hv none) (.cons (reads_readPairField_second hne hw (some a)) .nil)
  have hfields : readSequence '\x7d' (readPairField first readFirst second readSecond) (none, none)
      (bodyChars level '\x7d' ([(first, v), (second, w)].map (memberChars level)) ++ rest) =
      .ok ((some a, some b), rest) :=
    henters.readSequence (by decide) (by decide) level rest fun _ => memberChars_opens level
  rw [prettyChars_obj, List.cons_append, readPair, skipBlank_append hblanks, skipBlank_cons (by decide)]
  simp only [bind, Except.bind, hfields, hcomplete]
  rfl

/-! ### Definitions -/

/-- The definition as an object. -/
def NotificationDefinition.toJson (n : NotificationDefinition) : Json :=
  .obj [("template", .str n.template), ("receivers", textsJson n.receivers)]

theorem NotificationDefinition.reads_readNotification (level : Nat) (n : NotificationDefinition) :
    Reads readNotification (prettyChars level n.toJson) n :=
  reads_readPair (by decide) (reads_readText n.template) (reads_readMap_text (level + 1) n.receivers) rfl

/-- The definitions as an object. -/
def Definitions.toJson (d : Definitions) : Json :=
  .obj [("sender", textsJson d.sender),
    ("notifications", .obj (d.notifications.map fun e => (e.1, e.2.toJson)))]

/-- Definitions come back from their text, with every name that they repeat. -/
theorem Definitions.read_pretty (d : Definitions) : Definitions.read d.toJson.pretty = .ok d := by
  have hreads : Reads readDefinitions (prettyChars 0 d.toJson) d :=
    reads_readPair (by decide) (reads_readMap_text 1 d.sender)
      (reads_readMap NotificationDefinition.toJson (NotificationDefinition.reads_readNotification 2)
        d.notifications) rfl
  exact hreads.readWhole

/-! ### Configurations -/

namespace Notification

/-- The notification as a definition. -/
def definition (n : Notification) : NotificationDefinition :=
  ⟨n.template, n.receivers.entries⟩

theorem collect_definition (n : Notification) : n.definition.collect = n := by
  rw [definition, NotificationDefinition.collect, OrderedMap.ofList_entries]

end Notification

namespace NotificationConfig

/-- The configuration as definitions, in which no name is repeated. -/
def definitions (c : NotificationConfig) : Definitions :=
  ⟨c.sender.entries, c.notifications.entries.map fun e => (e.1, e.2.definition)⟩

theorem collect_definitions (c : NotificationConfig) : c.definitions.collect = c := by
  have hnotifications : (c.definitions.notifications.map fun e => (e.1, e.2.collect)) =
      c.notifications.entries := by
    rw [definitions, List.map_map]
    refine (List.map_congr_left fun e _ => ?_).trans (List.map_id _)
    exact Prod.ext rfl e.2.collect_definition
  rw [Definitions.collect, hnotifications, OrderedMap.ofList_entries, definitions,
    OrderedMap.ofList_entries]

theorem toJson_definitions (c : NotificationConfig) : c.definitions.toJson = c.toJson := by
  rw [definitions, Definitions.toJson, List.map_map]
  rfl

/-- The text of a configuration is read as its definitions. -/
theorem read_definitions (c : NotificationConfig) :
    Definitions.read c.toJson.pretty = .ok c.definitions := by
  rw [← toJson_definitions]
  exact c.definitions.read_pretty

/-- What is read from the text of a configuration is the configuration, if it is valid. -/
theorem read_pretty (c : NotificationConfig) : read c.toJson.pretty = c.validate := by
  rw [read, read_definitions]
  simp only [collect_definitions]

/-- A configuration is accepted as it is, if nothing is wrong with it. -/
theorem validate_eq_ok_iff {c c' : NotificationConfig} :
    c.validate = .ok c' ↔ c' = c ∧ c.fault? = none := by
  unfold validate
  cases c.fault? with
  | none => simp [eq_comm]
  | some fault => simp

theorem validate_eq_error_iff {c : NotificationConfig} {e : Failure} :
    c.validate = .error e ↔ ∃ fault, c.fault? = some fault ∧ e = .config fault := by
  unfold validate
  cases c.fault? with
  | none => simp
  | some fault => simp [eq_comm]

/-- Nothing is wrong with a configuration that was read. -/
theorem fault?_of_read {text : String} {c : NotificationConfig} (h : read text = .ok c) :
    c.fault? = none := by
  unfold read at h
  cases hd : Definitions.read text with
  | error e => simp [hd] at h
  | ok definitions =>
    rw [hd] at h
    obtain ⟨rfl, hfault⟩ := validate_eq_ok_iff.mp h
    exact hfault

/-- **Printing and reading a configuration are inverse.** The text of a valid configuration is read as
the configuration itself, with all its entries in their order; the text of any other one is refused with
what is wrong with the configuration. So a configuration that was read from any text is the same after
it is printed and read again. -/
theorem printed_and_read (c : NotificationConfig) :
    (∀ c', c.validate = .ok c' → c' = c ∧ read c.toJson.pretty = .ok c) ∧
    (∀ e, c.validate = .error e →
      (∃ fault, e = .config fault) ∧ read c.toJson.pretty = .error e) ∧
    ∀ text, read text = .ok c → read c.toJson.pretty = .ok c := by
  have hread : read c.toJson.pretty = c.validate := c.read_pretty
  refine ⟨fun c' hok => ?_, fun e herror => ?_, fun text htext => ?_⟩
  · obtain ⟨rfl, -⟩ := validate_eq_ok_iff.mp hok
    exact ⟨rfl, hread.trans hok⟩
  · obtain ⟨fault, -, rfl⟩ := validate_eq_error_iff.mp herror
    exact ⟨⟨fault, rfl⟩, hread.trans herror⟩
  · exact hread.trans (validate_eq_ok_iff.mpr ⟨rfl, fault?_of_read htext⟩)

/-- Addresses out of order, with quotes, controls and none at all, an event without a name, and a
notification for nobody. -/
def intricate (template : String) : NotificationConfig :=
  ⟨.ofList [("z\"y\\x", "line\nfeed\x07"), ("", "\x7f é 😀")],
    .ofList [("", ⟨"plain", .empty⟩), ("default", ⟨template, .ofList [("b", "\""), ("a", "0")]⟩)]⟩

/-- `intricate` comes back with any template but a blank one, which is reported. -/
theorem intricate_printed_and_read :
    (intricate "\u2028 t").validate = .ok (intricate "\u2028 t") ∧
      read (intricate "\u2028 t").toJson.pretty = .ok (intricate "\u2028 t") ∧
      (intricate "\u2028 ").validate = .error (.config (.noTemplate "default")) ∧
      read (intricate "\u2028 ").toJson.pretty = .error (.config (.noTemplate "default")) := by
  have hvalid : (intricate "\u2028 t").validate = .ok (intricate "\u2028 t") := rfl
  have hblank : (intricate "\u2028 ").validate = .error (.config (.noTemplate "default")) := rfl
  have hread := ((printed_and_read _).1 _ hvalid).2
  exact ⟨hvalid, (printed_and_read _).2.2 _ hread, hblank, ((printed_and_read _).2.1 _ hblank).2⟩

end NotificationConfig

end Recipients
