/-
# Receivers and messages come back from their texts

Receivers are printed as an object whose members are their addresses, and a message as an object of four
members, both in the order that the maps remember. The strict reader keeps members as they stand, so it
gives the entries of a map one by one and in order, and the four parts of a message. Nothing sorts on the
way: two maps that differ in their order only have two texts.

What fills in a message is any value; it comes back if its numbers are whole and the object around it
leaves room for its containers.

Key definition: `Message.Exact`.
Key theorems: `OrderedMap.toJson_injective`, `Message.toJson_injective`, `Message.readOrdered_pretty`,
`Message.results_read_back`.
-/
import Recipients.Notification.Mailer
import Recipients.Proofs.Json.ValueText

namespace Recipients

open Json (readOrdered)

/-! ### Maps -/

namespace OrderedMap

theorem wholeNumbers_toJson (m : OrderedMap String) : m.toJson.WholeNumbers := by
  rw [toJson, Json.WholeNumbers]
  induction m.entries with
  | nil => exact trivial
  | cons e es ih => exact ⟨trivial, ih⟩

/-- No container stands inside a map. -/
theorem nesting_toJson (m : OrderedMap String) : m.toJson.nesting = 1 := by
  have hmembers : ∀ es : List (String × String),
      Json.nestingMembers (es.map fun e => (e.1, .str e.2)) = 0 := by
    intro es
    induction es with
    | nil => rfl
    | cons e es ih => rw [List.map_cons, Json.nestingMembers, ih, Json.nesting_str, Nat.max_self]
  rw [toJson, Json.nesting, hmembers]

/-- The members of the object are the entries of the map. -/
theorem toJson_injective {m n : OrderedMap String} (h : m.toJson = n.toJson) : m = n := by
  have hentry : Function.Injective fun e : String × String => (e.1, Json.str e.2) := by
    rintro ⟨a, s⟩ ⟨b, t⟩ he
    simp only [Prod.mk.injEq, Json.str.injEq] at he
    exact Prod.ext he.1 he.2
  rw [toJson, toJson, Json.obj.injEq] at h
  exact ext_entries (hentry.list_map h)

theorem readOrdered_pretty (m : OrderedMap String) : readOrdered m.toJson.pretty = .ok m.toJson := by
  have hdepth : m.toJson.nesting ≤ Json.maxDepth := by
    rw [nesting_toJson]
    decide
  exact Json.readOrdered_pretty m.wholeNumbers_toJson hdepth

end OrderedMap

/-! ### Messages -/

namespace Message

/-- What fills the message in has whole numbers only and is nested at most 126 containers deep. -/
structure Exact (m : Message) : Prop where
  whole : m.arguments.WholeNumbers
  depth : m.arguments.nesting ≤ 126

theorem Exact.wholeNumbers_toJson {m : Message} (h : m.Exact) : m.toJson.WholeNumbers := by
  rw [toJson, Json.WholeNumbers]
  exact ⟨m.sender.wholeNumbers_toJson, m.receivers.wholeNumbers_toJson, trivial, h.whole, trivial⟩

/-- The message is one container more. -/
theorem Exact.nesting_toJson {m : Message} (h : m.Exact) : m.toJson.nesting ≤ Json.maxDepth := by
  have hdepth := h.depth
  simp only [toJson, Json.nesting, Json.nestingMembers, OrderedMap.nesting_toJson, Json.maxDepth]
  omega

theorem Exact.readOrdered_pretty {m : Message} (h : m.Exact) : readOrdered m.toJson.pretty = .ok m.toJson :=
  Json.readOrdered_pretty h.wholeNumbers_toJson h.nesting_toJson

/-- The four members are the parts of the message. -/
theorem toJson_injective {m m' : Message} (h : m.toJson = m'.toJson) : m = m' := by
  obtain ⟨sender, receivers, template, arguments⟩ := m
  obtain ⟨sender', receivers', template', arguments'⟩ := m'
  simp only [toJson, Json.obj.injEq, List.cons.injEq, Prod.mk.injEq, Json.str.injEq, true_and, and_true]
    at h
  obtain ⟨hsender, hreceivers, rfl, rfl⟩ := h
  rw [OrderedMap.toJson_injective hsender, OrderedMap.toJson_injective hreceivers]

/-- The first member of a message is an object, and no member of a map is. -/
theorem toJson_ne_map (m : Message) (out : OrderedMap String) : out.toJson ≠ m.toJson := by
  intro h
  rw [OrderedMap.toJson, toJson, Json.obj.injEq] at h
  obtain ⟨e, _, -, he, -⟩ := List.map_eq_cons_iff.mp h
  have hobject : Json.str e.2 = .obj (m.sender.entries.map fun e => (e.1, .str e.2)) :=
    congrArg Prod.snd he
  cases hobject

/-- **Printed results are read back.** The text of receivers is read as their entries in their order, and
the text of a message as its sender, its receivers, its template and what fills it in, each as it was. So
two texts are the same only if the receivers are, or the messages. -/
theorem results_read_back :
    (∀ out : Receivers,
      readOrdered out.toJson.pretty = .ok (.obj (out.entries.map fun e => (e.1, .str e.2)))) ∧
    (∀ m : Message, m.Exact → readOrdered m.toJson.pretty = .ok (.obj
      [("from", .obj (m.sender.entries.map fun e => (e.1, .str e.2))),
        ("to", .obj (m.receivers.entries.map fun e => (e.1, .str e.2))),
        ("template", .str m.template),
        ("arguments", m.arguments)])) ∧
    (∀ out out' : Receivers, out.toJson.pretty = out'.toJson.pretty → out = out') ∧
    (∀ m m' : Message, m.Exact → m'.Exact → m.toJson.pretty = m'.toJson.pretty → m = m') ∧
    ∀ (out : Receivers) (m : Message), m.Exact → out.toJson.pretty ≠ m.toJson.pretty := by
  refine ⟨fun out => out.readOrdered_pretty, fun m hm => hm.readOrdered_pretty, fun out out' h => ?_,
    fun m m' hm hm' h => ?_, fun out m hm h => ?_⟩
  · have hsame := Json.pretty_injective out.readOrdered_pretty out'.readOrdered_pretty h
    exact OrderedMap.toJson_injective hsame
  · exact toJson_injective (Json.pretty_injective hm.readOrdered_pretty hm'.readOrdered_pretty h)
  · exact m.toJson_ne_map out (Json.pretty_injective out.readOrdered_pretty hm.readOrdered_pretty h)

/-- A message with the given receivers, which is filled in with the least whole number and with empty
containers. -/
def parcel (receivers : List (String × String)) : Message where
  sender := .ofList [("z@example.com", "Zoë \"Z\"")]
  receivers := .ofList receivers
  template := "parcel\n"
  arguments := .obj [("weight", .num (.whole (-9223372036854775808) (by decide))),
    ("items", .arr [.null, .arr [], .obj [], .bool false])]

/-- The members of `parcel` come back in their order, and another order has another text. -/
theorem parcel_read_back :
    (parcel [("b", "\x07"), ("a", "0")]).Exact ∧
      readOrdered (parcel [("b", "\x07"), ("a", "0")]).toJson.pretty = .ok (.obj
        [("from", .obj [("z@example.com", .str "Zoë \"Z\"")]),
          ("to", .obj [("b", .str "\x07"), ("a", .str "0")]),
          ("template", .str "parcel\n"),
          ("arguments", .obj [("weight", .num (.whole (-9223372036854775808) (by decide))),
            ("items", .arr [.null, .arr [], .obj [], .bool false])])]) ∧
      (parcel [("b", "\x07"), ("a", "0")]).toJson.pretty ≠
        (parcel [("a", "0"), ("b", "\x07")]).toJson.pretty := by
  have hexact : ∀ receivers, (parcel receivers).Exact := fun _ =>
    ⟨by simp [parcel, Json.WholeNumbers, Json.WholeMembers, Json.WholeItems],
      by simp [parcel, Json.nesting, Json.nestingMembers, Json.nestingItems]⟩
  refine ⟨hexact _, results_read_back.2.1 _ (hexact _), fun h => ?_⟩
  have hsame := results_read_back.2.2.2.1 _ _ (hexact _) (hexact _) h
  have hentries : [("b", "\x07"), ("a", "0")] = [("a", "0"), ("b", "\x07")] :=
    congrArg (fun m : Message => m.receivers.entries) hsame
  revert hentries
  decide

end Message

end Recipients
