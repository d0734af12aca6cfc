/-
# Every prepared message is well formed

A configuration that was read names a sender and has no blank template, and a notifier refuses to send to
nobody. Receivers that a determiner answers are merged and sifted texts, one pair for each entry of the
notification. Whatever getters find, a text of a value is never empty and never "0", so no address and no
name of a message is, however the question went from determiner to determiner. That is all that a
message needs, and it holds just as well if a claim or a getter answers differently each time.

Key definitions: `Message.WellFormed`, `Registry.OnlyDeterminers`, `Sifts`.
Key theorems: `Sifts.truthy`, `Sifts.size_le`, `Registry.OnlyDeterminers.sifts_receivers`,
`Notifier.wellFormed_of_compose`, `Notifier.prepared_wellFormed`.
-/
import Recipients.Proofs.Notification.ConfigText
import Recipients.Proofs.Notification.Runs
import Recipients.Proofs.Receivers.Merging

namespace Recipients

/-- The message has a sender, a template with a character that is not white space, and receivers; no
address is listed twice, and no address and no name is empty or "0". -/
structure Message.WellFormed (m : Message) : Prop where
  sender : m.sender.entries ≠ []
  template : ∃ c ∈ m.template.toList, Text.isBlank c = false
  receivers : m.receivers.entries ≠ []
  distinct : (m.receivers.entries.map Prod.fst).Nodup
  truthy : ∀ e ∈ m.receivers.entries, Truthy e.1 ∧ Truthy e.2

/-! ### Receivers of any values -/

/-- The receivers come from one value for each raw address and one for each raw name, or none, whatever
the values are and wherever they were found. -/
def Sifts (raw : ReceiverConfig) (out : Receivers) : Prop :=
  ∃ texts : List (Option String × Option String), texts.length = raw.size ∧
    (∀ t ∈ texts, ∀ s, t.1 = some s ∨ t.2 = some s → ∃ (g : Graph) (v : FieldValue), g.textOf v = some s) ∧
    out = collectReceivers (texts.map fun t => (t.1.getD "", t.2))

theorem sifts_resolveReceivers (g : Graph) (chain : FieldGetterChain) (object : ObjectRef)
    (raw : ReceiverConfig) : Sifts raw (resolveReceivers g chain object raw) := by
  refine ⟨raw.entries.map fun e => (textAt g chain object e.1, textAt g chain object e.2),
    List.length_map _, fun t ht s hs => ?_, ?_⟩
  · obtain ⟨e, -, rfl⟩ := List.mem_map.mp ht
    rcases hs with hs | hs
    · obtain ⟨v, -, hv⟩ := Option.bind_eq_some_iff.mp hs
      exact ⟨g, v, hv⟩
    · obtain ⟨v, -, hv⟩ := Option.bind_eq_some_iff.mp hs
      exact ⟨g, v, hv⟩
  · rw [List.map_map]
    rfl

namespace Sifts

variable {raw : ReceiverConfig} {out : Receivers}

/-- There are no more receivers than entries of the configuration. -/
theorem size_le (h : Sifts raw out) : out.size ≤ raw.size := by
  obtain ⟨texts, hlength, -, rfl⟩ := h
  calc (collectReceivers (texts.map fun t => (t.1.getD "", t.2))).size
      ≤ (OrderedMap.ofList (texts.map fun t => (t.1.getD "", t.2))).size :=
        OrderedMap.size_filterMap_le _ _
    _ ≤ (texts.map fun t => (t.1.getD "", t.2)).length := OrderedMap.size_ofList_le _
    _ = raw.size := by rw [List.length_map, hlength]

/-- No address and no name is falsy. -/
theorem truthy (h : Sifts raw out) : ∀ e ∈ out.entries, Truthy e.1 ∧ Truthy e.2 := by
  obtain ⟨texts, -, htexts, rfl⟩ := h
  have htruthy : ∀ t ∈ texts, ∀ s, t.1 = some s ∨ t.2 = some s → Truthy s := by
    intro t ht s hs
    obtain ⟨g, v, hv⟩ := htexts t ht s hs
    exact Graph.truthy_of_textOf hv
  rintro ⟨address, name⟩ he
  have hget := OrderedMap.get?_eq_some_iff.mpr he
  rw [get?_collectReceivers] at hget
  obtain ⟨found, hfound, hname⟩ := Option.bind_eq_some_iff.mp hget
  split at hname
  · cases hname
  · rename_i hne
    subst hname
    -- the last pair with this address has the name
    obtain ⟨before, after, hpairs, -⟩ := OrderedMap.get?_ofList_eq_some_iff.mp hfound
    have hmem : (address, some name) ∈ texts.map fun t => (t.1.getD "", t.2) := by
      rw [hpairs]
      exact List.mem_append_right _ List.mem_cons_self
    obtain ⟨⟨first, second⟩, ht, hpair⟩ := List.mem_map.mp hmem
    rw [Prod.mk.injEq] at hpair
    obtain ⟨haddress, hsecond⟩ := hpair
    refine ⟨?_, htruthy _ ht name (.inr hsecond)⟩
    cases first with
    | none => exact absurd haddress.symm hne
    | some s =>
      have hs : s = address := haddress
      exact htruthy _ ht address (.inl (congrArg some hs))

end Sifts

/-! ### Dispatch among determiners -/

namespace Registry

/-- Every policy is a determiner. -/
def OnlyDeterminers (r : Registry) : Prop :=
  ∀ p policy, r.policy? p = some policy → ∃ d, policy = .determiner d

variable {r : Registry} (g : Graph) (object : ObjectRef) (event : Option String) (raw : ReceiverConfig)

/-- Wherever the question goes, some determiner resolves the configuration in the end, or there is no
policy to ask. -/
theorem OnlyDeterminers.sifts_dispatchWithin (h : r.OnlyDeterminers) : ∀ (bound : Nat) (p : PolicyId),
    Sifts raw (r.dispatchWithin g object event raw bound p).receivers ∨
      (r.dispatchWithin g object event raw bound p).receivers = .empty
  | 0, _ => .inl (sifts_resolveReceivers g _ object raw)
  | bound + 1, p => by
    rw [dispatchWithin]
    cases hp : r.policy? p with
    | none => exact .inr rfl
    | some policy =>
      obtain ⟨d, rfl⟩ := h p policy hp
      simp only
      cases (r.search g object event p).found with
      | none => exact .inl (sifts_resolveReceivers g _ object raw)
      | some k =>
        by_cases hk : k = p
        · simp only [if_pos hk]
          exact .inl (sifts_resolveReceivers g _ object raw)
        · simp only [if_neg hk]
          exact h.sifts_dispatchWithin bound k

theorem OnlyDeterminers.sifts_receivers (h : r.OnlyDeterminers) (p : PolicyId) :
    Sifts raw (r.receivers g object event p raw) ∨ r.receivers g object event p raw = .empty :=
  h.sifts_dispatchWithin g object event raw (r.size + 1) p

end Registry

/-! ### Messages -/

namespace NotificationConfig

variable {c : NotificationConfig}

/-- A configuration without fault names a sender. -/
theorem sender_ne_nil_of_fault? (h : c.fault? = none) : c.sender.entries ≠ [] := by
  intro hnil
  have hempty : c.sender.isEmpty = true := List.isEmpty_iff.mpr hnil
  rw [fault?, if_pos hempty] at h
  cases h

/-- No template of a configuration without fault is blank. -/
theorem template_of_fault? (h : c.fault? = none) {event : String} {entry : Notification}
    (hentry : c.notifications.get? event = some entry) :
    ∃ x ∈ entry.template.toList, Text.isBlank x = false := by
  unfold fault? at h
  split at h
  · cases h
  · have hmem : (event, entry) ∈ c.notifications.entries := OrderedMap.get?_eq_some_iff.mp hentry
    have hblank := List.find?_eq_none.mp (Option.map_eq_none_iff.mp h) (event, entry) hmem
    simpa [Text.isBlankText] using hblank

/-- The notification selected for an event is one of the configuration. -/
theorem Selects.exists_get? {event : Option String} {entry : Notification} (h : c.Selects event entry) :
    ∃ name, c.notifications.get? name = some entry := by
  cases h with
  | own hown => exact ⟨_, hown⟩
  | fallback _ hdefault => exact ⟨_, hdefault⟩

end NotificationConfig

namespace Notifier

variable {n : Notifier} {event : Option String} {entry : Notification} {out : Receivers}
  {arguments : Json} {m : Message}

/-- A message put together from sifted receivers is well formed. -/
theorem wellFormed_of_compose (hvalid : n.config.fault? = none) (hentry : n.config.Selects event entry)
    (hout : Sifts entry.receivers out) (h : n.compose event entry out arguments = .ok m) :
    m.WellFormed ∧ m.receivers.size ≤ entry.receivers.size := by
  unfold compose at h
  split at h
  · cases h
  · rename_i hsomebody
    cases h
    obtain ⟨name, hname⟩ := hentry.exists_get?
    have hne : out.entries ≠ [] := fun hnil => hsomebody (List.isEmpty_iff.mpr hnil)
    exact ⟨⟨NotificationConfig.sender_ne_nil_of_fault? hvalid,
      NotificationConfig.template_of_fault? hvalid hname, hne, out.distinct, hout.truthy⟩, hout.size_le⟩

/-- What is prepared is put together from the receivers of the selected notification. -/
theorem exists_compose_of_prepare {g : Graph} {object : ObjectRef}
    (h : n.prepare g object event arguments = .ok m) :
    ∃ entry, n.config.Selects event entry ∧
      n.compose event entry (n.registry.receivers g object event n.policy entry.receivers) arguments =
        .ok m := by
  unfold prepare at h
  cases hentry : n.config.notification? event with
  | none => simp [hentry] at h
  | some entry =>
    rw [hentry] at h
    exact ⟨entry, NotificationConfig.selects_iff.mpr hentry, h⟩

theorem wellFormed_of_prepare (hvalid : n.config.fault? = none) (hpolicies : n.registry.OnlyDeterminers)
    {g : Graph} {object : ObjectRef} (h : n.prepare g object event arguments = .ok m) :
    m.WellFormed ∧ ∃ entry, n.config.Selects event entry ∧
      m.receivers.size ≤ entry.receivers.size := by
  obtain ⟨entry, hentry, hcompose⟩ := exists_compose_of_prepare h
  rcases hpolicies.sifts_receivers g object event entry.receivers n.policy with hsifts | hempty
  · obtain ⟨hm, hsize⟩ := wellFormed_of_compose hvalid hentry hsifts hcompose
    exact ⟨hm, entry, hentry, hsize⟩
  · -- nobody is no message
    rw [hempty] at hcompose
    cases hcompose

/-- **Every prepared message is well formed.** Let the configuration have been read from a text and all
policies be determiners. Whatever is remembered, a message that is prepared is well formed, and it has at
most as many receivers as the selected notification. So is one put together from values found in any
other way, as by getters and claims that answer differently each time. Hence a run hands the mailer
well-formed messages only. -/
theorem prepared_wellFormed {text : String} {n : Notifier}
    (hread : NotificationConfig.read text = .ok n.config) (hpolicies : n.registry.OnlyDeterminers)
    (g : Graph) :
    (∀ call c m, (n.prepareCached g call c).1 = .ok m →
      m.WellFormed ∧ ∃ entry, n.config.Selects call.event entry ∧
        m.receivers.size ≤ entry.receivers.size) ∧
    (∀ event entry, n.config.Selects event entry → ∀ out, Sifts entry.receivers out →
      ∀ arguments m, n.compose event entry out arguments = .ok m →
        m.WellFormed ∧ m.receivers.size ≤ entry.receivers.size) ∧
    ∀ calls, ∀ m ∈ n.messagesFor g calls, m.WellFormed := by
  have hvalid : n.config.fault? = none := NotificationConfig.fault?_of_read hread
  refine ⟨fun call c m h => ?_, fun event entry hentry out hout arguments m h => ?_, fun calls m hm => ?_⟩
  · rw [prepareCached_fst] at h
    exact wellFormed_of_prepare hvalid hpolicies h
  · exact wellFormed_of_compose hvalid hentry hout h
  · obtain ⟨call, -, hcall⟩ := List.mem_flatMap.mp hm
    split at hcall
    · cases hprepared : n.prepare g call.object call.event call.arguments with
      | error e => simp [hprepared, Except.toOption] at hcall
      | ok m' =>
        have hm' : m = m' := by simpa [hprepared, Except.toOption] using hcall
        exact hm' ▸ (wellFormed_of_prepare hvalid hpolicies hprepared).1
    · cases hcall

/-- Finds a value that is never loaded under an email, and the text "0" under anything else. -/
def trickster : FieldGetter :=
  ⟨1, "trickster", .custom (fun _ _ _ => true) fun _ _ accessor =>
    some (if accessor = "getEmail" then .deferred (.stored 0) else .ofText "0")⟩

/-- What is sold goes to a determiner below the root that only asks `trickster`. -/
def market : Notifier where
  registry :=
    ⟨[.determiner ⟨"default", none, [1], .standard 0⟩,
      .determiner ⟨"sales", some (.ofEvent "sold"), [], ⟨[trickster]⟩⟩]⟩
  policy := 0
  config :=
    ⟨.ofList [("shop@example.com", "Shop")], .ofList
      [("sold", ⟨"sold", .ofList [("\x7b\x7bemail\x7d\x7d", "Nobody"),
        ("zero@example.com", "\x7b\x7bname\x7d\x7d"), ("ops@example.com", "Ops")]⟩)]⟩
  mailer := .dryRun []

/-- Of three entries in `market` one is left, and the message for it is well formed. -/
theorem prepared_of_market :
    NotificationConfig.read market.config.toJson.pretty = .ok market.config ∧
      market.registry.OnlyDeterminers ∧
      ∃ m, (market.prepareCached .empty ⟨true, Graph.root, some "sold", .null⟩ .empty).1 = .ok m ∧
        m.receivers.entries = [("ops@example.com", "Ops")] ∧ m.WellFormed := by
  have hread : NotificationConfig.read market.config.toJson.pretty = .ok market.config :=
    market.config.read_pretty
  have hpolicies : market.registry.OnlyDeterminers := by
    rintro p policy hp
    obtain rfl | hp' := List.mem_cons.mp (List.mem_of_getElem? hp)
    · exact ⟨_, rfl⟩
    · exact ⟨_, List.mem_singleton.mp hp'⟩
  have hsold : (market.prepareCached .empty ⟨true, Graph.root, some "sold", .null⟩ .empty).1.toOption.map
      (fun m => m.receivers.entries) = some [("ops@example.com", "Ops")] := by
    decide +kernel
  cases hm : (market.prepareCached .empty ⟨true, Graph.root, some "sold", .null⟩ .empty).1 with
  | error e => simp [hm, Except.toOption] at hsold
  | ok m =>
    have hentries : m.receivers.entries = [("ops@example.com", "Ops")] := by
      simpa [hm, Except.toOption] using hsold
    exact ⟨hread, hpolicies, m, rfl, hentries,
      ((prepared_wellFormed hread hpolicies .empty).1 _ _ m hm).1⟩

end Notifier

end Recipients
