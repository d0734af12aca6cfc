/-
# What a configuration comes to

Each entry of a configuration has an address, the text of its raw address or the empty text, and
perhaps a name, the text of its raw name. Entries with one address are merged first and sifted after:
the last of them decides, so a name is lost when a later entry with the same address has none, and all
entries without an address go together. The first of them gives the place, whether it has a name or not.

Key definitions: `addressOf`, `Merges`.
Key theorems: `merges_collectReceivers`, `get?_collectReceivers_of_last`, `Merges.unique`,
`Merges.truthy`, `resolveReceivers_iff_merges`.
-/
import Recipients.Proofs.Graph.TextForm
import Recipients.Proofs.Path.Remembered

namespace Recipients

/-- The address of an entry, given the texts of raw texts: empty if its raw address has no text. -/
def addressOf (text : String → Option String) (e : String × String) : String :=
  (text e.1).getD ""

/-- The receivers are what the configuration comes to, given the texts of raw texts. An address has a
name if it is not empty and the last entry with the address has the name, and addresses stand in the
order of the first entries that have them. -/
structure Merges (text : String → Option String) (raw : ReceiverConfig) (out : Receivers) : Prop where
  get?_iff : ∀ address name, out.get? address = some name ↔
    address ≠ "" ∧ ∃ before e after, raw.entries = before ++ e :: after ∧
      addressOf text e = address ∧ text e.2 = some name ∧ ∀ e' ∈ after, addressOf text e' ≠ address
  order : out.keys.Pairwise fun a b =>
    (raw.entries.map (addressOf text)).idxOf a < (raw.entries.map (addressOf text)).idxOf b

variable {text : String → Option String} {raw : ReceiverConfig}

/-- Sifting keeps the merged entries with an address and a name. -/
theorem get?_collectReceivers (pairs : List (String × Option String)) (address : String) :
    (collectReceivers pairs).get? address =
      ((OrderedMap.ofList pairs).get? address).bind fun name => if address = "" then none else name :=
  OrderedMap.get?_filterMap _ _ _

/-- The merged entry of an address is the last entry that has it. -/
theorem get?_ofList_resolvedPairs {address : String} {name : Option String} :
    (OrderedMap.ofList (resolvedPairs text raw)).get? address = some name ↔
      ∃ before e after, raw.entries = before ++ e :: after ∧
        addressOf text e = address ∧ text e.2 = name ∧ ∀ e' ∈ after, addressOf text e' ≠ address := by
  rw [OrderedMap.get?_ofList_eq_some_iff]
  constructor
  · rintro ⟨before, after, hpairs, hlast⟩
    obtain ⟨es, fs, hraw, -, hfs⟩ := List.map_eq_append_iff.mp hpairs
    obtain ⟨e, after', rfl, he, rfl⟩ := List.map_eq_cons_iff.mp hfs
    rw [Prod.mk.injEq] at he
    exact ⟨es, e, after', hraw, he.1, he.2, fun e' he' => hlast _ (List.mem_map_of_mem he')⟩
  · rintro ⟨before, e, after, hraw, haddress, hname, hlast⟩
    refine ⟨before.map fun e => (addressOf text e, text e.2),
      after.map fun e => (addressOf text e, text e.2), ?_, fun p hp => ?_⟩
    · rw [← haddress, ← hname, resolvedPairs, hraw, List.map_append, List.map_cons]
      rfl
    · obtain ⟨e', he', rfl⟩ := List.mem_map.mp hp
      exact hlast e' he'

/-- Merging first and sifting after is what a configuration comes to. -/
theorem merges_collectReceivers (text : String → Option String) (raw : ReceiverConfig) :
    Merges text raw (collectReceivers (resolvedPairs text raw)) := by
  refine ⟨fun address name => ?_, ?_⟩
  · rw [get?_collectReceivers, Option.bind_eq_some_iff, ← get?_ofList_resolvedPairs]
    by_cases h : address = ""
    · simp [h]
    · simp [h]
  · have hfst : (resolvedPairs text raw).map Prod.fst = raw.entries.map (addressOf text) := by
      rw [resolvedPairs, List.map_map]
      rfl
    rw [← hfst]
    exact (OrderedMap.pairwise_keys_ofList _).sublist (OrderedMap.keys_filterMap_sublist _ _)

/-- The last entry with an address decides, be it that the address is empty or the name is missing. -/
theorem get?_collectReceivers_of_last {before after : List (String × String)} {e : String × String}
    (hraw : raw.entries = before ++ e :: after)
    (hlast : ∀ e' ∈ after, addressOf text e' ≠ addressOf text e) :
    (collectReceivers (resolvedPairs text raw)).get? (addressOf text e) =
      if addressOf text e = "" then none else text e.2 := by
  have hmerged : (OrderedMap.ofList (resolvedPairs text raw)).get? (addressOf text e) =
      some (text e.2) := get?_ofList_resolvedPairs.mpr ⟨before, e, after, hraw, rfl, rfl, hlast⟩
  rw [get?_collectReceivers, hmerged, Option.bind_some]

/-- A configuration comes to one thing only. -/
theorem Merges.unique {m n : Receivers} (hm : Merges text raw m) (hn : Merges text raw n) : m = n := by
  refine OrderedMap.eq_of_get? _ hm.order hn.order fun address => ?_
  ext name
  exact (hm.get?_iff address name).trans (hn.get?_iff address name).symm

/-- No address and no name is falsy if no text is. -/
theorem Merges.truthy {out : Receivers} (h : Merges text raw out)
    (htext : ∀ {s t}, text s = some t → Truthy t) : ∀ e ∈ out.entries, Truthy e.1 ∧ Truthy e.2 := by
  intro e he
  obtain ⟨hne, -, d, -, -, haddress, hname, -⟩ :=
    (h.get?_iff e.1 e.2).mp (OrderedMap.get?_eq_some_iff.mpr he)
  refine ⟨?_, htext hname⟩
  unfold addressOf at haddress
  cases ht : text d.1 with
  | none =>
    -- an address without a text is empty
    rw [ht] at haddress
    exact absurd haddress.symm hne
  | some t =>
    rw [ht, Option.getD_some] at haddress
    exact haddress ▸ htext ht

theorem truthy_of_textAt {g : Graph} {chain : FieldGetterChain} {object : ObjectRef} {s t : String}
    (h : textAt g chain object s = some t) : Truthy t := by
  obtain ⟨v, -, hv⟩ := Option.bind_eq_some_iff.mp h
  exact Graph.truthy_of_textOf hv

/-- **Resolving is merging and sifting.** The receivers of a configuration at an object are the one
ordered map that the configuration comes to there, whatever names are remembered from before. So the last
entry with an address decides over all the others, and no address and no name is falsy. -/
theorem resolveReceivers_iff_merges (g : Graph) (chain : FieldGetterChain) (object : ObjectRef)
    (raw : ReceiverConfig) :
    (∀ out, out = resolveReceivers g chain object raw ↔ Merges (textAt g chain object) raw out) ∧
    (∀ c, (resolveReceiversCached g chain object raw c).1 = resolveReceivers g chain object raw) ∧
    (∀ before e after, raw.entries = before ++ e :: after →
      (∀ e' ∈ after, addressOf (textAt g chain object) e' ≠ addressOf (textAt g chain object) e) →
      (resolveReceivers g chain object raw).get? (addressOf (textAt g chain object) e) =
        if addressOf (textAt g chain object) e = "" then none else textAt g chain object e.2) ∧
    ∀ e ∈ (resolveReceivers g chain object raw).entries, Truthy e.1 ∧ Truthy e.2 := by
  have hmerges : Merges (textAt g chain object) raw (resolveReceivers g chain object raw) :=
    merges_collectReceivers _ _
  refine ⟨fun out => ⟨?_, fun h => h.unique hmerges⟩, resolveReceiversCached_fst g chain object raw,
    fun _ _ _ => get?_collectReceivers_of_last, hmerges.truthy truthy_of_textAt⟩
  rintro rfl
  exact hmerges

end Recipients
