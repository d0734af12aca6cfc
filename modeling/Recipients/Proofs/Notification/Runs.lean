/-
# Runs of a notifier lose nothing and invent nothing

Every call of a run is answered as if it were the first: the tables that the calls before it have filled
change no receivers, and nothing else that the calls leave behind is looked at, the mailer apart. What a
call prepares is determined by the configuration and the policies; a call that sends answers just that,
unless the mailer refuses the message. A mailer is handed every message that such a call prepared, once
and in order, and no other, so a dry run holds exactly the messages that the calls answered.

Key definitions: `NotificationConfig.Selects`, `Notifier.Prepares`, `settled`, `Notifier.answer`,
`Notifier.messagesFor`, `Mailer.Memoryless`, `sentMessages`.
Key theorems: `Registry.receiversCached_fst`, `Notifier.prepare_eq_iff`, `Notifier.callCached_answer`,
`Notifier.callCached_notifier`, `Notifier.runCached_notifier`, `Notifier.getElem?_answers`,
`Notifier.runs_lose_and_invent_nothing`.
-/
import Recipients.Notification.Calls
import Recipients.Policy.Standard
import Recipients.Proofs.Path.Remembered

namespace Recipients

/-! ### Tables change no receivers -/

namespace Registry

variable (r : Registry) (g : Graph) (object : ObjectRef) (event : Option String) (raw : ReceiverConfig)

theorem resolveCached_fst (p : PolicyId) (c : PolicyCaches) :
    (r.resolveCached g object p raw c).1 = r.resolve g object p raw :=
  resolveReceiversCached_fst g (r.gettersOf p) object raw (c.evaluator p)

theorem receiversWithinCached_fst : ∀ (bound : Nat) (p : PolicyId) (c : PolicyCaches),
    (r.receiversWithinCached g object event raw bound p c).1 =
      (r.dispatchWithin g object event raw bound p).receivers
  | 0, p, c => r.resolveCached_fst g object raw p c
  | bound + 1, p, c => by
    rw [receiversWithinCached, dispatchWithin]
    cases hp : r.policy? p with
    | none => rfl
    | some policy =>
      cases policy with
      | leaf l => rfl
      | determiner d =>
        simp only [handler?]
        cases hs : (r.search g object event p).found with
        | none => exact r.resolveCached_fst g object raw p c
        | some h =>
          by_cases hp : h = p
          · simp only [if_pos hp, resolveCached_fst]
          · simp only [if_neg hp, receiversWithinCached_fst bound h]

/-- Receivers asked for with whatever is remembered are the receivers. -/
theorem receiversCached_fst (p : PolicyId) (c : PolicyCaches) :
    (r.receiversCached g object event p raw c).1 = r.receivers g object event p raw :=
  r.receiversWithinCached_fst g object event raw (r.size + 1) p c

end Registry

/-! ### What is prepared -/

/-- The configuration has the notification for the event: its own, or else the default. -/
inductive NotificationConfig.Selects (c : NotificationConfig) : Option String → Notification → Prop
  | own {event entry} : c.notifications.get? event = some entry → Selects c (some event) entry
  | fallback {event entry} : (∀ name, event = some name → c.notifications.get? name = none) →
      c.notifications.get? "default" = some entry → Selects c event entry

theorem NotificationConfig.selects_iff {c : NotificationConfig} {event : Option String}
    {entry : Notification} : c.Selects event entry ↔ c.notification? event = some entry := by
  unfold notification?
  constructor
  · rintro (hown | ⟨hnone, hdefault⟩)
    · simp [hown]
    · have : event.bind c.notifications.get? = none := Option.bind_eq_none_iff.mpr hnone
      rw [this]
      exact hdefault
  · intro h
    rcases Option.or_eq_some_iff.mp h with hown | ⟨hnone, hdefault⟩
    · obtain ⟨name, rfl, hname⟩ := Option.bind_eq_some_iff.mp hown
      exact .own hname
    · exact .fallback (Option.bind_eq_none_iff.mp hnone) hdefault

theorem NotificationConfig.notification?_eq_none_iff {c : NotificationConfig} {event : Option String} :
    c.notification? event = none ↔
      (∀ name, event = some name → c.notifications.get? name = none) ∧
        c.notifications.get? "default" = none := by
  rw [notification?, Option.or_eq_none_iff, Option.bind_eq_none_iff]
  rfl

namespace Notifier

/-- What is prepared for a call: the failure that no notification stands in for the event, or that the
policy, asked about the event that was given, finds no receivers, or the message. -/
inductive Prepares (n : Notifier) (g : Graph) (call : NotifierCall) : Except Failure Message → Prop
  | unknownEvent : (∀ name, call.event = some name → n.config.notifications.get? name = none) →
      n.config.notifications.get? "default" = none →
      Prepares n g call (.error (.unknownEvent (call.event.getD "default")))
  | noReceivers {entry} : n.config.Selects call.event entry →
      (n.registry.receivers g call.object call.event n.policy entry.receivers).entries = [] →
      Prepares n g call (.error (.noReceivers (call.event.getD "default")))
  | message {entry receivers} : n.config.Selects call.event entry →
      n.registry.receivers g call.object call.event n.policy entry.receivers = receivers →
      receivers.entries ≠ [] →
      Prepares n g call (.ok ⟨n.config.sender, receivers, entry.template, call.arguments⟩)

variable {n : Notifier} {g : Graph} {call : NotifierCall} {prepared : Except Failure Message}

theorem prepare_eq_iff :
    n.prepare g call.object call.event call.arguments = prepared ↔ n.Prepares g call prepared := by
  have hempty : ∀ {receivers : Receivers}, receivers.isEmpty = true ↔ receivers.entries = [] :=
    List.isEmpty_iff
  constructor
  · rintro rfl
    unfold prepare
    cases hentry : n.config.notification? call.event with
    | none =>
      obtain ⟨hnone, hdefault⟩ := NotificationConfig.notification?_eq_none_iff.mp hentry
      exact .unknownEvent hnone hdefault
    | some entry =>
      have hselects := NotificationConfig.selects_iff.mpr hentry
      simp only [compose]
      split
      · rename_i hnobody
        exact .noReceivers hselects (hempty.mp hnobody)
      · rename_i hsomebody
        exact .message hselects rfl (mt hempty.mpr hsomebody)
  · rintro (⟨hnone, hdefault⟩ | ⟨hselects, hnobody⟩ | ⟨hselects, rfl, hsomebody⟩)
    · rw [prepare, NotificationConfig.notification?_eq_none_iff.mpr ⟨hnone, hdefault⟩]
      rfl
    · rw [prepare, NotificationConfig.selects_iff.mp hselects]
      simp only [compose, if_pos (hempty.mpr hnobody)]
      rfl
    · rw [prepare, NotificationConfig.selects_iff.mp hselects]
      simp only [compose, if_neg (mt hempty.mp hsomebody)]

/-- What is prepared does not depend on what is remembered. -/
theorem prepareCached_fst (n : Notifier) (g : Graph) (call : NotifierCall) (c : PolicyCaches) :
    (n.prepareCached g call c).1 = n.prepare g call.object call.event call.arguments := by
  unfold prepareCached prepare
  cases n.config.notification? call.event with
  | none => rfl
  | some entry => simp only [Registry.receiversCached_fst]

end Notifier

/-! ### One call -/

/-- What is answered for a message that is to be sent, given why the mailer refuses messages. -/
def settled (refuses : Message → Option Failure) : Except Failure Message → Except Failure Message
  | .error e => .error e
  | .ok m =>
    match refuses m with
    | some e => .error e
    | none => .ok m

namespace Notifier

/-- What a call answers: what is prepared, settled if the message is to be sent. -/
def answer (n : Notifier) (g : Graph) (refuses : Message → Option Failure) (call : NotifierCall) :
    Except Failure Message :=
  let prepared := n.prepare g call.object call.event call.arguments
  if call.sends then settled refuses prepared else prepared

/-- The messages that are prepared for the calls that send. -/
def messagesFor (n : Notifier) (g : Graph) (calls : List NotifierCall) : List Message :=
  calls.flatMap fun call =>
    if call.sends then (n.prepare g call.object call.event call.arguments).toOption.toList else []

variable (n : Notifier) (g : Graph)

theorem deliver_fst (prepared : Except Failure Message) :
    (n.deliver prepared).1 = settled n.mailer.refusal? prepared := by
  cases prepared with
  | error e => rfl
  | ok m =>
    simp only [deliver, settled]
    cases n.mailer.refusal? m <;> rfl

/-- Whether the mailer refuses it or not, it was handed the message. -/
theorem deliver_snd (prepared : Except Failure Message) :
    (n.deliver prepared).2 =
      { n with mailer := prepared.toOption.toList.foldl Mailer.hand n.mailer } := by
  cases prepared with
  | error e => rfl
  | ok m =>
    simp only [deliver]
    cases n.mailer.refusal? m <;> rfl

/-- A call is answered without regard to what is remembered. -/
theorem callCached_answer (call : NotifierCall) (c : PolicyCaches) :
    (n.callCached g call c).1 = n.answer g n.mailer.refusal? call := by
  unfold callCached answer
  cases call.sends with
  | false => exact n.prepareCached_fst g call c
  | true => simp only [if_true, deliver_fst, prepareCached_fst]

/-- A call changes the mailer only, and this only by the message it sends. -/
theorem callCached_notifier (call : NotifierCall) (c : PolicyCaches) :
    (n.callCached g call c).2.1 =
      { n with mailer := (n.messagesFor g [call]).foldl Mailer.hand n.mailer } := by
  unfold callCached messagesFor
  rw [List.flatMap_singleton]
  cases call.sends with
  | false => rfl
  | true => simp only [if_true, deliver_snd, prepareCached_fst]

/-! ### Runs -/

/-- After a run the notifier is as it was, apart from the mailer, which was handed in order the messages
that were prepared to be sent. -/
theorem runCached_notifier (g : Graph) : ∀ (calls : List NotifierCall) (n : Notifier) (c : PolicyCaches),
    (n.runCached g c calls).notifier =
      { n with mailer := (n.messagesFor g calls).foldl Mailer.hand n.mailer }
  | [], _, _ => rfl
  | call :: calls, n, c => by
    have hmessages : n.messagesFor g (call :: calls) = n.messagesFor g [call] ++ n.messagesFor g calls := by
      simp only [messagesFor, List.flatMap_cons, List.flatMap_nil, List.append_nil]
    rw [hmessages, List.foldl_append]
    simp only [runCached, callCached_notifier, runCached_notifier g calls]
    rfl

/-- A run can be made in two parts. -/
theorem runCached_append (g : Graph) (after : List NotifierCall) :
    ∀ (before : List NotifierCall) (n : Notifier) (c : PolicyCaches),
      (n.runCached g c (before ++ after)).answers = (n.runCached g c before).answers ++
        ((n.runCached g c before).notifier.runCached g (n.runCached g c before).caches after).answers
  | [], _, _ => rfl
  | call :: before, n, c => by
    simp only [List.cons_append, runCached, runCached_append g after before]

theorem length_answers (g : Graph) : ∀ (calls : List NotifierCall) (n : Notifier) (c : PolicyCaches),
    (n.runCached g c calls).answers.length = calls.length
  | [], _, _ => rfl
  | call :: calls, n, c => by
    simp only [runCached, List.length_cons, length_answers g calls]

/-- In the middle of a run a call is answered as at its beginning, but for the mailer. -/
theorem getElem?_answers (n : Notifier) (g : Graph) (c : PolicyCaches) (before after : List NotifierCall)
    (call : NotifierCall) :
    (n.runCached g c (before ++ call :: after)).answers[before.length]? =
      some (n.answer g (n.runCached g c before).notifier.mailer.refusal? call) := by
  have hlength := length_answers g before n c
  rw [runCached_append, List.getElem?_append_right (Nat.le_of_eq hlength), hlength, Nat.sub_self,
    runCached, List.getElem?_cons_zero, callCached_answer, runCached_notifier]
  rfl

end Notifier

/-! ### Mailers -/

namespace Mailer

/-- Whether the mailer refuses a message does not depend on those before it. -/
def Memoryless : Mailer → Prop
  | dryRun _ => True
  | transport refuses _ => ∀ handed handed' m, refuses handed m = refuses handed' m

theorem hand_dryRun (ms sent : List Message) : ms.foldl hand (dryRun sent) = dryRun (sent ++ ms) := by
  induction ms generalizing sent with
  | nil => rw [List.foldl_nil, List.append_nil]
  | cons m ms ih => rw [List.foldl_cons, hand, ih, List.append_assoc, List.singleton_append]

theorem hand_transport (refuses : List Message → Message → Option Failure) (ms handed : List Message) :
    ms.foldl hand (transport refuses handed) = transport refuses (handed ++ ms) := by
  induction ms generalizing handed with
  | nil => rw [List.foldl_nil, List.append_nil]
  | cons m ms ih => rw [List.foldl_cons, hand, ih, List.append_assoc, List.singleton_append]

theorem Memoryless.refusal?_hand {mailer : Mailer} (h : mailer.Memoryless) (ms : List Message) :
    (ms.foldl hand mailer).refusal? = mailer.refusal? := by
  cases mailer with
  | dryRun sent => rw [hand_dryRun]; rfl
  | transport refuses handed =>
    rw [hand_transport]
    exact funext fun m => h _ _ m

end Mailer

/-- The messages answered to the calls that send. -/
def sentMessages (calls : List NotifierCall) (answers : List (Except Failure Message)) : List Message :=
  (calls.zip answers).flatMap fun e => if e.1.sends then e.2.toOption.toList else []

namespace Notifier

/-- Before a mailer without memory all calls of a run are answered as first ones. -/
theorem answers_of_memoryless {n : Notifier} (h : n.mailer.Memoryless) (g : Graph) (c : PolicyCaches)
    (calls : List NotifierCall) :
    (n.runCached g c calls).answers = calls.map (n.answer g n.mailer.refusal?) := by
  refine List.ext_getElem? fun i => ?_
  rw [List.getElem?_map]
  by_cases hi : i < calls.length
  · have hsplit : calls = calls.take i ++ calls[i] :: calls.drop (i + 1) := by
      rw [List.getElem_cons_drop, List.take_append_drop]
    have hi' : (calls.take i).length = i := List.length_take_of_le (Nat.le_of_lt hi)
    have hanswer := n.getElem?_answers g c (calls.take i) (calls.drop (i + 1)) calls[i]
    rw [← hsplit, hi', runCached_notifier, h.refusal?_hand] at hanswer
    rw [hanswer, List.getElem?_eq_getElem hi, Option.map_some]
  · have hle := Nat.le_of_not_lt hi
    rw [List.getElem?_eq_none hle, List.getElem?_eq_none (by rwa [length_answers]), Option.map_none]

/-- What a dry run was handed is what the calls that send have answered. -/
theorem sentMessages_of_dryRun {n : Notifier} {sent : List Message} (h : n.mailer = .dryRun sent)
    (g : Graph) (c : PolicyCaches) (calls : List NotifierCall) :
    sentMessages calls (n.runCached g c calls).answers = n.messagesFor g calls := by
  have hsettled : ∀ prepared, settled n.mailer.refusal? prepared = prepared := by
    rw [h]
    rintro (_ | _) <;> rfl
  rw [answers_of_memoryless (by rw [h]; trivial), sentMessages, messagesFor]
  induction calls with
  | nil => rfl
  | cons call calls ih =>
    rw [List.map_cons, List.zip_cons_cons, List.flatMap_cons, List.flatMap_cons, ih]
    simp only [answer, hsettled, ite_self]

/-- **Runs lose nothing and invent nothing.** Whatever is remembered at the start, every call of a run is
answered with what is prepared for it, settled with the mailer as it is then if the call sends; before a
mailer without memory this is what a run of the call alone would answer. What is prepared is, in this
order of precedence, that the event is unknown, that there are no receivers, or the message. The run
changes nothing but the mailer. A dry run has then sent the messages answered to the calls that send, in
order, and another transport was handed those that were prepared for them. -/
theorem runs_lose_and_invent_nothing (n : Notifier) (g : Graph) (c : PolicyCaches)
    (calls : List NotifierCall) :
    (∀ before call after, calls = before ++ call :: after →
      (n.runCached g c calls).answers[before.length]? =
        some (n.answer g (n.runCached g c before).notifier.mailer.refusal? call)) ∧
    (n.runCached g c calls).answers.length = calls.length ∧
    (n.mailer.Memoryless → (n.runCached g c calls).answers =
      calls.flatMap fun call => (n.runCached g .empty [call]).answers) ∧
    (∀ call prepared, n.prepare g call.object call.event call.arguments = prepared ↔
      n.Prepares g call prepared) ∧
    (n.runCached g c calls).notifier =
      { n with mailer := (n.runCached g c calls).notifier.mailer } ∧
    (∀ sent, n.mailer = .dryRun sent → (n.runCached g c calls).notifier.mailer.sent =
      sent ++ sentMessages calls (n.runCached g c calls).answers) ∧
    ∀ refuses handed, n.mailer = .transport refuses handed →
      (n.runCached g c calls).notifier.mailer = .transport refuses (handed ++ n.messagesFor g calls) := by
  refine ⟨?_, length_answers g calls n c, fun h => ?_, fun _ _ => prepare_eq_iff, ?_, ?_, ?_⟩
  · rintro before call after rfl
    exact n.getElem?_answers g c before after call
  · simp only [answers_of_memoryless h, List.map_cons, List.map_nil]
    exact List.map_eq_flatMap
  · rw [runCached_notifier]
  · intro sent h
    rw [sentMessages_of_dryRun h, runCached_notifier, h, Mailer.hand_dryRun]
    rfl
  · intro refuses handed h
    rw [runCached_notifier, h]
    exact Mailer.hand_transport refuses _ handed

/-- One determiner that takes every pair, a notification for every event, and one without receivers. -/
def shop : Notifier where
  registry := .standard
  policy := 0
  config :=
    ⟨.ofList [("shop@example.com", "Shop")], .ofList
      [("default", ⟨"generic", .ofList [("ops@example.com", "Ops")]⟩),
        ("silent", ⟨"silent", .ofList [("ops@example.com", "")]⟩)]⟩
  mailer := .dryRun []

/-- Only the last call leads to a message that is sent: the first does not send, the second finds nobody. -/
def threeCalls : List NotifierCall :=
  [⟨false, Graph.root, none, .null⟩, ⟨true, Graph.root, some "silent", .null⟩,
    ⟨true, Graph.root, some "sold", .null⟩]

/-- From three calls of `shop` a dry run has one message, and a broken transport was handed one. -/
theorem runs_of_shop :
    (shop.runCached .empty .empty threeCalls).answers =
      threeCalls.flatMap (fun call => (shop.runCached .empty .empty [call]).answers) ∧
    (shop.runCached .empty .empty threeCalls).notifier.mailer.sent =
      sentMessages threeCalls (shop.runCached .empty .empty threeCalls).answers ∧
    (shop.runCached .empty .empty threeCalls).notifier.mailer.sent.map Message.template = ["generic"] ∧
    ∃ refuses, ({ shop with mailer := .broken "down" }.runCached .empty .empty threeCalls).notifier.mailer =
      .transport refuses (shop.messagesFor .empty threeCalls) := by
  obtain ⟨-, -, hfirst, -, -, hdry, -⟩ := runs_lose_and_invent_nothing shop .empty .empty threeCalls
  obtain ⟨-, -, -, -, -, -, hbroken⟩ :=
    runs_lose_and_invent_nothing { shop with mailer := .broken "down" } .empty .empty threeCalls
  exact ⟨hfirst trivial, hdry [] rfl, by decide +kernel, _, hbroken _ [] rfl⟩

end Notifier

end Recipients
