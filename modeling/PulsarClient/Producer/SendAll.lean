/-
  `send_all` and `send_all_non_blocking`: is the outcome of a message that has been sent ever lost?

  Both collect one outcome per message and return all the futures, or `PartialSend` with everything
  collected.  They differ in one character: `Producer::send_all` serialises with `?`, and what it has
  collected by then is dropped with the function.

  1. THE PROGRAMS — `sendAll` and `sendAllNonBlocking`, which also record each message handed to a
     producer and the outcome there.

  2. `sendAll` in three lemmas, each an induction on the messages: a message is routed out of the vector
     (`sendAll_panics`), one does not serialise (`sendAll_returns`), neither (`sendAll_sends`).

  3. `send_all_iff` — outcomes can be recovered exactly if the FIRST message fails to serialise or none
     does, and the two functions agree exactly if none does.
-/
import PulsarClient.Producer.MultiTopicProducer
import PulsarClient.Producer.RoundRobin

namespace PulsarClient.Partitions

variable {τ ε φ : Type}

/-! ## The programs -/

/-- The error for a list of messages. -/
inductive SendAllError (ε φ : Type) where
  /-- that of one of them -/
  | Error (e : SendError ε)
  /-- `ProducerError::PartialSend` -/
  | PartialSend (sends : List (Except (SendError ε) φ))

/-- `if sends.iter().all(|s| s.is_ok())`: the futures, or all that there is. -/
def collectSends (sends : List (Except (SendError ε) φ)) :
    Except (SendAllError ε φ) (List φ) :=
  if sends.all Except.isOk then .ok (sends.filterMap Except.toOption)
  else .error (.PartialSend sends)

/-- How the loop over the messages ends. -/
inductive Looped (ε φ : Type) where
  | Sends (sends : List (Except (SendError ε) φ))
  /-- `?` -/
  | Returned (e : SendError ε)
  | Panicked

/-- A message in the hands of a producer. -/
structure Handed (ε φ : Type) where
  producer : TopicProducer
  message : Batching.Message
  outcome : Except (SendError ε) φ

/-- A call, on a state `σ`. -/
structure SendAll (σ ε φ : Type) where
  looped : Looped ε φ
  state : σ
  /-- not a variable of the source: every message handed over, oldest first -/
  handed : List (Handed ε φ)

/-- What the caller gets, if anything. -/
def SendAll.result {σ : Type} (c : SendAll σ ε φ) : Option (Except (SendAllError ε φ) (List φ)) :=
  match c.looped with
  | .Sends sends => some (collectSends sends)
  | .Returned e => some (.error (.Error e))
  | .Panicked => none

section

variable (lib : Batching.Libraries) (murmur3_32 : Murmur3)
  (serializeMessage : τ → Except (SendError ε) Batching.Message)

namespace ProducerInner

/-- The loop of `send_all`, from the `i`-th message on.  `outcomes` are those of
    `TopicProducer::send`. -/
def sendLoop (outcomes : Nat → Except (SendError ε) φ) : List τ → Nat →
    List (Except (SendError ε) φ) → List (Handed ε φ) → ProducerInner → SendAll ProducerInner ε φ
  | [], _, sends, handed, inner => { looped := .Sends sends, state := inner, handed }
  | message :: messages, i, sends, handed, inner =>
    match serializeMessage message with
    -- `?`: `sends` is dropped
    | .error e => { looped := .Returned e, state := inner, handed }
    | .ok serialized =>
      match inner.choose lib murmur3_32 serialized with
      | (none, chosen) => { looped := .Panicked, state := chosen, handed }
      | (some producer, chosen) =>
        sendLoop outcomes messages (i + 1) (sends ++ [outcomes i])
          (handed ++ [{ producer, message := serialized, outcome := outcomes i }]) chosen

/-- `Producer::send_all` at `now`, the re-check being answered with `a`. -/
def sendAll (outcomes : Nat → Except (SendError ε) φ) (now : Nat) (a : Answers)
    (messages : List τ) (inner : ProducerInner) : SendAll ProducerInner ε φ :=
  inner.refreshPartitions now a |>.sendLoop lib murmur3_32 serializeMessage outcomes messages 0 [] []

end ProducerInner

namespace MultiTopicProducer

/-- The loop of `send_all_non_blocking`, from the `i`-th message on. -/
def sendLoop (topic : String) (sendings : Nat → Sending ε φ) : List τ → Nat →
    List (Except (SendError ε) φ) → List (Handed ε φ) → MultiTopicProducer →
      SendAll MultiTopicProducer ε φ
  | [], _, sends, handed, s => { looped := .Sends sends, state := s, handed }
  | message :: messages, i, sends, handed, s =>
    match s.sendNonBlocking lib murmur3_32 serializeMessage topic message (sendings i) with
    -- no `?` here: a failure is one outcome more
    | (.Failed e, s) => sendLoop topic sendings messages (i + 1) (sends ++ [.error e]) handed s
    | (.Handed producer message outcome, s) =>
      sendLoop topic sendings messages (i + 1) (sends ++ [outcome])
        (handed ++ [{ producer, message, outcome }]) s
    | (.Panicked, s) => { looped := .Panicked, state := s, handed }

/-- `MultiTopicProducer::send_all_non_blocking` -/
def sendAllNonBlocking (topic : String) (sendings : Nat → Sending ε φ) (messages : List τ)
    (s : MultiTopicProducer) : SendAll MultiTopicProducer ε φ :=
  s.sendLoop lib murmur3_32 serializeMessage topic sendings messages 0 [] []

end MultiTopicProducer

end

/-! ## Collecting -/

theorem collectSends_ok {sends : List (Except (SendError ε) φ)} {futures : List φ}
    (h : collectSends sends = .ok futures) : sends = futures.map .ok := by
  unfold collectSends at h
  split at h
  · rename_i hall
    obtain rfl := Except.ok.inj h
    clear h
    induction sends with
    | nil => rfl
    | cons send sends ih =>
      rw [List.all_cons, Bool.and_eq_true] at hall
      cases send with
      | error e => cases hall.1
      | ok future => exact congrArg (_ :: ·) (ih hall.2)
  · cases h

/-- An error holds everything collected. -/
theorem collectSends_error {sends : List (Except (SendError ε) φ)} {e : SendAllError ε φ}
    (h : collectSends sends = .error e) : e = .PartialSend sends := by
  unfold collectSends at h
  split at h
  · cases h
  · exact (Except.error.inj h).symm

/-! ## Routing -/

section

variable {lib : Batching.Libraries} {murmur3_32 : Murmur3}
  {serializeMessage : τ → Except (SendError ε) Batching.Message}

/-- A router of the application, if there is one, names an index in the vector. -/
def ProducerInner.Routes (inner : ProducerInner) (m : Batching.Message) : Prop :=
  match inner with
  | .Single _ _ => True
  | .Partitioned p =>
    ∀ route, p.options.routingPolicy = some (.Custom route) →
      route m p.producers.length < p.producers.length

theorem choosePartition_custom {p : PartitionedProducer} {route : Batching.Message → Nat → Nat}
    (hroute : p.options.routingPolicy = some (.Custom route)) (m : Batching.Message) :
    p.choosePartition lib murmur3_32 m = (p.producers[route m p.producers.length]?, p) := by
  have hkey : p.hashRoutedKey lib m = none := by
    unfold PartitionedProducer.hashRoutedKey
    rw [hroute]
  unfold PartitionedProducer.choosePartition
  rw [hkey, hroute]

theorem choose_isSome_iff (lib : Batching.Libraries) (murmur3_32 : Murmur3)
    (inner : ProducerInner) (m : Batching.Message) :
    (inner.choose lib murmur3_32 m).1.isSome = true ↔ inner.Routes m := by
  cases inner with
  | Single producer options => exact iff_of_true rfl trivial
  | Partitioned p =>
    show (p.choosePartition lib murmur3_32 m).1.isSome = true ↔ _
    by_cases hcustom : ∃ route, p.options.routingPolicy = some (.Custom route)
    · obtain ⟨route, hroute⟩ := hcustom
      rw [choosePartition_custom hroute, isSome_getElem?]
      constructor
      · intro hlt route' hroute'
        obtain rfl := RoutingPolicy.Custom.inj (Option.some.inj (hroute.symm.trans hroute'))
        exact hlt
      · intro hroutes
        exact hroutes route hroute
    · have hpolicy : ∀ route, p.options.routingPolicy ≠ some (.Custom route) :=
        fun route hroute => hcustom ⟨route, hroute⟩
      exact iff_of_true (choosePartition_isSome m hpolicy)
        fun route hroute => absurd hroute (hpolicy route)

/-- A choice leaves the router and the vector as they are. -/
theorem routes_choose (lib : Batching.Libraries) (murmur3_32 : Murmur3) (inner : ProducerInner)
    (m m' : Batching.Message) :
    (inner.choose lib murmur3_32 m).2.Routes m' ↔ inner.Routes m' := by
  cases inner with
  | Single producer options => exact Iff.rfl
  | Partitioned p =>
    show (∀ route, (p.choosePartition lib murmur3_32 m).2.options.routingPolicy = some (.Custom route) →
      route m' (p.choosePartition lib murmur3_32 m).2.producers.length <
        (p.choosePartition lib murmur3_32 m).2.producers.length) ↔ _
    rw [choosePartition_options, (choosePartition_producers lib murmur3_32 p m).1]
    exact Iff.rfl

/-! ## The three ends of `send_all` -/

/-- The messages before the first one that does not serialise. -/
def serialized (serializeMessage : τ → Except (SendError ε) Batching.Message) :
    List τ → List Batching.Message
  | [] => []
  | message :: messages =>
    match serializeMessage message with
    | .error _ => []
    | .ok m => m :: serialized serializeMessage messages

/-- Every message serialises. -/
def Serializes (serializeMessage : τ → Except (SendError ε) Batching.Message)
    (messages : List τ) : Prop :=
  ∀ message ∈ messages, ∃ m, serializeMessage message = .ok m

/-- One outcome per message, from the `i`-th on: of its serialisation, or of its send. -/
def attempts (serializeMessage : τ → Except (SendError ε) Batching.Message)
    (outcomes : Nat → Except (SendError ε) φ) : List τ → Nat → List (Except (SendError ε) φ)
  | [], _ => []
  | message :: messages, i =>
    (serializeMessage message).bind (fun _ => outcomes i) ::
      attempts serializeMessage outcomes messages (i + 1)

theorem serializes_cons {message : τ} {messages : List τ} {m : Batching.Message}
    (hm : serializeMessage message = .ok m) :
    Serializes serializeMessage (message :: messages) ↔ Serializes serializeMessage messages := by
  unfold Serializes
  rw [List.forall_mem_cons]
  exact and_iff_right ⟨m, hm⟩

/-- A message is routed in the vector, and the rest by what is left after it. -/
theorem routes_cons (lib : Batching.Libraries) (murmur3_32 : Murmur3) {inner : ProducerInner}
    {message : τ} {messages : List τ} {m : Batching.Message}
    (hm : serializeMessage message = .ok m) :
    (∀ m' ∈ serialized serializeMessage (message :: messages), inner.Routes m') ↔
      (∃ producer, (inner.choose lib murmur3_32 m).1 = some producer) ∧
        ∀ m' ∈ serialized serializeMessage messages,
          (inner.choose lib murmur3_32 m).2.Routes m' := by
  rw [serialized, hm, ← Option.isSome_iff_exists, choose_isSome_iff]
  simp only [List.forall_mem_cons, routes_choose]

namespace ProducerInner

variable {outcomes : Nat → Except (SendError ε) φ} {inner : ProducerInner} {messages : List τ}

/-- One turn of the loop. -/
theorem sendLoop_cons {message : τ} {m : Batching.Message}
    (hm : serializeMessage message = .ok m) {producer : TopicProducer}
    (hproducer : (inner.choose lib murmur3_32 m).1 = some producer) (i : Nat)
    (sends : List (Except (SendError ε) φ)) (handed : List (Handed ε φ)) :
    inner.sendLoop lib murmur3_32 serializeMessage outcomes (message :: messages) i sends handed =
      (inner.choose lib murmur3_32 m).2.sendLoop lib murmur3_32 serializeMessage outcomes messages
        (i + 1) (sends ++ [outcomes i])
        (handed ++ [{ producer, message := m, outcome := outcomes i }]) := by
  rw [sendLoop, hm]
  simp only
  revert hproducer
  rcases inner.choose lib murmur3_32 m with ⟨chosen, state⟩
  rintro rfl
  rfl

/-- A message before the first that does not serialise is routed out of the vector. -/
theorem sendLoop_panics (lib : Batching.Libraries) (murmur3_32 : Murmur3)
    (outcomes : Nat → Except (SendError ε) φ)
    (h : ¬ ∀ m ∈ serialized serializeMessage messages, inner.Routes m) (i : Nat)
    (sends : List (Except (SendError ε) φ)) (handed : List (Handed ε φ)) :
    (inner.sendLoop lib murmur3_32 serializeMessage outcomes messages i sends handed).looped =
      .Panicked := by
  induction messages generalizing inner i sends handed with
  | nil => exact absurd (fun m hm => absurd hm List.not_mem_nil) h
  | cons message messages ih =>
    cases hm : serializeMessage message with
    | error e =>
      -- nothing is routed from here on
      rw [serialized, hm] at h
      exact absurd (fun m hm => absurd hm List.not_mem_nil) h
    | ok m =>
      rw [routes_cons lib murmur3_32 hm] at h
      cases hchosen : (inner.choose lib murmur3_32 m).1 with
      | none =>
        rw [sendLoop, hm]
        simp only
        revert hchosen
        rcases inner.choose lib murmur3_32 m with ⟨chosen, state⟩
        rintro rfl
        rfl
      | some producer =>
        rw [sendLoop_cons hm hchosen]
        exact ih (fun hrest => h ⟨⟨producer, hchosen⟩, hrest⟩) (i + 1) _ _

/-- None is, but one does not serialise: the function returns when it gets there. -/
theorem sendLoop_returns (lib : Batching.Libraries) (murmur3_32 : Murmur3)
    (outcomes : Nat → Except (SendError ε) φ)
    (h : ∀ m ∈ serialized serializeMessage messages, inner.Routes m)
    (hfails : ¬ Serializes serializeMessage messages) (i : Nat)
    (sends : List (Except (SendError ε) φ)) (handed : List (Handed ε φ)) :
    (∃ e, (inner.sendLoop lib murmur3_32 serializeMessage outcomes messages i sends
      handed).looped = .Returned e) ∧
    (inner.sendLoop lib murmur3_32 serializeMessage outcomes messages i sends
      handed).handed.length = handed.length + (serialized serializeMessage messages).length := by
  induction messages generalizing inner i sends handed with
  | nil => exact absurd (fun m hm => absurd hm List.not_mem_nil) hfails
  | cons message messages ih =>
    cases hm : serializeMessage message with
    | error e =>
      rw [sendLoop, serialized, hm]
      exact ⟨⟨e, rfl⟩, rfl⟩
    | ok m =>
      obtain ⟨⟨producer, hchosen⟩, hroutes⟩ := (routes_cons lib murmur3_32 hm).mp h
      have hrest := ih hroutes (fun hall => hfails ((serializes_cons hm).mpr hall)) (i + 1)
        (sends ++ [outcomes i])
        (handed ++ [{ producer, message := m, outcome := outcomes i }])
      rw [sendLoop_cons hm hchosen]
      refine ⟨hrest.1, hrest.2.trans ?_⟩
      rw [serialized, hm, List.length_append, List.length_singleton, List.length_cons]
      omega

/-- All serialise: one producer and one outcome each, in order. -/
theorem sendLoop_sends (lib : Batching.Libraries) (murmur3_32 : Murmur3)
    (outcomes : Nat → Except (SendError ε) φ)
    (h : ∀ m ∈ serialized serializeMessage messages, inner.Routes m)
    (hall : Serializes serializeMessage messages) (i : Nat)
    (sends : List (Except (SendError ε) φ)) (handed : List (Handed ε φ)) :
    ∃ more, (inner.sendLoop lib murmur3_32 serializeMessage outcomes messages i sends
        handed).looped = .Sends (sends ++ more.map Handed.outcome) ∧
      (inner.sendLoop lib murmur3_32 serializeMessage outcomes messages i sends
        handed).handed = handed ++ more ∧
      more.map Handed.outcome = attempts serializeMessage outcomes messages i ∧
      more.map (fun entry => .ok entry.message) = messages.map serializeMessage := by
  induction messages generalizing inner i sends handed with
  | nil =>
    refine ⟨[], ?_, (List.append_nil handed).symm, rfl, rfl⟩
    exact congrArg Looped.Sends (List.append_nil sends).symm
  | cons message messages ih =>
    obtain ⟨m, hm⟩ := hall message List.mem_cons_self
    obtain ⟨⟨producer, hchosen⟩, hroutes⟩ := (routes_cons lib murmur3_32 hm).mp h
    obtain ⟨more, hlooped, hhanded, houtcomes, hmessages⟩ :=
      ih hroutes ((serializes_cons hm).mp hall) (i + 1) (sends ++ [outcomes i])
        (handed ++ [{ producer, message := m, outcome := outcomes i }])
    rw [sendLoop_cons hm hchosen]
    refine ⟨{ producer, message := m, outcome := outcomes i } :: more, ?_, ?_, ?_, ?_⟩
    · rw [hlooped, List.map_cons, List.append_assoc, List.singleton_append]
    · rw [hhanded, List.append_assoc, List.singleton_append]
    · rw [List.map_cons, houtcomes, attempts, hm]
      rfl
    · rw [List.map_cons, List.map_cons, hmessages, hm]

end ProducerInner

/-! ## `send_all_non_blocking` -/

namespace MultiTopicProducer

/-- A topic that is open stays so, and a message sent to it gets an outcome or panics. -/
theorem sendNonBlocking_open (lib : Batching.Libraries) (murmur3_32 : Murmur3)
    (serializeMessage : τ → Except (SendError ε) Batching.Message) {s : MultiTopicProducer}
    {topic : String} {inner : ProducerInner} (hopen : s.producers[topic]? = some inner)
    (message : τ) (sending : Sending ε φ) :
    (∃ inner', (s.sendNonBlocking lib murmur3_32 serializeMessage topic message
      sending).2.producers[topic]? = some inner') ∧
    ((s.sendNonBlocking lib murmur3_32 serializeMessage topic message sending).1 = .Panicked ∨
      (s.sendNonBlocking lib murmur3_32 serializeMessage topic message sending).1.result =
        some ((serializeMessage message).bind fun _ => sending.outcome)) := by
  have hentry : s.entry topic sending = .ok inner := by
    unfold entry
    rw [hopen]
  unfold sendNonBlocking
  cases serializeMessage message with
  | error e => exact ⟨⟨inner, hopen⟩, Or.inr rfl⟩
  | ok m =>
    simp only [hentry]
    refine ⟨⟨_, Std.TreeMap.getElem?_insert_self⟩, ?_⟩
    unfold ProducerInner.sendNonBlocking
    simp only
    generalize ((inner.refreshPartitions sending.now sending.refresh).choose lib murmur3_32 m).1 =
      chosen
    cases chosen with
    | none => exact Or.inl rfl
    | some producer => exact Or.inr rfl

/-- Unless it panics, the function collects an outcome for every message. -/
theorem sendLoop_looped (lib : Batching.Libraries) (murmur3_32 : Murmur3)
    (serializeMessage : τ → Except (SendError ε) Batching.Message) {s : MultiTopicProducer}
    {topic : String} {inner : ProducerInner} (hopen : s.producers[topic]? = some inner)
    (sendings : Nat → Sending ε φ) (messages : List τ) (i : Nat)
    (sends : List (Except (SendError ε) φ)) (handed : List (Handed ε φ)) :
    (s.sendLoop lib murmur3_32 serializeMessage topic sendings messages i sends handed).looped =
        .Panicked ∨
      (s.sendLoop lib murmur3_32 serializeMessage topic sendings messages i sends handed).looped =
        .Sends (sends ++
          attempts serializeMessage (fun i => (sendings i).outcome) messages i) := by
  induction messages generalizing s inner i sends handed with
  | nil => exact Or.inr (congrArg Looped.Sends (List.append_nil sends).symm)
  | cons message messages ih =>
    have hsent := sendNonBlocking_open lib murmur3_32 serializeMessage hopen message (sendings i)
    rw [sendLoop, attempts]
    revert hsent
    rcases s.sendNonBlocking lib murmur3_32 serializeMessage topic message (sendings i) with
      ⟨sent, s'⟩
    rintro ⟨⟨inner', hopen'⟩, hresult⟩
    rw [List.append_cons]
    cases sent with
    | Panicked => exact Or.inl rfl
    | Failed e =>
      have hfailed := Option.some.inj (hresult.resolve_left fun hpanic => nomatch hpanic)
      rw [← hfailed]
      exact ih hopen' (i + 1) _ handed
    | Handed producer m outcome =>
      have hhanded := Option.some.inj (hresult.resolve_left fun hpanic => nomatch hpanic)
      rw [← hhanded]
      exact ih hopen' (i + 1) _ _

/-- … and returns it, one way or the other. -/
theorem sendAllNonBlocking_result {s : MultiTopicProducer} {topic : String}
    {inner : ProducerInner} (hopen : s.producers[topic]? = some inner)
    (sendings : Nat → Sending ε φ) (messages : List τ)
    (hreturns : (s.sendAllNonBlocking lib murmur3_32 serializeMessage topic sendings
      messages).result.isSome = true) :
    (s.sendAllNonBlocking lib murmur3_32 serializeMessage topic sendings messages).result =
      some (collectSends
        (attempts serializeMessage (fun i => (sendings i).outcome) messages 0)) := by
  unfold SendAll.result sendAllNonBlocking at *
  rcases sendLoop_looped lib murmur3_32 serializeMessage hopen sendings messages 0 [] [] with
    hpanic | hsends
  · rw [hpanic] at hreturns
    cases hreturns
  · rw [hsends]
    rfl

end MultiTopicProducer

/-! ## The exact condition -/

/-- The result has the outcome of every message handed over, in order: one future for each message of
    the list, or the outcomes themselves. -/
def Recoverable {σ : Type} (serializeMessage : τ → Except (SendError ε) Batching.Message)
    (messages : List τ) (c : SendAll σ ε φ) : Prop :=
  match c.result with
  | some (.ok futures) =>
    futures.length = messages.length ∧ c.handed.map Handed.outcome = futures.map .ok ∧
      c.handed.map (fun entry => .ok entry.message) = messages.map serializeMessage
  | some (.error (.PartialSend sends)) => c.handed.map Handed.outcome = sends
  | some (.error (.Error _)) => c.handed = []
  | none => False

/-- No router of the application leaves the vector, before the first message that does not
    serialise. -/
def RoutesAll (serializeMessage : τ → Except (SendError ε) Batching.Message) (messages : List τ)
    (inner : ProducerInner) : Prop :=
  ∀ m ∈ serialized serializeMessage messages, inner.Routes m

variable {outcomes : Nat → Except (SendError ε) φ} {now : Nat} {a : Answers} {messages : List τ}
  {inner : ProducerInner}

theorem recoverable_of_sends {σ : Type} {c : SendAll σ ε φ}
    (hlooped : c.looped = .Sends (c.handed.map Handed.outcome))
    (hmessages : c.handed.map (fun entry => .ok entry.message) = messages.map serializeMessage) :
    Recoverable serializeMessage messages c := by
  have hresult : c.result = some (collectSends (c.handed.map Handed.outcome)) := by
    unfold SendAll.result
    rw [hlooped]
  unfold Recoverable
  rw [hresult]
  cases hcollect : collectSends (c.handed.map Handed.outcome) with
  | ok futures =>
    have houtcomes := collectSends_ok hcollect
    refine ⟨?_, houtcomes, hmessages⟩
    have hlength := congrArg List.length houtcomes
    have hlength' := congrArg List.length hmessages
    rw [List.length_map, List.length_map] at hlength hlength'
    omega
  | error e =>
    obtain rfl := collectSends_error hcollect
    rfl

/-- `Producer::send_all` panics, returns early, or sends everything. -/
theorem sendAll_cases (lib : Batching.Libraries) (murmur3_32 : Murmur3)
    (serializeMessage : τ → Except (SendError ε) Batching.Message)
    (outcomes : Nat → Except (SendError ε) φ) (now : Nat) (a : Answers) (messages : List τ)
    (inner : ProducerInner) :
    (¬ RoutesAll serializeMessage messages (inner.refreshPartitions now a) ∧
      (inner.sendAll lib murmur3_32 serializeMessage outcomes now a messages).result = none) ∨
    (RoutesAll serializeMessage messages (inner.refreshPartitions now a) ∧
      ¬ Serializes serializeMessage messages ∧
      (∃ e, (inner.sendAll lib murmur3_32 serializeMessage outcomes now a messages).result =
        some (.error (.Error e))) ∧
      (inner.sendAll lib murmur3_32 serializeMessage outcomes now a messages).handed.length =
        (serialized serializeMessage messages).length) ∨
    (RoutesAll serializeMessage messages (inner.refreshPartitions now a) ∧
      Serializes serializeMessage messages ∧
      (inner.sendAll lib murmur3_32 serializeMessage outcomes now a messages).result =
        some (collectSends (attempts serializeMessage outcomes messages 0)) ∧
      Recoverable serializeMessage messages
        (inner.sendAll lib murmur3_32 serializeMessage outcomes now a messages)) := by
  by_cases hroutes : RoutesAll serializeMessage messages (inner.refreshPartitions now a)
  · by_cases hall : Serializes serializeMessage messages
    · obtain ⟨more, hlooped, hhanded, houtcomes, hmessages⟩ :=
        ProducerInner.sendLoop_sends lib murmur3_32 outcomes hroutes hall 0 [] []
      refine Or.inr (Or.inr ⟨hroutes, hall, ?_, ?_⟩)
      · unfold SendAll.result ProducerInner.sendAll
        rw [hlooped, houtcomes]
        rfl
      · refine recoverable_of_sends ?_ ?_
        · rw [ProducerInner.sendAll, hlooped, hhanded]
          rfl
        · rw [ProducerInner.sendAll, hhanded]
          exact hmessages
    · obtain ⟨⟨e, hlooped⟩, hlength⟩ :=
        ProducerInner.sendLoop_returns lib murmur3_32 outcomes hroutes hall 0 [] []
      refine Or.inr (Or.inl ⟨hroutes, hall, ⟨e, ?_⟩, ?_⟩)
      · unfold SendAll.result ProducerInner.sendAll
        rw [hlooped]
      · exact hlength.trans (Nat.zero_add _)
  · have hlooped := ProducerInner.sendLoop_panics lib murmur3_32 outcomes hroutes 0 [] []
    refine Or.inl ⟨hroutes, ?_⟩
    unfold SendAll.result ProducerInner.sendAll
    rw [hlooped]

theorem recoverable_iff :
    Recoverable serializeMessage messages
        (inner.sendAll lib murmur3_32 serializeMessage outcomes now a messages) ↔
      RoutesAll serializeMessage messages (inner.refreshPartitions now a) ∧
        (serialized serializeMessage messages = [] ∨ Serializes serializeMessage messages) := by
  rcases sendAll_cases lib murmur3_32 serializeMessage outcomes now a messages inner with
    ⟨hroutes, hresult⟩ | ⟨hroutes, hfails, ⟨e, hresult⟩, hlength⟩ | ⟨hroutes, hall, -, hrecoverable⟩
  · refine iff_of_false ?_ fun h => hroutes h.1
    unfold Recoverable
    rw [hresult]
    exact id
  · unfold Recoverable
    rw [hresult, ← List.length_eq_zero_iff, hlength, List.length_eq_zero_iff]
    constructor
    · exact fun hnone => ⟨hroutes, Or.inl hnone⟩
    · exact fun h => h.2.resolve_right hfails
  · exact iff_of_true hrecoverable ⟨hroutes, Or.inr hall⟩

/-- The two functions return the same exactly if every message serialises. -/
theorem agrees_iff {result : Except (SendAllError ε φ) (List φ)}
    (hresult : result = collectSends (attempts serializeMessage outcomes messages 0)) :
    (inner.sendAll lib murmur3_32 serializeMessage outcomes now a messages).result = some result ↔
      RoutesAll serializeMessage messages (inner.refreshPartitions now a) ∧
        Serializes serializeMessage messages := by
  rcases sendAll_cases lib murmur3_32 serializeMessage outcomes now a messages inner with
    ⟨hroutes, hnone⟩ | ⟨hroutes, hfails, ⟨e, herror⟩, -⟩ | ⟨hroutes, hall, hsends, -⟩
  · rw [hnone]
    exact iff_of_false (fun hsome => nomatch hsome) fun h => hroutes h.1
  · -- one error by itself, against everything collected
    rw [herror, hresult]
    refine iff_of_false (fun heq => ?_) fun h => hfails h.2
    cases collectSends_error (Option.some.inj heq).symm
  · rw [hsends, hresult]
    exact iff_of_true rfl ⟨hroutes, hall⟩

/-- **Headline.**  For every list of messages and every pattern of failures, `Producer::send_all` keeps
    the outcome of whatever it has handed over exactly if it does not panic, and either no message fails
    to serialise or none is handed over before the first that does.  It keeps it in agreement with
    `send_all_non_blocking` exactly if every message serialises. -/
theorem send_all_iff (lib : Batching.Libraries) (murmur3_32 : Murmur3)
    (serializeMessage : τ → Except (SendError ε) Batching.Message)
    (outcomes : Nat → Except (SendError ε) φ) (now : Nat) (a : Answers) (messages : List τ)
    (inner : ProducerInner) :
    (Recoverable serializeMessage messages
        (inner.sendAll lib murmur3_32 serializeMessage outcomes now a messages) ↔
      RoutesAll serializeMessage messages (inner.refreshPartitions now a) ∧
        (serialized serializeMessage messages = [] ∨ Serializes serializeMessage messages)) ∧
    ∀ (s : MultiTopicProducer) topic sendings, s.producers[topic]? = some inner →
      (∀ i, (sendings i).outcome = outcomes i) →
      (s.sendAllNonBlocking lib murmur3_32 serializeMessage topic sendings
        messages).result.isSome = true →
      (Recoverable serializeMessage messages
          (inner.sendAll lib murmur3_32 serializeMessage outcomes now a messages) ∧
        (inner.sendAll lib murmur3_32 serializeMessage outcomes now a messages).result =
          (s.sendAllNonBlocking lib murmur3_32 serializeMessage topic sendings messages).result ↔
      RoutesAll serializeMessage messages (inner.refreshPartitions now a) ∧
        Serializes serializeMessage messages) := by
  refine ⟨recoverable_iff, fun s topic sendings hopen houtcomes hreturns => ?_⟩
  obtain rfl : (fun i => (sendings i).outcome) = outcomes := funext houtcomes
  rw [MultiTopicProducer.sendAllNonBlocking_result hopen sendings messages hreturns, agrees_iff rfl,
    recoverable_iff]
  constructor
  · exact fun h => h.2
  · exact fun h => ⟨⟨h.1, Or.inr h.2⟩, h⟩

end

/-! ## A message that does not serialise -/

/-- The producer of "orders", which has no partitions. -/
def single : ProducerInner := .Single { topic := "orders" } {}

/-- Of three messages the second cannot be sent. -/
theorem send_all_iff_three : ∃ sends,
    (single.sendAll Batching.threeLibraries (fun _ _ => 0) .ok
      (fun i => if i = 1 then .error (.Other ()) else .ok i) 0 (answering 0)
      [{}, {}, {}]).result = some (.error (.PartialSend sends)) ∧ sends.length = 3 ∧
    Recoverable (.ok : Batching.Message → Except (SendError Unit) Batching.Message) [{}, {}, {}]
      (single.sendAll Batching.threeLibraries (fun _ _ => 0) .ok
        (fun i => if i = 1 then .error (.Other ()) else .ok i) 0 (answering 0) [{}, {}, {}]) := by
  refine ⟨[.ok 0, .error (.Other ()), .ok 2], rfl, rfl, ?_⟩
  refine (send_all_iff _ _ _ _ _ _ _ _).1.mpr ⟨fun m hm => trivial, Or.inr ?_⟩
  exact fun m hm => ⟨m, rfl⟩

/-- The second message does not serialise, and of the first nothing is heard again. -/
theorem first_is_lost :
    ¬ ∀ (messages : List (Option Batching.Message)) (serializeMessage :
        Option Batching.Message → Except (SendError Unit) Batching.Message),
      Recoverable serializeMessage messages
        (single.sendAll Batching.threeLibraries (fun _ _ => 0) serializeMessage (fun i => .ok i) 0
          (answering 0) messages) := by
  intro hall
  have hlost := hall [some {}, none] fun message => message.elim (.error (.Other ())) .ok
  exact List.cons_ne_nil _ _ hlost

end PulsarClient.Partitions
