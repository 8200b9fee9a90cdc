/-
  The broker CLOSES a producer or a consumer by itself (a topic is unloaded): who gets to know?

  `CloseProducer` and `CloseConsumer` are commands of both directions.  Sent by the broker they carry a
  request id of the BROKER, which means nothing among those of the client.  `Message::request_key` does
  not know the direction:

  * a `CloseConsumer` has a key of its own; the receiver tries it on the pending request of that id, and
    then hands it to the consumer;

  * a `CloseProducer` has the key of a response.  It answers the pending request of its id, or is kept
    for the next one that is registered under it.

  1. The SYSTEM (`closes`): the receiver and its clients (`responses`), with a log of the closes that
     the receiver has taken and whether the one they are for could notice.

  2. `heeded_iff` — the exact condition: closes of registered consumers, under ids that no pending
     request has.

  3. `closeProducer_answers_request` — a producer that is closed does not notice, and a later request
     is answered by it.
-/
import PulsarClient.Connection.Responses
import PulsarClient.Producer.SendMessage

namespace PulsarClient.Connection.BrokerCloses

open Runs Receiver Responses

/-! ## The system -/

/-- A close that the broker sends by itself. -/
inductive Close where
  | producer (producerId requestId : Nat)
  | consumer (consumerId requestId : Nat)
  deriving DecidableEq, Repr

def Close.message : Close → Message
  | producer producerId requestId => Messages.closeProducer producerId requestId
  | consumer consumerId requestId => Messages.closeConsumer consumerId requestId

/-- The close that a message is. -/
def closeOf (m : Message) : Option Close :=
  match m.command.closeProducer, m.command.closeConsumer with
  | some c, _ =>
    if m = Messages.closeProducer c.producerId c.requestId then
      some (.producer c.producerId c.requestId)
    else none
  | none, some c =>
    if m = Messages.closeConsumer c.consumerId c.requestId then
      some (.consumer c.consumerId c.requestId)
    else none
  | none, none => none

theorem closeOf_message (c : Close) : closeOf c.message = some c := by
  cases c with
  | producer producerId requestId => exact if_pos rfl
  | consumer consumerId requestId => exact if_pos rfl

theorem message_of_closeOf {m : Message} {c : Close} (h : closeOf m = some c) : m = c.message := by
  unfold closeOf at h
  split at h
  · split at h
    · rename_i heq
      rw [heq, ← Option.some.inj h]
      rfl
    · cases h
  · split at h
    · rename_i heq
      rw [heq, ← Option.some.inj h]
      rfl
    · cases h
  · cases h

/-- The one that a close is for can notice it: a consumer by its channel; a producer only by the
    connection, which `send_message` asks whether it is valid. -/
def noticed (r : Receiver) : Close → Bool
  | .producer producerId requestId =>
    (r.handleInbound (Messages.closeProducer producerId requestId)).1.error.isSet
  | .consumer consumerId requestId =>
    match r.consumers.lookup consumerId with
    | some resolver =>
      decide (Effect.deliver resolver (Messages.closeConsumer consumerId requestId) ∈
        (r.handleInbound (Messages.closeConsumer consumerId requestId)).2)
    | none => false

/-- A connection, and the closes its receiver has taken: has the one each is for noticed? -/
structure State where
  conn : Responses.State := {}
  taken : List (Close × Bool) := []

/-- The message that a step takes. -/
def taking (s : Responses.State) (a : Action) : Option Message :=
  match a, s.phase, s.rx.inbound with
  | .poll, .inbound, .msg m :: _ => some m
  | _, _, _ => none

/-- The close that a step takes. -/
def takes (s : Responses.State) (a : Action) : Option Close := (taking s a).bind closeOf

def step (s : State) (a : Action) : Option State :=
  (Responses.step s.conn a).map fun conn =>
    { conn
      taken := s.taken ++ (takes s.conn a).toList.map fun c => (c, noticed s.conn.rx c) }

/-- The receiver with its clients, from the moment it is spawned. -/
def closes : Sys State Action where
  init s := ∃ conn, responses.init conn ∧ s = { conn }
  step := step

/-- No close is taken for a response, and every one is noticed. -/
structure Heeded (s : State) : Prop where
  /-- no request has been answered with one -/
  unanswered : ∀ x ∈ s.conn.handed, closeOf x.2 = none
  /-- … or is going to be -/
  unkept : ∀ key m, s.conn.rx.receivedMessages.lookup key = some m → closeOf m = none
  noticed : ∀ x ∈ s.taken, x.2 = true

/-- The close of a registered consumer, under an id that no pending request has. -/
def regularClose (r : Receiver) : Close → Bool
  | .producer _ _ => false
  | .consumer consumerId requestId =>
    (r.pendingRequests.lookup (.RequestId requestId)).isNone && (r.consumers.lookup consumerId).isSome

/-- The condition on a step: what it takes, if it takes a close. -/
def regular (s : State) (a : Action) : Bool := (takes s.conn a).all (regularClose s.conn.rx)

/-! ## What the receiver hands over and keeps -/

/-- A registration is answered only with what was kept for it. -/
theorem handleRegistration_answers (r : Receiver) (reg : Register) :
    (∀ x ∈ (r.handleRegistration reg).2.filterMap Effect.resolved,
      ∃ key, r.receivedMessages.lookup key = some x.2) ∧
    ∀ key m, (r.handleRegistration reg).1.receivedMessages.lookup key = some m →
      r.receivedMessages.lookup key = some m := by
  cases reg with
  | Request key resolver =>
    cases hm : r.receivedMessages.lookup key with
    | some msg =>
      rw [handleRegistration_early hm]
      refine ⟨?_, ?_⟩
      · intro x hx
        obtain rfl : x = (resolver, msg) := by simpa [Effect.resolved] using hx
        exact ⟨key, hm⟩
      · intro key' m h
        by_cases hkey : key' = key
        · subst hkey
          rw [Finmap.lookup_erase] at h
          cases h
        · rwa [Finmap.lookup_erase_ne hkey] at h
    | none =>
      rw [handleRegistration_waits hm]
      refine ⟨?_, fun _ _ h => h⟩
      intro x hx
      cases hp : r.pendingRequests.lookup key <;> simp [hp, Effect.resolved] at hx
  | Consumer consumerId resolver =>
    exact ⟨fun x hx => absurd hx List.not_mem_nil, fun _ _ h => h⟩
  | RemoveConsumer consumerId =>
    exact ⟨fun x hx => absurd hx List.not_mem_nil, fun _ _ h => h⟩
  | Ping resolver =>
    refine ⟨?_, fun _ _ h => h⟩
    intro x hx
    unfold handleRegistration at hx
    cases hp : r.ping <;> simp [hp, Effect.resolved] at hx

/-- A message is the only one that is handed over or kept when it is taken. -/
theorem handleInbound_answers (r : Receiver) (m : Message) :
    (∀ x ∈ (r.handleInbound m).2.filterMap Effect.resolved, x.2 = m) ∧
    ∀ key m', (r.handleInbound m).1.receivedMessages.lookup key = some m' →
      m' = m ∨ r.receivedMessages.lookup key = some m' := by
  have hrespond : ∀ key, (∀ x ∈ (r.respond key m).2.filterMap Effect.resolved, x.2 = m) ∧
      ∀ key' m', (r.respond key m).1.receivedMessages.lookup key' = some m' →
        m' = m ∨ r.receivedMessages.lookup key' = some m' := by
    intro key
    cases hp : r.pendingRequests.lookup key with
    | some resolver =>
      rw [respond_waiting hp]
      refine ⟨?_, fun _ _ h => Or.inr h⟩
      intro x hx
      obtain rfl : x = (resolver, m) := by simpa [Effect.resolved] using hx
      rfl
    | none =>
      rw [respond_kept hp]
      refine ⟨fun x hx => absurd hx List.not_mem_nil, ?_⟩
      intro key' m' h
      by_cases hkey : key' = key
      · subst hkey
        rw [Finmap.lookup_insert] at h
        exact Or.inl (Option.some.inj h).symm
      · rw [Finmap.lookup_insert_of_ne _ hkey] at h
        exact Or.inr h
  cases hk : routed m with
  | none =>
    obtain ⟨-, hkept, -, hresolved⟩ := handleInbound_of_not_routed (r := r) hk
    rw [hkept, hresolved]
    exact ⟨fun x hx => absurd hx List.not_mem_nil, fun _ _ h => Or.inr h⟩
  | some key =>
    cases key with
    | RequestId requestId =>
      rw [handleInbound_of_routed hk]
      exact hrespond _
    | ProducerSend producerId sequenceId =>
      rw [handleInbound_of_routed hk]
      exact hrespond _
    | Consumer consumerId =>
      rw [handleInbound_of_routed hk]
      refine ⟨?_, fun _ _ h => Or.inr h⟩
      rw [resolved_deliver]
      exact fun x hx => absurd hx List.not_mem_nil
    | CloseConsumer consumerId requestId =>
      cases hp : r.pendingRequests.lookup (.RequestId requestId) with
      | some resolver =>
        rw [handleInbound_close_waiting hk hp]
        refine ⟨?_, fun _ _ h => Or.inr h⟩
        intro x hx
        obtain rfl : x = (resolver, m) := by simpa [Effect.resolved] using hx
        rfl
      | none =>
        rw [handleInbound_close hk hp]
        refine ⟨?_, fun _ _ h => Or.inr h⟩
        rw [resolved_deliver]
        exact fun x hx => absurd hx List.not_mem_nil
    | AuthChallenge =>
      rw [handleInbound_of_routed hk]
      exact ⟨fun x hx => absurd hx List.not_mem_nil, fun _ _ h => Or.inr h⟩

section

variable {s s' : Responses.State} {a : Action}

/-- What one step hands over, or keeps, was kept before or is the message it takes. -/
def Answers (s : Responses.State) (a : Action) (s' : Responses.State) : Prop :=
  (∀ x ∈ s'.handed, x ∈ s.handed ∨ (∃ key, s.rx.receivedMessages.lookup key = some x.2) ∨
    taking s a = some x.2) ∧
  ∀ key m, s'.rx.receivedMessages.lookup key = some m →
    s.rx.receivedMessages.lookup key = some m ∨ taking s a = some m

theorem answers_of_same (hH : s'.handed = s.handed)
    (hkept : s'.rx.receivedMessages = s.rx.receivedMessages) : Answers s a s' := by
  constructor
  · rw [hH]
    exact fun x hx => Or.inl hx
  · rw [hkept]
    exact fun key m h => Or.inl h

theorem answers_poll (h : s.poll = some s') : Answers s .poll s' := by
  cases Responses.polled h with
  | rests inbound error hrx heffects =>
    refine answers_of_same ?_ ?_
    · unfold State.handed
      rw [heffects]
    · rw [hrx]
  | registers reg rest hreg hrx heffects =>
    obtain ⟨hresolved, hkept⟩ :=
      handleRegistration_answers ({ s.rx with registrations := rest } : Receiver) reg
    refine ⟨?_, fun key m hm => Or.inl (hkept key m (hrx ▸ hm))⟩
    intro x hx
    rw [State.handed, heffects, List.filterMap_append, List.mem_append] at hx
    exact hx.imp_right fun hnew => Or.inl (hresolved x hnew)
  | receives m rest hphase hin hrx heffects =>
    have htaking : taking s .poll = some m := by
      unfold taking
      rw [hphase, hin]
    obtain ⟨hresolved, hkept⟩ :=
      handleInbound_answers ({ s.rx with inbound := rest } : Receiver) m
    constructor
    · intro x hx
      rw [State.handed, heffects, List.filterMap_append, List.mem_append] at hx
      refine hx.imp_right fun hnew => Or.inr ?_
      rw [htaking, hresolved x hnew]
    · intro key m' hm'
      rcases hkept key m' (hrx ▸ hm') with rfl | hold
      · exact Or.inr htaking
      · exact Or.inl hold

theorem answers_step (h : Responses.step s a = some s') : Answers s a s' := by
  cases Responses.stepped h with
  | polls ha hpoll =>
    subst ha
    exact answers_poll hpoll
  | registers key hrx hserial heffects =>
    refine answers_of_same ?_ ?_
    · unfold State.handed
      rw [heffects]
    · rw [hrx]
  | enqueues reg hreg hconsumer hremove hs' =>
    subst hs'
    exact answers_of_same rfl rfl
  | world rx hregistrations hpending hreceived hconsumers hs' =>
    subst hs'
    exact answers_of_same rfl hreceived

theorem taking_spec {m : Message} (h : taking s a = some m) :
    a = .poll ∧ s.phase = .inbound ∧ ∃ rest, s.rx.inbound = .msg m :: rest := by
  unfold taking at h
  split at h
  · rename_i m' rest hph hin
    obtain rfl := Option.some.inj h
    exact ⟨rfl, hph, rest, hin⟩
  · cases h

/-- The step that takes a message, from the receiver without it. -/
theorem step_taking {m : Message} (hm : taking s a = some m) (h : Responses.step s a = some s') :
    ∃ r : Receiver, r.pendingRequests = s.rx.pendingRequests ∧
      r.receivedMessages = s.rx.receivedMessages ∧ s'.rx = (r.handleInbound m).1 ∧
      s'.handed = s.handed ++ (r.handleInbound m).2.filterMap Effect.resolved := by
  obtain ⟨rfl, hph, rest, hin⟩ := taking_spec hm
  have hpoll : s.poll = some s' := h
  unfold State.poll at hpoll
  simp only [Receiver.poll, hph, hin, Option.some.injEq] at hpoll
  refine ⟨{ s.rx with inbound := rest }, rfl, rfl, ?_, ?_⟩
  · rw [← hpoll]
  · rw [← hpoll]
    exact List.filterMap_append

/-- A close whose consumer is registered is delivered there, and nowhere else. -/
theorem noticed_consumer {r : Receiver} {consumerId requestId : Nat}
    (hp : r.pendingRequests.lookup (.RequestId requestId) = none) :
    noticed r (.consumer consumerId requestId) = (r.consumers.lookup consumerId).isSome := by
  have hrouted : routed (Messages.closeConsumer consumerId requestId) =
      some (.CloseConsumer consumerId requestId) := rfl
  unfold noticed
  simp only [handleInbound_close hrouted hp]
  unfold deliver
  cases hc : r.consumers.lookup consumerId with
  | none => rfl
  | some resolver => exact decide_eq_true List.mem_cons_self

end

/-! ## The exact condition -/

section

variable {s s' : State} {a : Action}

/-- Without a close, none is handed over or kept that was not. -/
theorem heeded_of_takes_none (hs : Heeded s) (h : Responses.step s.conn a = some s'.conn)
    (htaken : s'.taken = s.taken) (hm : takes s.conn a = none) : Heeded s' := by
  have hnone : ∀ m, taking s.conn a = some m → closeOf m = none := by
    intro m htaking
    unfold takes at hm
    rw [htaking] at hm
    exact hm
  obtain ⟨hhanded, hkept⟩ := answers_step h
  refine ⟨?_, ?_, ?_⟩
  · intro x hx
    rcases hhanded x hx with hold | ⟨key, hkey⟩ | htaking
    · exact hs.unanswered x hold
    · exact hs.unkept key x.2 hkey
    · exact hnone x.2 htaking
  · intro key m hlookup
    rcases hkept key m hlookup with hold | htaking
    · exact hs.unkept key m hold
    · exact hnone m htaking
  · rw [htaken]
    exact hs.noticed

/-- A close that a request is answered with. -/
theorem not_heeded_of_answer (c : Close) (resolver : Resolver)
    (h : (resolver, c.message) ∈ s'.conn.handed) : ¬ Heeded s' := by
  intro hheeded
  have hnone := hheeded.unanswered _ h
  rw [closeOf_message] at hnone
  cases hnone

/-- A `CloseProducer` answers a request, now or later. -/
theorem not_heeded_producer {producerId requestId : Nat}
    (hm : taking s.conn a = some (Messages.closeProducer producerId requestId))
    (h : Responses.step s.conn a = some s'.conn) : ¬ Heeded s' := by
  obtain ⟨r, -, -, hrx, hhanded⟩ := step_taking hm h
  have hhandle : r.handleInbound (Messages.closeProducer producerId requestId) =
      r.respond (.RequestId requestId) (Messages.closeProducer producerId requestId) :=
    handleInbound_of_routed (k := .RequestId requestId) rfl
  rw [hhandle] at hrx hhanded
  cases hp : r.pendingRequests.lookup (.RequestId requestId) with
  | some resolver =>
    rw [respond_waiting hp] at hhanded
    apply not_heeded_of_answer (.producer producerId requestId) resolver
    rw [hhanded]
    exact List.mem_append_right _ List.mem_cons_self
  | none =>
    rw [respond_kept hp] at hrx
    intro hheeded
    have hkept : s'.conn.rx.receivedMessages.lookup (.RequestId requestId) =
        some (Close.message (.producer producerId requestId)) := by
      rw [hrx]
      exact Finmap.lookup_insert _
    have hnone := hheeded.unkept _ _ hkept
    rw [closeOf_message] at hnone
    cases hnone

/-- A `CloseConsumer` under an id that no request waits for changes nothing but what is noticed. -/
theorem heeded_consumer {consumerId requestId : Nat} (hs : Heeded s)
    (hm : taking s.conn a = some (Messages.closeConsumer consumerId requestId))
    (h : Responses.step s.conn a = some s'.conn)
    (hp : s.conn.rx.pendingRequests.lookup (.RequestId requestId) = none)
    (htaken : s'.taken = s.taken ++ [(.consumer consumerId requestId,
      noticed s.conn.rx (.consumer consumerId requestId))]) :
    Heeded s' ↔ noticed s.conn.rx (.consumer consumerId requestId) = true := by
  obtain ⟨r, hpending, hkept, hrx, hhanded⟩ := step_taking hm h
  rw [← hpending] at hp
  have hhandle : r.handleInbound (Messages.closeConsumer consumerId requestId) =
      (r, r.deliver consumerId (Messages.closeConsumer consumerId requestId)) :=
    handleInbound_close rfl hp
  rw [hhandle] at hrx hhanded
  rw [resolved_deliver, List.append_nil] at hhanded
  constructor
  · intro hheeded
    apply hheeded.noticed (.consumer consumerId requestId, _)
    rw [htaken]
    exact List.mem_append_right _ List.mem_cons_self
  · intro hnoticed
    refine ⟨?_, ?_, ?_⟩
    · rw [hhanded]
      exact hs.unanswered
    · rw [hrx, hkept]
      exact hs.unkept
    · intro x hx
      rw [htaken] at hx
      rcases List.mem_append.mp hx with hold | hnew
      · exact hs.noticed x hold
      · obtain rfl := List.mem_singleton.mp hnew
        exact hnoticed

/-- **The step lemma.** -/
theorem heeded_step (hs : Heeded s) (h : closes.step s a = some s') : Heeded s' ↔ regular s a = true := by
  obtain ⟨conn, hconn, rfl⟩ := Option.map_eq_some_iff.mp h
  unfold regular
  cases hm : takes s.conn a with
  | none =>
    refine iff_of_true (heeded_of_takes_none hs hconn ?_ hm) rfl
    exact List.append_nil s.taken
  | some c =>
    obtain ⟨m, htaking, hclose⟩ := Option.bind_eq_some_iff.mp hm
    obtain rfl := message_of_closeOf hclose
    cases c with
    | producer producerId requestId => exact iff_of_false (not_heeded_producer htaking hconn) Bool.false_ne_true
    | consumer consumerId requestId =>
      cases hp : s.conn.rx.pendingRequests.lookup (.RequestId requestId) with
      | some resolver =>
        have hp' := hp
        refine iff_of_false ?_ ?_
        · obtain ⟨r, hpending, -, -, hhanded⟩ := step_taking htaking hconn
          rw [← hpending] at hp'
          have hhandle : r.handleInbound (Messages.closeConsumer consumerId requestId) = _ :=
            handleInbound_close_waiting rfl hp'
          apply not_heeded_of_answer (.consumer consumerId requestId) resolver
          show _ ∈ conn.handed
          rw [hhanded]
          show _ ∈ _ ++ (r.handleInbound (Messages.closeConsumer consumerId requestId)).2.filterMap _
          rw [hhandle]
          exact List.mem_append_right _ List.mem_cons_self
        · show ¬ ((s.conn.rx.pendingRequests.lookup (.RequestId requestId)).isNone && _) = true
          rw [hp]
          exact Bool.false_ne_true
      | none =>
        have hregular : regularClose s.conn.rx (.consumer consumerId requestId) =
            noticed s.conn.rx (.consumer consumerId requestId) := by
          rw [noticed_consumer hp]
          show ((s.conn.rx.pendingRequests.lookup (.RequestId requestId)).isNone && _) = _
          rw [hp]
          rfl
        show _ ↔ regularClose s.conn.rx (.consumer consumerId requestId) = true
        rw [hregular]
        exact heeded_consumer hs htaking hconn hp rfl

theorem heeded_init (h : closes.init s) : Heeded s := by
  obtain ⟨conn, ⟨sequenceId, rfl⟩, rfl⟩ := h
  refine ⟨fun x hx => absurd hx List.not_mem_nil, ?_, fun x hx => absurd hx List.not_mem_nil⟩
  intro key m hlookup
  have hempty : (∅ : Finmap fun _ : RequestKey => Message).lookup key = none := Finmap.lookup_empty key
  cases hempty.symm.trans hlookup

end

/-- **Broker-initiated closes, exactly.**  A run in which no close is taken for a response, and every
    one is noticed, is one in which every close is that of a registered consumer, under an id that no
    pending request has: no `CloseProducer` at all. -/
theorem heeded_iff (s : State) (h : closes.init s) (actions : List Action) :
    closes.Along Heeded s actions ↔ closes.Guarded (fun s a => regular s a = true) s actions :=
  Sys.along_iff_guarded (I := fun _ => True) (fun _ _ _ _ _ => trivial)
    (fun _ _ _ _ hs h => heeded_step hs h) actions s trivial (heeded_init h)

/-- Consumer 5 is closed by the broker, under the id 9. -/
theorem heeded_iff_consumer :
    closes.Along Heeded {}
      [.registerConsumer 5 0, .arrive (.msg (Messages.closeConsumer 5 9)), .poll, .poll, .poll,
        .poll] := by
  refine (heeded_iff {} ⟨{}, ⟨_, rfl⟩, rfl⟩ _).mpr ?_
  exact Sys.guarded_of_execIf _ (by decide +kernel)

/-! ## A producer that is closed -/

/-- The broker closes producer 7 under the id 0 of its own.  Nobody notices, the connection stays valid,
    and the first request of the client is answered by it.  The producer of a valid connection sends on
    without a new `CommandProducer`. -/
theorem closeProducer_answers_request :
    (∃ s, closes.Reach s ∧
      decide (s.conn.handed = [({ key := .RequestId 0, serial := 0 }, Messages.closeProducer 7 0)] ∧
        s.taken = [(.producer 7 0, false)] ∧ s.conn.rx.error.isSet = false) = true) ∧
    ∃ p, (Producer.producer {}).Reach p ∧
      decide (p.valid 0 = true ∧ p.log = [.create 0, .created 0, .send 0 0 { payload := [] }]) =
        true := by
  constructor
  · exact Sys.exists_reach_of_exec (S := closes) (s := {}) ⟨{}, ⟨_, rfl⟩, rfl⟩
      [.arrive (.msg (Messages.closeProducer 7 0)), .poll, .poll, .poll, .poll, .request, .poll, .poll]
      (by decide +kernel)
  · exact Sys.exists_reach_of_exec (S := Producer.producer {}) (s := {}) rfl
      [.gotConnection (some 0), .gotConnection (some 0), .createProducer,
        .created (.ok { requestId := 0, producerName := "p" }), .sendRaw { payload := [] }, .check,
        .sent none]
      (by decide +kernel)

end PulsarClient.Connection.BrokerCloses
