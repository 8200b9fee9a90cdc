/-
  `connection::Receiver`: the task that owns the read half of a connection.

  It sits between two producers that know nothing of each other: the clients of the connection push
  REGISTRATIONS (who waits for what), the socket pushes INBOUND messages.  One `poll` looks at the
  shutdown signal, drains the registrations, then drains the inbound messages.  Both queues may grow
  at any moment, also in the middle of a poll, so a poll is cut here into the steps between which
  that can happen:

  1. `Phase.idle`          — not being polled; the next step looks at `shutdown`;
  2. `Phase.registrations` — the first loop of `poll`, one registration a step;
  3. `Phase.inbound`       — the second loop, one message a step;
  4. `Phase.done`          — the future has returned; its fields are dropped.

  `handleRegistration` and `handleInbound` are the bodies of the two loops.  What they do to the world
  outside of the receiver (completing or dropping a oneshot, pushing to a consumer) is their list of
  `Effect`s; the channels the receiver shares with others are fields, so that others can push to them.
-/
import Mathlib.Data.Finmap
import PulsarClient.Message

namespace PulsarClient.Connection

open Proto

/-- A `oneshot::Sender<Message>`: the key it was made for, and its number among all of them. -/
structure Resolver where
  key : RequestKey
  serial : Nat
  deriving DecidableEq, Repr

/-- `connection::Register`.  The senders of a consumer's channel and of a ping's oneshot are named by
    numbers. -/
inductive Register where
  | Request (key : RequestKey) (resolver : Resolver)
  | Consumer (consumerId : Nat) (resolver : Nat)
  | RemoveConsumer (consumerId : Nat)
  | Ping (resolver : Nat)
  deriving DecidableEq, Repr

/-- What a step of the receiver does outside of it. -/
inductive Effect where
  /-- `resolver.send(msg)` -/
  | resolve (resolver : Resolver) (msg : Message)
  /-- a resolver is dropped unused: its request is canceled -/
  | cancel (resolver : Resolver)
  /-- `sender.send(())` on the ping slot -/
  | pong (resolver : Nat)
  /-- the ping slot is overwritten: that ping is canceled -/
  | cancelPing (resolver : Nat)
  /-- `consumer.unbounded_send(msg)` -/
  | deliver (resolver : Nat) (msg : Message)
  deriving DecidableEq, Repr

/-- The request a step completes, and with what. -/
def Effect.resolved : Effect → Option (Resolver × Message)
  | .resolve r m => some (r, m)
  | _ => none

/-- Whether an effect decides a `send_ping`. -/
def Effect.onPing : Effect → Bool
  | .pong _ => true
  | .cancelPing _ => true
  | _ => false

/-- An item of the inbound stream. -/
inductive Inbound where
  | msg (m : Message)
  | err (e : ConnectionError)
  deriving DecidableEq, Repr

/-- `connection::Receiver`, with the contents of the channels it reads (`inbound`, `registrations`,
    `shutdown`) and writes (`control`, `authChallenge`) in the place of their ends. -/
structure Receiver where
  inbound : List Inbound := []
  inboundClosed : Bool := false
  control : List Message := []
  controlClosed : Bool := false
  error : SharedError := SharedError.new
  pendingRequests : Finmap fun _ : RequestKey => Resolver := ∅
  consumers : Finmap fun _ : Nat => Nat := ∅
  receivedMessages : Finmap fun _ : RequestKey => Message := ∅
  registrations : List Register := []
  registrationsClosed : Bool := false
  shutdown : Bool := false
  ping : Option Nat := none
  authChallenge : Nat := 0

/-- Where the receiver task is. -/
inductive Phase where
  | idle | registrations | inbound | done
  deriving DecidableEq, Repr

namespace Receiver

/-! ## The first loop: a registration -/

/-- The body of the registrations loop of `Receiver::poll`. -/
def handleRegistration (r : Receiver) : Register → Receiver × List Effect
  | .Request key resolver =>
    match r.receivedMessages.lookup key with
    | some msg =>
      ({ r with receivedMessages := r.receivedMessages.erase key }, [.resolve resolver msg])
    | none =>
      ({ r with pendingRequests := r.pendingRequests.insert key resolver },
        (r.pendingRequests.lookup key).toList.map .cancel)
  | .Consumer consumerId resolver =>
    ({ r with consumers := r.consumers.insert consumerId resolver }, [])
  | .RemoveConsumer consumerId => ({ r with consumers := r.consumers.erase consumerId }, [])
  | .Ping resolver => ({ r with ping := some resolver }, r.ping.toList.map .cancelPing)

/-- A request whose answer is there already. -/
theorem handleRegistration_early {r : Receiver} {key : RequestKey} {resolver : Resolver}
    {msg : Message} (h : r.receivedMessages.lookup key = some msg) :
    r.handleRegistration (.Request key resolver) =
      ({ r with receivedMessages := r.receivedMessages.erase key }, [.resolve resolver msg]) := by
  unfold handleRegistration
  simp only [h]

theorem handleRegistration_waits {r : Receiver} {key : RequestKey} {resolver : Resolver}
    (h : r.receivedMessages.lookup key = none) :
    r.handleRegistration (.Request key resolver) =
      ({ r with pendingRequests := r.pendingRequests.insert key resolver },
        (r.pendingRequests.lookup key).toList.map .cancel) := by
  unfold handleRegistration
  simp only [h]

/-! ## The second loop: an inbound message -/

/-- The arm for `RequestId` and `ProducerSend` keys: complete the request that waits, or keep the
    message for the request to come. -/
def respond (r : Receiver) (key : RequestKey) (msg : Message) : Receiver × List Effect :=
  match r.pendingRequests.lookup key with
  | some resolver =>
    ({ r with pendingRequests := r.pendingRequests.erase key }, [.resolve resolver msg])
  | none => ({ r with receivedMessages := r.receivedMessages.insert key msg }, [])

theorem respond_waiting {r : Receiver} {key : RequestKey} {msg : Message} {resolver : Resolver}
    (h : r.pendingRequests.lookup key = some resolver) :
    r.respond key msg =
      ({ r with pendingRequests := r.pendingRequests.erase key }, [.resolve resolver msg]) := by
  unfold respond
  simp only [h]

theorem respond_kept {r : Receiver} {key : RequestKey} {msg : Message}
    (h : r.pendingRequests.lookup key = none) :
    r.respond key msg = ({ r with receivedMessages := r.receivedMessages.insert key msg }, []) := by
  unfold respond
  simp only [h]

/-- Push a message to the consumer it is for, when that one is registered. -/
def deliver (r : Receiver) (consumerId : Nat) (msg : Message) : List Effect :=
  (r.consumers.lookup consumerId).toList.map fun resolver => .deliver resolver msg

/-- The body of the inbound loop of `Receiver::poll`.  `ping` and `pong` are looked at before the
    key; a `CloseConsumer` is first tried as the answer to the PENDING REQUEST of its request id. -/
def handleInbound (r : Receiver) (msg : Message) : Receiver × List Effect :=
  if msg.command.ping.isSome then
    if r.controlClosed then ({ r with error := r.error.set .Disconnected }, [])
    else ({ r with control := r.control ++ [Messages.pong] }, [])
  else if msg.command.pong.isSome then
    ({ r with ping := none }, r.ping.toList.map .pong)
  else
    match msg.requestKey with
    | some (.RequestId requestId) => r.respond (.RequestId requestId) msg
    | some (.ProducerSend producerId sequenceId) =>
      r.respond (.ProducerSend producerId sequenceId) msg
    | some (.Consumer consumerId) => (r, r.deliver consumerId msg)
    | some (.CloseConsumer consumerId requestId) =>
      match r.pendingRequests.lookup (.RequestId requestId) with
      | some resolver =>
        ({ r with pendingRequests := r.pendingRequests.erase (.RequestId requestId) },
          [.resolve resolver msg])
      | none => (r, r.deliver consumerId msg)
    | some .AuthChallenge => ({ r with authChallenge := r.authChallenge + 1 }, [])
    | none => (r, [])

/-- The key a message is routed by: a `ping` or a `pong` is not routed. -/
def routed (m : Message) : Option RequestKey :=
  if m.command.ping.isSome || m.command.pong.isSome then none else m.requestKey

/-- A routed message goes where its key says. -/
theorem handleInbound_of_routed {r : Receiver} {m : Message} {k : RequestKey}
    (h : routed m = some k) :
    r.handleInbound m = match k with
      | .RequestId requestId => r.respond (.RequestId requestId) m
      | .ProducerSend producerId sequenceId => r.respond (.ProducerSend producerId sequenceId) m
      | .Consumer consumerId => (r, r.deliver consumerId m)
      | .CloseConsumer consumerId requestId =>
        match r.pendingRequests.lookup (.RequestId requestId) with
        | some resolver =>
          ({ r with pendingRequests := r.pendingRequests.erase (.RequestId requestId) },
            [.resolve resolver m])
        | none => (r, r.deliver consumerId m)
      | .AuthChallenge => ({ r with authChallenge := r.authChallenge + 1 }, []) := by
  unfold routed at h
  by_cases hp : m.command.ping.isSome || m.command.pong.isSome
  · rw [if_pos hp] at h
    exact absurd h (Option.some_ne_none k).symm
  · rw [if_neg hp] at h
    rw [Bool.not_eq_true, Bool.or_eq_false_iff] at hp
    unfold handleInbound
    rw [hp.1, hp.2, h, if_neg Bool.false_ne_true, if_neg Bool.false_ne_true]
    cases k <;> rfl

/-- A `CloseConsumer` that is taken for the answer to a request. -/
theorem handleInbound_close_waiting {r : Receiver} {m : Message} {consumerId requestId : Nat}
    {resolver : Resolver} (h : routed m = some (.CloseConsumer consumerId requestId))
    (hp : r.pendingRequests.lookup (.RequestId requestId) = some resolver) :
    r.handleInbound m =
      ({ r with pendingRequests := r.pendingRequests.erase (.RequestId requestId) },
        [.resolve resolver m]) := by
  rw [handleInbound_of_routed h]
  simp only [hp]

/-- … and one that is not. -/
theorem handleInbound_close {r : Receiver} {m : Message} {consumerId requestId : Nat}
    (h : routed m = some (.CloseConsumer consumerId requestId))
    (hp : r.pendingRequests.lookup (.RequestId requestId) = none) :
    r.handleInbound m = (r, r.deliver consumerId m) := by
  rw [handleInbound_of_routed h]
  simp only [hp]

/-- A message that is not routed leaves the tables alone and completes no request. -/
theorem handleInbound_of_not_routed {r : Receiver} {m : Message} (h : routed m = none) :
    (r.handleInbound m).1.pendingRequests = r.pendingRequests ∧
      (r.handleInbound m).1.receivedMessages = r.receivedMessages ∧
      (r.handleInbound m).1.registrations = r.registrations ∧
      (r.handleInbound m).2.filterMap Effect.resolved = [] := by
  unfold routed at h
  unfold handleInbound
  by_cases hping : m.command.ping.isSome = true
  · rw [if_pos hping]
    by_cases hc : r.controlClosed = true
    · simp [hc]
    · simp [hc]
  · by_cases hpong : m.command.pong.isSome = true
    · rw [if_neg hping, if_pos hpong]
      cases hp : r.ping <;> simp [Effect.resolved]
    · rw [if_neg hping, if_neg hpong]
      rw [if_neg (by simp [hping, hpong])] at h
      rw [h]
      simp

theorem resolved_deliver (r : Receiver) (consumerId : Nat) (m : Message) :
    (r.deliver consumerId m).filterMap Effect.resolved = [] := by
  unfold deliver
  cases r.consumers.lookup consumerId <;> simp [Effect.resolved]

/-! ## One step of `poll` -/

/-- `Receiver::poll`, from one point where the queues may have grown to the next. -/
def poll (r : Receiver) : Phase → Option (Phase × Receiver × List Effect)
  | .idle => if r.shutdown then some (.done, r, []) else some (.registrations, r, [])
  | .registrations =>
    match r.registrations with
    | reg :: rest =>
      some (.registrations, ({ r with registrations := rest } : Receiver).handleRegistration reg)
    | [] =>
      if r.registrationsClosed then
        some (.done, { r with error := r.error.set .Disconnected }, [])
      else some (.inbound, r, [])
  | .inbound =>
    match r.inbound with
    | .msg m :: rest => some (.inbound, ({ r with inbound := rest } : Receiver).handleInbound m)
    | .err e :: rest => some (.done, { r with inbound := rest, error := r.error.set e }, [])
    | [] =>
      if r.inboundClosed then some (.done, { r with error := r.error.set .Disconnected }, [])
      else some (.idle, r, [])
  | .done => none

/-! ## Frames -/

/-- A registration that is not a ping touches the three tables only. -/
theorem handleRegistration_frame (r : Receiver) {reg : Register} (hreg : ∀ c, reg ≠ .Ping c) :
    ∃ pendingRequests receivedMessages consumers,
      (r.handleRegistration reg).1 = { r with pendingRequests, receivedMessages, consumers } ∧
      ∀ e ∈ (r.handleRegistration reg).2, e.onPing = false := by
  cases reg with
  | Request key resolver =>
    cases hm : r.receivedMessages.lookup key with
    | some msg =>
      refine ⟨r.pendingRequests, r.receivedMessages.erase key, r.consumers, ?_, ?_⟩
      · simp [handleRegistration, hm]
      · simp [handleRegistration, hm, Effect.onPing]
    | none =>
      refine ⟨r.pendingRequests.insert key resolver, r.receivedMessages, r.consumers, ?_, ?_⟩
      · simp [handleRegistration, hm]
      · simp [handleRegistration, hm, Effect.onPing]
  | Consumer consumerId resolver =>
    exact ⟨r.pendingRequests, r.receivedMessages, r.consumers.insert consumerId resolver, rfl,
      fun e he => absurd he List.not_mem_nil⟩
  | RemoveConsumer consumerId =>
    exact ⟨r.pendingRequests, r.receivedMessages, r.consumers.erase consumerId, rfl,
      fun e he => absurd he List.not_mem_nil⟩
  | Ping resolver => exact absurd rfl (hreg resolver)

theorem onPing_deliver (r : Receiver) (consumerId : Nat) (m : Message) :
    ∀ e ∈ r.deliver consumerId m, e.onPing = false := by
  unfold deliver
  cases r.consumers.lookup consumerId <;> simp [Effect.onPing]

theorem respond_frame (r : Receiver) (key : RequestKey) (m : Message) :
    ∃ pendingRequests receivedMessages,
      (r.respond key m).1 = { r with pendingRequests, receivedMessages } ∧
      ∀ e ∈ (r.respond key m).2, e.onPing = false := by
  cases hr : r.pendingRequests.lookup key with
  | some resolver =>
    refine ⟨r.pendingRequests.erase key, r.receivedMessages, ?_, ?_⟩
    · simp [respond, hr]
    · simp [respond, hr, Effect.onPing]
  | none =>
    refine ⟨r.pendingRequests, r.receivedMessages.insert key m, ?_, ?_⟩
    · simp [respond, hr]
    · simp [respond, hr]

/-- A message that is neither a ping nor a pong touches the two response tables and the count of
    auth challenges only. -/
theorem handleInbound_frame (r : Receiver) {m : Message} (hping : m.command.ping.isSome = false)
    (hpong : m.command.pong.isSome = false) :
    ∃ pendingRequests receivedMessages authChallenge,
      (r.handleInbound m).1 = { r with pendingRequests, receivedMessages, authChallenge } ∧
      ∀ e ∈ (r.handleInbound m).2, e.onPing = false := by
  have hr : routed m = m.requestKey := by
    unfold routed
    rw [hping, hpong]
    rfl
  cases hk : m.requestKey with
  | none =>
    refine ⟨r.pendingRequests, r.receivedMessages, r.authChallenge, ?_, ?_⟩
    · simp [handleInbound, hping, hpong, hk]
    · simp [handleInbound, hping, hpong, hk]
  | some k =>
    rw [handleInbound_of_routed (hr.trans hk)]
    cases k with
    | RequestId requestId =>
      obtain ⟨p, q, heq, hes⟩ := r.respond_frame (.RequestId requestId) m
      exact ⟨p, q, r.authChallenge, heq, hes⟩
    | ProducerSend producerId sequenceId =>
      obtain ⟨p, q, heq, hes⟩ := r.respond_frame (.ProducerSend producerId sequenceId) m
      exact ⟨p, q, r.authChallenge, heq, hes⟩
    | Consumer consumerId =>
      exact ⟨r.pendingRequests, r.receivedMessages, r.authChallenge, rfl, r.onPing_deliver _ m⟩
    | CloseConsumer consumerId requestId =>
      cases hc : r.pendingRequests.lookup (.RequestId requestId) with
      | some resolver =>
        refine ⟨r.pendingRequests.erase (.RequestId requestId), r.receivedMessages,
          r.authChallenge, ?_, ?_⟩
        · simp [hc]
        · simp [hc, Effect.onPing]
      | none =>
        refine ⟨r.pendingRequests, r.receivedMessages, r.authChallenge, ?_, ?_⟩
        · simp [hc]
        · simpa [hc] using r.onPing_deliver consumerId m
    | AuthChallenge =>
      exact ⟨r.pendingRequests, r.receivedMessages, r.authChallenge + 1, rfl,
        fun e he => absurd he List.not_mem_nil⟩

/-! ## The queue of registrations only shrinks -/

theorem registrations_handleRegistration (r : Receiver) (reg : Register) :
    (r.handleRegistration reg).1.registrations = r.registrations := by
  by_cases hreg : ∃ c, reg = .Ping c
  · obtain ⟨c, rfl⟩ := hreg
    rfl
  · obtain ⟨p, q, c, heq, -⟩ := r.handleRegistration_frame fun c hc => hreg ⟨c, hc⟩
    rw [heq]

theorem registrations_handleInbound (r : Receiver) (m : Message) :
    (r.handleInbound m).1.registrations = r.registrations := by
  cases hk : routed m with
  | none => exact (handleInbound_of_not_routed hk).2.2.1
  | some k =>
    unfold routed at hk
    by_cases hp : m.command.ping.isSome || m.command.pong.isSome
    · rw [if_pos hp] at hk
      exact absurd hk (Option.some_ne_none k).symm
    · rw [Bool.not_eq_true, Bool.or_eq_false_iff] at hp
      obtain ⟨p, q, c, heq, -⟩ := r.handleInbound_frame hp.1 hp.2
      rw [heq]

/-- No message changes who is registered for a consumer. -/
theorem consumers_handleInbound (r : Receiver) (m : Message) :
    (r.handleInbound m).1.consumers = r.consumers := by
  by_cases hping : m.command.ping.isSome = true
  · unfold handleInbound
    rw [if_pos hping]
    split <;> rfl
  · by_cases hpong : m.command.pong.isSome = true
    · unfold handleInbound
      rw [if_neg hping, if_pos hpong]
    · obtain ⟨p, q, c, heq, -⟩ := r.handleInbound_frame (m := m) (Bool.eq_false_iff.mpr hping)
        (Bool.eq_false_iff.mpr hpong)
      rw [heq]

/-- What a step of the receiver takes. -/
inductive Polled (r : Receiver) (phase : Phase) : Phase × Receiver × List Effect → Prop where
  /-- nothing, or an error -/
  | rests (next : Phase) (inbound : List Inbound) (error : SharedError) :
      Polled r phase (next, { r with inbound, error }, [])
  | registers (reg : Register) (rest : List Register) (hphase : phase = .registrations)
      (hreg : r.registrations = reg :: rest) :
      Polled r phase
        (.registrations, ({ r with registrations := rest } : Receiver).handleRegistration reg)
  | receives (m : Message) (rest : List Inbound) (hphase : phase = .inbound)
      (hin : r.inbound = .msg m :: rest) :
      Polled r phase (.inbound, ({ r with inbound := rest } : Receiver).handleInbound m)

theorem polled {r : Receiver} {phase : Phase} {out : Phase × Receiver × List Effect}
    (h : r.poll phase = some out) : Polled r phase out := by
  cases phase with
  | idle =>
    simp only [poll] at h
    split at h <;> obtain rfl := Option.some.inj h <;> exact .rests _ r.inbound r.error
  | registrations =>
    simp only [poll] at h
    split at h
    · rename_i reg rest hreg
      obtain rfl := Option.some.inj h
      exact .registers reg rest rfl hreg
    · split at h <;> obtain rfl := Option.some.inj h <;> exact .rests _ r.inbound _
  | inbound =>
    simp only [poll] at h
    split at h
    · rename_i m rest hin
      obtain rfl := Option.some.inj h
      exact .receives m rest rfl hin
    · obtain rfl := Option.some.inj h
      exact .rests _ _ _
    · split at h <;> obtain rfl := Option.some.inj h <;> exact .rests _ r.inbound _
  | done =>
    simp only [poll] at h
    exact absurd h (Option.some_ne_none out).symm

theorem mem_registrations_of_poll {r : Receiver} {phase : Phase}
    {out : Phase × Receiver × List Effect} (h : r.poll phase = some out) :
    ∀ reg ∈ out.2.1.registrations, reg ∈ r.registrations := by
  intro reg hreg
  cases polled h with
  | rests next inbound error => exact hreg
  | registers first rest hphase heq =>
    rw [registrations_handleRegistration] at hreg
    rw [heq]
    exact List.mem_cons_of_mem first hreg
  | receives m rest hphase hin =>
    rw [registrations_handleInbound] at hreg
    exact hreg

end Receiver

end PulsarClient.Connection
