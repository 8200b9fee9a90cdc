/-
  RESPONSES REACH THEIR REQUESTS — the receiver, its clients and the socket, in any interleaving.

  A request and its response race: `send_message_non_blocking` pushes the registration and then the
  command, so the response can be read from the socket while the registration is still in its queue.
  The receiver therefore has one table for each order of arrival — `pendingRequests` for a request
  that waits, `receivedMessages` for a response that came early — and the claim is that this always
  works out, for any number of keys and any traffic in between.

  1. The SYSTEM (`responses`): the receiver's `poll` in single steps, the clients that register
     (`request`, `send`, `waitForExclusiveAccess`, …), the socket that delivers.  The state carries
     four logs that the code does not have: the registrations issued, the registrations the receiver
     has taken, the answers it has taken, and its effects.

  2. What ONE POLL STEP does to the two tables and the logs (`PollStep`): one of five things.

  3. The INVARIANT: for every key, the two tables and what has been handed over are those of
     `Rendezvous` for the registrations and answers of that key (`Meets`), and the clients never
     register under a key that is still unanswered (`inTurn`).

  A `CloseConsumer` from the broker is special: the code first tries it as the answer to the pending
  request of its request id.  So here it IS an answer to that request when one is pending
  (`answerOf`), and the last section shows that it cannot be seen any other way.
-/
import PulsarClient.Connection.Receiver
import PulsarClient.Lib.Rendezvous
import PulsarClient.Lib.Runs

namespace PulsarClient.Connection.Responses

open Runs Rendezvous Receiver

/-! ## The system -/

/-- The keys that are answered: request ids and producer sends. -/
def isResponse : RequestKey → Bool
  | .RequestId _ => true
  | .ProducerSend _ _ => true
  | _ => false

/-- Which key a message answers, as the receiver takes it: its own, and for a `CloseConsumer` the
    pending request of its request id, if there is one. -/
def answerOf (rx : Receiver) (m : Message) : Option RequestKey :=
  match routed m with
  | some (.RequestId requestId) => some (.RequestId requestId)
  | some (.ProducerSend producerId sequenceId) => some (.ProducerSend producerId sequenceId)
  | some (.CloseConsumer _ requestId) =>
    if (rx.pendingRequests.lookup (.RequestId requestId)).isSome then some (.RequestId requestId)
    else none
  | _ => none

/-- A connection as seen by the receiver: the receiver and where its `poll` is, the counters the
    clients take keys from, and the logs. -/
structure State where
  phase : Phase := .idle
  rx : Receiver := {}
  /-- `ConnectionSender::request_id` -/
  requestId : Nat := 0
  /-- for each producer, a bound on its `SerialId`: the sequence ids it will use are not below -/
  sequenceId : Nat → Nat := fun _ => 0
  /-- the oneshots made so far -/
  serial : Nat := 0
  /-- registrations pushed by the clients, in order -/
  issued : List Resolver := []
  /-- registrations taken by the receiver, in order -/
  registered : List Resolver := []
  /-- answers taken by the receiver, in order, with the key each answers -/
  answered : List (RequestKey × Message) := []
  effects : List Effect := []

namespace State

def issuedUnder (s : State) (k : RequestKey) : List Resolver := s.issued.filter (·.key = k)

def registeredUnder (s : State) (k : RequestKey) : List Resolver := s.registered.filter (·.key = k)

def answersTo (s : State) (k : RequestKey) : List Message :=
  (s.answered.filter (·.1 = k)).map (·.2)

/-- The messages handed to a resolver. -/
def handed (s : State) : List (Resolver × Message) :=
  s.effects.filterMap Effect.resolved

def handedUnder (s : State) (k : RequestKey) : List (Resolver × Message) :=
  s.handed.filter (·.1.key = k)

/-- The requests among the registrations the receiver has not taken yet. -/
def queued (s : State) : List Resolver :=
  s.rx.registrations.filterMap fun
    | .Request _ r => some r
    | _ => none

def queuedUnder (s : State) (k : RequestKey) : List Resolver := s.queued.filter (·.key = k)

/-- Push `Register::Request` for a new oneshot. -/
def register (s : State) (key : RequestKey) : State :=
  let r : Resolver := { key, serial := s.serial }
  { s with
    rx := { s.rx with registrations := s.rx.registrations ++ [.Request key r] }
    serial := s.serial + 1
    issued := s.issued ++ [r] }

/-- Push a registration that is not a request. -/
def enqueue (s : State) (reg : Register) : State :=
  { s with rx := { s.rx with registrations := s.rx.registrations ++ [reg] } }

/-- One step of the receiver task, logged. -/
def poll (s : State) : Option State :=
  match s.rx.poll s.phase with
  | none => none
  | some (phase, rx, effects) =>
    some { s with
      phase, rx
      effects := s.effects ++ effects
      registered := s.registered ++
        match s.phase, s.rx.registrations with
        | .registrations, .Request _ r :: _ => [r]
        | _, _ => []
      answered := s.answered ++
        match s.phase, s.rx.inbound with
        | .inbound, .msg m :: _ => ((answerOf s.rx m).map fun k => (k, m)).toList
        | _, _ => [] }

end State

inductive Action where
  /-- a request with a fresh request id -/
  | request
  /-- `ConnectionSender::send` of a producer; its `SerialId` may have moved on since its last send
      on this connection -/
  | send (producerId sequenceId : Nat)
  /-- `wait_for_exclusive_access`: register again under an id all of whose answers are in -/
  | waitForExclusiveAccess (requestId : Nat)
  /-- `ConnectionSender::auth_challenge` -/
  | authChallenge
  | registerConsumer (consumerId resolver : Nat)
  | removeConsumer (consumerId : Nat)
  | registerPing (resolver : Nat)
  /-- the socket delivers -/
  | arrive (item : Inbound)
  | endInbound
  | closeRegistrations
  | closeControl
  | shutdown
  /-- someone else marks the connection failed -/
  | setError (e : ConnectionError)
  /-- the receiver task takes a step -/
  | poll
  deriving DecidableEq, Repr

/-- One step.  A registration pushed after the receiver is gone fails and leaves no trace. -/
def step (s : State) : Action → Option State
  | .request =>
    if s.phase = .done then none
    else some { s.register (.RequestId s.requestId) with requestId := s.requestId + 1 }
  | .send producerId sequenceId =>
    if s.phase = .done ∨ sequenceId < s.sequenceId producerId then none
    else some { s.register (.ProducerSend producerId sequenceId) with
      sequenceId := Function.update s.sequenceId producerId (sequenceId + 1) }
  | .waitForExclusiveAccess requestId =>
    if s.phase = .done then none
    else if s.issuedUnder (.RequestId requestId) ≠ [] ∧
        (s.handedUnder (.RequestId requestId)).length
          = (s.issuedUnder (.RequestId requestId)).length then
      some (s.register (.RequestId requestId))
    else none
  | .authChallenge => if s.phase = .done then none else some (s.register .AuthChallenge)
  | .registerConsumer consumerId resolver =>
    if s.phase = .done then none else some (s.enqueue (.Consumer consumerId resolver))
  | .removeConsumer consumerId =>
    if s.phase = .done then none else some (s.enqueue (.RemoveConsumer consumerId))
  | .registerPing resolver =>
    if s.phase = .done then none else some (s.enqueue (.Ping resolver))
  | .arrive item => some { s with rx := { s.rx with inbound := s.rx.inbound ++ [item] } }
  | .endInbound => some { s with rx := { s.rx with inboundClosed := true } }
  | .closeRegistrations => some { s with rx := { s.rx with registrationsClosed := true } }
  | .closeControl => some { s with rx := { s.rx with controlClosed := true } }
  | .shutdown => some { s with rx := { s.rx with shutdown := true } }
  | .setError e => some { s with rx := { s.rx with error := s.rx.error.set e } }
  | .poll => s.poll

/-- The connection, from the moment the receiver is spawned; its producers may come from another
    connection, with any sequence ids. -/
def responses : Sys State Action where
  init s := ∃ sequenceId, s = { sequenceId }
  step := step

/-- The broker's side of the bargain, where the receiver takes an answer to `k`: it is at most one
    per registration — fewer answers than registrations so far, or every answer so far has been
    handed over and the client may register again. -/
def inTurn (s : State) (k : RequestKey) : Bool :=
  decide ((s.answersTo k).length < (s.issuedUnder k).length
    ∨ (s.answersTo k).length = (s.handedUnder k).length)

/-- `inTurn`, for the message the next step takes (if it takes one that carries a response key). -/
def answeredOnce (s : State) (a : Action) : Bool :=
  match a, s.phase, s.rx.inbound with
  | .poll, .inbound, .msg m :: _ =>
    match routed m with
    | some k => !isResponse k || inTurn s k
    | none => true
  | _, _, _ => true

/-! ## What one poll step does -/

/-- What the receiver takes (`Receiver.Polled`), and what it leaves. -/
inductive Polled (s s' : State) : Prop where
  /-- nothing, or an error -/
  | rests (inbound : List Inbound) (error : SharedError)
      (hrx : s'.rx = { s.rx with inbound, error }) (heffects : s'.effects = s.effects)
  | registers (reg : Register) (rest : List Register) (hreg : s.rx.registrations = reg :: rest)
      (hrx : s'.rx = (({ s.rx with registrations := rest } : Receiver).handleRegistration reg).1)
      (heffects : s'.effects = s.effects ++
        (({ s.rx with registrations := rest } : Receiver).handleRegistration reg).2)
  | receives (m : Message) (rest : List Inbound) (hphase : s.phase = .inbound)
      (hin : s.rx.inbound = .msg m :: rest)
      (hrx : s'.rx = (({ s.rx with inbound := rest } : Receiver).handleInbound m).1)
      (heffects : s'.effects = s.effects ++
        (({ s.rx with inbound := rest } : Receiver).handleInbound m).2)

theorem polled {s s' : State} (h : s.poll = some s') : Polled s s' := by
  unfold State.poll at h
  cases hpoll : s.rx.poll s.phase with
  | none =>
    rw [hpoll] at h
    cases h
  | some out =>
    rw [hpoll] at h
    obtain rfl := Option.some.inj h
    cases Receiver.polled hpoll with
    | rests next inbound error => exact .rests inbound error rfl (List.append_nil _)
    | registers reg rest hphase hreg => exact .registers reg rest hreg rfl rfl
    | receives m rest hphase hin => exact .receives m rest hphase hin rfl rfl

/-- What a step does to the connection: the receiver polls, a client pushes a registration, or the world
    moves. -/
inductive Stepped (s : State) (a : Action) (s' : State) : Prop where
  | polls (ha : a = .poll) (h : s.poll = some s')
  | registers (key : RequestKey)
      (hrx : s'.rx = { s.rx with
        registrations := s.rx.registrations ++ [.Request key { key, serial := s.serial }] })
      (hserial : s'.serial = s.serial + 1) (heffects : s'.effects = s.effects)
  /-- not a request -/
  | enqueues (reg : Register) (hreg : ∀ key r, reg ≠ .Request key r)
      (hconsumer : ∀ c r, reg = .Consumer c r → a = .registerConsumer c r)
      (hremove : ∀ c, reg = .RemoveConsumer c → a = .removeConsumer c) (hs' : s' = s.enqueue reg)
  /-- no registration, and no table -/
  | world (rx : Receiver) (hregistrations : rx.registrations = s.rx.registrations)
      (hpending : rx.pendingRequests = s.rx.pendingRequests)
      (hreceived : rx.receivedMessages = s.rx.receivedMessages)
      (hconsumers : rx.consumers = s.rx.consumers) (hs' : s' = { s with rx })

theorem stepped {s s' : State} {a : Action} (h : step s a = some s') : Stepped s a s' := by
  cases a with
  | poll => exact .polls rfl h
  | request | authChallenge =>
    simp only [step] at h
    split at h
    · cases h
    · obtain rfl := Option.some.inj h
      exact .registers _ rfl rfl rfl
  | send producerId sequenceId =>
    simp only [step] at h
    split at h
    · cases h
    · obtain rfl := Option.some.inj h
      exact .registers _ rfl rfl rfl
  | waitForExclusiveAccess requestId =>
    simp only [step] at h
    split at h
    · cases h
    · split at h
      · obtain rfl := Option.some.inj h
        exact .registers _ rfl rfl rfl
      · cases h
  | registerConsumer consumerId resolver =>
    simp only [step] at h
    split at h
    · cases h
    · refine .enqueues (.Consumer consumerId resolver) ?_ ?_ ?_ (Option.some.inj h).symm
      · exact fun _ _ => Register.noConfusion
      · rintro c r ⟨⟩
        rfl
      · exact fun _ => Register.noConfusion
  | removeConsumer consumerId =>
    simp only [step] at h
    split at h
    · cases h
    · refine .enqueues (.RemoveConsumer consumerId) ?_ ?_ ?_ (Option.some.inj h).symm
      · exact fun _ _ => Register.noConfusion
      · exact fun _ _ => Register.noConfusion
      · rintro c ⟨⟩
        rfl
  | registerPing resolver =>
    simp only [step] at h
    split at h
    · cases h
    · refine .enqueues (.Ping resolver) ?_ ?_ ?_ (Option.some.inj h).symm
      · exact fun _ _ => Register.noConfusion
      · exact fun _ _ => Register.noConfusion
      · exact fun _ => Register.noConfusion
  | arrive | endInbound | closeRegistrations | closeControl | shutdown | setError =>
    refine .world _ ?_ ?_ ?_ ?_ (Option.some.inj h).symm <;> rfl

/-- The five things a step of the receiver can do to the tables and the logs. -/
inductive PollStep (s s' : State) : Prop where
  /-- neither a request nor an answer was taken -/
  | quiet (hQ : s'.queued = s.queued) (hR : s'.registered = s.registered)
      (hA : s'.answered = s.answered) (hH : s'.handed = s.handed)
      (hw : s'.rx.pendingRequests = s.rx.pendingRequests)
      (he : s'.rx.receivedMessages = s.rx.receivedMessages)
  /-- a request was taken whose answer was already there -/
  | meetsEarly (r : Resolver) (m : Message) (hm : s.rx.receivedMessages.lookup r.key = some m)
      (hQ : s.queued = r :: s'.queued) (hR : s'.registered = s.registered ++ [r])
      (hA : s'.answered = s.answered) (hH : s'.handed = s.handed ++ [(r, m)])
      (hw : s'.rx.pendingRequests = s.rx.pendingRequests)
      (he : s'.rx.receivedMessages = s.rx.receivedMessages.erase r.key)
  /-- a request was taken, and waits -/
  | waits (r : Resolver) (hm : s.rx.receivedMessages.lookup r.key = none)
      (hQ : s.queued = r :: s'.queued) (hR : s'.registered = s.registered ++ [r])
      (hA : s'.answered = s.answered) (hH : s'.handed = s.handed)
      (hw : s'.rx.pendingRequests = s.rx.pendingRequests.insert r.key r)
      (he : s'.rx.receivedMessages = s.rx.receivedMessages)
  /-- an answer was taken whose request waited -/
  | meetsWaiting (k : RequestKey) (r : Resolver) (m : Message) (hk : answerOf s.rx m = some k)
      (hr : s.rx.pendingRequests.lookup k = some r)
      (hQ : s'.queued = s.queued) (hR : s'.registered = s.registered)
      (hA : s'.answered = s.answered ++ [(k, m)]) (hH : s'.handed = s.handed ++ [(r, m)])
      (hw : s'.rx.pendingRequests = s.rx.pendingRequests.erase k)
      (he : s'.rx.receivedMessages = s.rx.receivedMessages)
  /-- an answer was taken, and is kept -/
  | kept (k : RequestKey) (m : Message) (hk : routed m = some k) (hresp : isResponse k = true)
      (hturn : answeredOnce s .poll = true → inTurn s k = true)
      (hr : s.rx.pendingRequests.lookup k = none)
      (hQ : s'.queued = s.queued) (hR : s'.registered = s.registered)
      (hA : s'.answered = s.answered ++ [(k, m)]) (hH : s'.handed = s.handed)
      (hw : s'.rx.pendingRequests = s.rx.pendingRequests)
      (he : s'.rx.receivedMessages = s.rx.receivedMessages.insert k m)

/-- Every queued registration is under the key of its resolver. -/
def KeysMatch (s : State) : Prop :=
  ∀ key r, Register.Request key r ∈ s.rx.registrations → r.key = key

theorem pollStep_registrations {s s' : State} (hk : KeysMatch s) (hph : s.phase = .registrations)
    (h : s.poll = some s') : PollStep s s' := by
  unfold State.poll at h
  rw [hph] at h
  cases hreg : s.rx.registrations with
  | nil =>
    by_cases hc : s.rx.registrationsClosed = true
    · simp [Receiver.poll, hreg, hc] at h
      subst h
      exact .quiet (by simp [State.queued, hreg]) rfl rfl rfl rfl rfl
    · simp [Receiver.poll, hreg, hc] at h
      subst h
      exact .quiet rfl rfl rfl rfl rfl rfl
  | cons reg rest =>
    cases reg with
    | Request key r =>
      obtain rfl : r.key = key := hk key r (by rw [hreg]; exact List.mem_cons_self ..)
      cases hm : s.rx.receivedMessages.lookup r.key with
      | some m =>
        simp [Receiver.poll, handleRegistration, hreg, hm] at h
        subst h
        exact .meetsEarly r m hm (by simp [State.queued, hreg]) rfl rfl
          (by simp [State.handed, Effect.resolved]) rfl rfl
      | none =>
        simp [Receiver.poll, handleRegistration, hreg, hm] at h
        subst h
        refine .waits r hm (by simp [State.queued, hreg]) rfl rfl ?_ rfl rfl
        cases s.rx.pendingRequests.lookup r.key <;> simp [State.handed, Effect.resolved]
    | Consumer consumerId resolver =>
      simp [Receiver.poll, handleRegistration, hreg] at h
      subst h
      exact .quiet (by simp [State.queued, hreg]) rfl rfl rfl rfl rfl
    | RemoveConsumer consumerId =>
      simp [Receiver.poll, handleRegistration, hreg] at h
      subst h
      exact .quiet (by simp [State.queued, hreg]) rfl rfl rfl rfl rfl
    | Ping resolver =>
      simp [Receiver.poll, handleRegistration, hreg] at h
      subst h
      refine .quiet (by simp [State.queued, hreg]) rfl rfl ?_ rfl rfl
      cases s.rx.ping <;> simp [State.handed, Effect.resolved]

/-- A message with a response key of its own: the two arms of `respond`. -/
theorem pollStep_respond {s s' : State} {m : Message} {rest : List Inbound} {k : RequestKey}
    {out : Receiver × List Effect} (hph : s.phase = .inbound)
    (hin : s.rx.inbound = .msg m :: rest) (hk : routed m = some k) (hresp : isResponse k = true)
    (hans : answerOf s.rx m = some k)
    (hout : out = ({ s.rx with inbound := rest } : Receiver).respond k m)
    (h : ({ s with
      phase := .inbound, rx := out.1
      effects := s.effects ++ out.2
      registered := s.registered ++ []
      answered := s.answered ++ ((answerOf s.rx m).map fun k => (k, m)).toList } : State) = s') :
    PollStep s s' := by
  have hturn : answeredOnce s .poll = true → inTurn s k = true := by
    intro ho
    simpa [answeredOnce, hph, hin, hk, hresp] using ho
  rw [hans] at h
  cases hr : s.rx.pendingRequests.lookup k with
  | some r =>
    simp only [respond, hr] at hout
    subst hout h
    exact .meetsWaiting k r m hans hr rfl (by simp) rfl
      (by simp [State.handed, Effect.resolved]) rfl rfl
  | none =>
    simp only [respond, hr] at hout
    subst hout h
    exact .kept k m hk hresp hturn hr rfl (by simp) rfl (by simp [State.handed]) rfl rfl

/-- A message taken from the inbound queue. -/
theorem pollStep_message {s s' : State} {m : Message} {rest : List Inbound}
    (hph : s.phase = .inbound) (hin : s.rx.inbound = .msg m :: rest) (h : s.poll = some s') :
    PollStep s s' := by
  unfold State.poll at h
  simp only [Receiver.poll, hph, hin, Option.some.injEq] at h
  cases hk : routed m with
  | none =>
    obtain ⟨hw, he, hq, hres⟩ :=
      handleInbound_of_not_routed (r := { s.rx with inbound := rest }) hk
    subst h
    refine .quiet ?_ (by simp) (by simp [answerOf, hk]) (by simp [State.handed, hres]) hw he
    simp only [State.queued]
    rw [hq]
  | some k =>
    rw [handleInbound_of_routed hk] at h
    cases k with
    | RequestId requestId => exact pollStep_respond hph hin hk rfl (by simp [answerOf, hk]) rfl h
    | ProducerSend producerId sequenceId =>
      exact pollStep_respond hph hin hk rfl (by simp [answerOf, hk]) rfl h
    | Consumer consumerId =>
      subst h
      exact .quiet rfl (by simp) (by simp [answerOf, hk])
        (by simp [State.handed, resolved_deliver]) rfl rfl
    | CloseConsumer consumerId requestId =>
      cases hr : s.rx.pendingRequests.lookup (.RequestId requestId) with
      | some r =>
        have hans : answerOf s.rx m = some (.RequestId requestId) := by simp [answerOf, hk, hr]
        simp only [hr, hans] at h
        subst h
        exact .meetsWaiting _ r m hans hr rfl (by simp) rfl
          (by simp [State.handed, Effect.resolved]) rfl rfl
      | none =>
        simp only [hr] at h
        subst h
        exact .quiet rfl (by simp) (by simp [answerOf, hk, hr])
          (by simp [State.handed, resolved_deliver]) rfl rfl
    | AuthChallenge =>
      subst h
      exact .quiet rfl (by simp) (by simp [answerOf, hk]) (by simp [State.handed]) rfl rfl

/-- **Every poll step is one of the five.** -/
theorem pollStep {s s' : State} (hk : KeysMatch s) (h : s.poll = some s') : PollStep s s' := by
  cases hph : s.phase with
  | idle =>
    unfold State.poll at h
    by_cases hs : s.rx.shutdown = true
    · simp [Receiver.poll, hph, hs] at h
      subst h
      exact .quiet rfl rfl rfl rfl rfl rfl
    · simp [Receiver.poll, hph, hs] at h
      subst h
      exact .quiet rfl rfl rfl rfl rfl rfl
  | registrations => exact pollStep_registrations hk hph h
  | inbound =>
    cases hin : s.rx.inbound with
    | cons item rest =>
      cases item with
      | msg m => exact pollStep_message hph hin h
      | err e =>
        simp [State.poll, Receiver.poll, hph, hin] at h
        subst h
        exact .quiet rfl rfl rfl rfl rfl rfl
    | nil =>
      by_cases hc : s.rx.inboundClosed = true
      · simp [State.poll, Receiver.poll, hph, hin, hc] at h
        subst h
        exact .quiet rfl rfl rfl rfl rfl rfl
      · simp [State.poll, Receiver.poll, hph, hin, hc] at h
        subst h
        exact .quiet rfl rfl rfl rfl rfl rfl
  | done => simp [State.poll, Receiver.poll, hph] at h

/-! ## The logs of one key -/

section Logs

variable {s s' : State} {k : RequestKey}

theorem issuedUnder_congr (h : s'.issued = s.issued) : s'.issuedUnder k = s.issuedUnder k := by
  unfold State.issuedUnder
  rw [h]

theorem issuedUnder_concat {r : Resolver} (h : s'.issued = s.issued ++ [r]) :
    s'.issuedUnder k = if r.key = k then s.issuedUnder k ++ [r] else s.issuedUnder k := by
  unfold State.issuedUnder
  rw [h, List.filter_append]
  by_cases hk : r.key = k <;> simp [hk]

theorem registeredUnder_congr (h : s'.registered = s.registered) :
    s'.registeredUnder k = s.registeredUnder k := by
  unfold State.registeredUnder
  rw [h]

theorem registeredUnder_concat {r : Resolver} (h : s'.registered = s.registered ++ [r]) :
    s'.registeredUnder k = if r.key = k then s.registeredUnder k ++ [r] else s.registeredUnder k := by
  unfold State.registeredUnder
  rw [h, List.filter_append]
  by_cases hk : r.key = k <;> simp [hk]

theorem answersTo_congr (h : s'.answered = s.answered) : s'.answersTo k = s.answersTo k := by
  unfold State.answersTo
  rw [h]

theorem answersTo_concat {k' : RequestKey} {m : Message} (h : s'.answered = s.answered ++ [(k', m)]) :
    s'.answersTo k = if k' = k then s.answersTo k ++ [m] else s.answersTo k := by
  unfold State.answersTo
  rw [h, List.filter_append]
  by_cases hk : k' = k <;> simp [hk]

theorem handedUnder_congr (h : s'.handed = s.handed) : s'.handedUnder k = s.handedUnder k := by
  unfold State.handedUnder
  rw [h]

theorem handedUnder_concat {r : Resolver} {m : Message} (h : s'.handed = s.handed ++ [(r, m)]) :
    s'.handedUnder k = if r.key = k then s.handedUnder k ++ [(r, m)] else s.handedUnder k := by
  unfold State.handedUnder
  rw [h, List.filter_append]
  by_cases hk : r.key = k <;> simp [hk]

theorem queuedUnder_congr (h : s'.queued = s.queued) : s'.queuedUnder k = s.queuedUnder k := by
  unfold State.queuedUnder
  rw [h]

theorem queuedUnder_cons {r : Resolver} (h : s.queued = r :: s'.queued) :
    s.queuedUnder k = if r.key = k then r :: s'.queuedUnder k else s'.queuedUnder k := by
  unfold State.queuedUnder
  rw [h, List.filter_cons]
  by_cases hk : r.key = k <;> simp [hk]

theorem queuedUnder_concat {r : Resolver} (h : s'.queued = s.queued ++ [r]) :
    s'.queuedUnder k = if r.key = k then s.queuedUnder k ++ [r] else s.queuedUnder k := by
  unfold State.queuedUnder
  rw [h, List.filter_append]
  by_cases hk : r.key = k <;> simp [hk]

end Logs

/-! ## The invariant -/

/-- What holds between any two steps. -/
structure Inv (s : State) : Prop where
  /-- for every key that is answered, the tables and the hand-overs are those of the rendezvous -/
  meets : ∀ k, isResponse k = true →
    Meets (s.registeredUnder k) (s.answersTo k) (s.handedUnder k)
      (s.rx.pendingRequests.lookup k) (s.rx.receivedMessages.lookup k)
  /-- no other key has a kept message -/
  others : ∀ k, isResponse k = false → s.rx.receivedMessages.lookup k = none
  keysMatch : KeysMatch s
  /-- registrations are taken in the order they were issued, and none gets lost -/
  issued : s.issued = s.registered ++ s.queued
  /-- the clients do not get ahead of the answers -/
  oneQueued : ∀ k, isResponse k = true → (s.queuedUnder k).length ≤ 1 ∧
    (s.queuedUnder k ≠ [] → (s.registeredUnder k).length ≤ (s.answersTo k).length)
  freshRequestId : ∀ n, s.requestId ≤ n → s.issuedUnder (.RequestId n) = []
  freshSequenceId : ∀ p q, s.sequenceId p ≤ q → s.issuedUnder (.ProducerSend p q) = []
  /-- an answer is filed under its own key, or is a `CloseConsumer` filed under its request id -/
  ownKey : ∀ k m, (k, m) ∈ s.answered →
    routed m = some k ∨ ∃ c n, routed m = some (.CloseConsumer c n) ∧ k = .RequestId n
  /-- only requests that are answered are completed -/
  handedKey : ∀ r m, (r, m) ∈ s.handed → isResponse r.key = true

theorem answerOf_spec {rx : Receiver} {m : Message} {k : RequestKey} (h : answerOf rx m = some k) :
    isResponse k = true ∧
      (routed m = some k ∨ ∃ c n, routed m = some (.CloseConsumer c n) ∧ k = .RequestId n) := by
  unfold answerOf at h
  split at h
  · obtain rfl := Option.some.inj h
    exact ⟨rfl, Or.inl ‹_›⟩
  · obtain rfl := Option.some.inj h
    exact ⟨rfl, Or.inl ‹_›⟩
  · split at h
    · obtain rfl := Option.some.inj h
      exact ⟨rfl, Or.inr ⟨_, _, ‹_›, rfl⟩⟩
    · exact absurd h (Option.some_ne_none k).symm
  · exact absurd h (Option.some_ne_none k).symm

theorem Inv.length_issuedUnder {s : State} (h : Inv s) (k : RequestKey) :
    (s.issuedUnder k).length = (s.registeredUnder k).length + (s.queuedUnder k).length := by
  unfold State.issuedUnder State.registeredUnder State.queuedUnder
  rw [h.issued, List.filter_append, List.length_append]

/-- The broker's side of the bargain, as the tables see it: the answers are not ahead. -/
theorem Inv.answers_le {s : State} (h : Inv s) {k : RequestKey} (hk : isResponse k = true)
    (ht : inTurn s k = true) : (s.answersTo k).length ≤ (s.registeredUnder k).length := by
  have hlen := h.length_issuedUnder k
  have hone := (h.oneQueued k hk).1
  have hmin := (h.meets k hk).length_handed
  rcases of_decide_eq_true ht with hlt | heq
  · rcases Nat.eq_zero_or_pos (s.queuedUnder k).length with hq | hq
    · omega
    · have := (h.oneQueued k hk).2 (List.ne_nil_of_length_pos hq)
      omega
  · omega

/-- A pending request is filed under its own key. -/
theorem Inv.key_of_pending {s : State} (h : Inv s) {k : RequestKey} {r : Resolver}
    (hk : isResponse k = true) (hr : s.rx.pendingRequests.lookup k = some r) : r.key = k := by
  have hm := h.meets k hk
  rw [hr] at hm
  exact of_decide_eq_true (List.mem_filter.mp hm.mem_of_waiting).2

/-- The rendezvous of every key, after a poll step. -/
theorem Inv.meets_poll {s s' : State} (h : Inv s) (hok : answeredOnce s .poll = true)
    (hs : PollStep s s') (k : RequestKey) (hk : isResponse k = true) :
    Meets (s'.registeredUnder k) (s'.answersTo k) (s'.handedUnder k)
      (s'.rx.pendingRequests.lookup k) (s'.rx.receivedMessages.lookup k) := by
  have hm := h.meets k hk
  cases hs with
  | quiet hQ hR hA hH hw he =>
    rw [registeredUnder_congr hR, answersTo_congr hA, handedUnder_congr hH, hw, he]
    exact hm
  | meetsEarly r m hr hQ hR hA hH hw he =>
    rw [registeredUnder_concat hR, answersTo_congr hA, handedUnder_concat hH, hw, he]
    by_cases hrk : r.key = k
    · subst hrk
      rw [if_pos rfl, if_pos rfl, Finmap.lookup_erase]
      rw [hr] at hm
      exact hm.request_meets_early r
    · rw [if_neg hrk, if_neg hrk, Finmap.lookup_erase_ne (Ne.symm hrk)]
      exact hm
  | waits r hr hQ hR hA hH hw he =>
    rw [registeredUnder_concat hR, answersTo_congr hA, handedUnder_congr hH, hw, he]
    by_cases hrk : r.key = k
    · subst hrk
      rw [if_pos rfl, Finmap.lookup_insert, hr]
      rw [hr] at hm
      -- the request was in the queue, so the clients have seen all earlier answers
      have hqne : s.queuedUnder r.key ≠ [] := by
        rw [queuedUnder_cons hQ, if_pos rfl]
        exact List.cons_ne_nil _ _
      exact hm.request_waits r ((h.oneQueued _ hk).2 hqne)
    · rw [if_neg hrk, Finmap.lookup_insert_of_ne _ (Ne.symm hrk)]
      exact hm
  | meetsWaiting k' r m hans hr hQ hR hA hH hw he =>
    rw [registeredUnder_congr hR, answersTo_concat hA, handedUnder_concat hH,
      h.key_of_pending (answerOf_spec hans).1 hr, hw, he]
    by_cases hkk : k' = k
    · subst hkk
      rw [if_pos rfl, if_pos rfl, Finmap.lookup_erase]
      rw [hr] at hm
      exact hm.answer_meets_waiting m
    · rw [if_neg hkk, if_neg hkk, Finmap.lookup_erase_ne (Ne.symm hkk)]
      exact hm
  | kept k' m hrt hresp hturn hr hQ hR hA hH hw he =>
    rw [registeredUnder_congr hR, answersTo_concat hA, handedUnder_congr hH, hw, he]
    by_cases hkk : k' = k
    · subst hkk
      rw [if_pos rfl, Finmap.lookup_insert, hr]
      rw [hr] at hm
      exact hm.answer_is_kept m (h.answers_le hk (hturn hok))
    · rw [if_neg hkk, Finmap.lookup_insert_of_ne _ (Ne.symm hkk)]
      exact hm

/-- Counters and registrations a poll step does not touch. -/
theorem frame_poll {s s' : State} (h : s.poll = some s') :
    s'.issued = s.issued ∧ s'.requestId = s.requestId ∧ s'.sequenceId = s.sequenceId := by
  unfold State.poll at h
  split at h
  · exact absurd h (Option.some_ne_none s').symm
  · obtain rfl := Option.some.inj h
    exact ⟨rfl, rfl, rfl⟩

/-- A step of the receiver takes registrations from its queue, and adds none. -/
theorem mem_registrations_poll {s s' : State} (h : s.poll = some s') :
    ∀ reg ∈ s'.rx.registrations, reg ∈ s.rx.registrations := by
  unfold State.poll at h
  cases hp : s.rx.poll s.phase with
  | none =>
    rw [hp] at h
    exact absurd h (Option.some_ne_none s').symm
  | some out =>
    rw [hp] at h
    obtain rfl := Option.some.inj h
    exact mem_registrations_of_poll hp

/-- A request was taken from the queue: the next one under its key is still ahead. -/
theorem Inv.oneQueued_taken {s s' : State} {r : Resolver} (h : Inv s)
    (hQ : s.queued = r :: s'.queued) (hR : s'.registered = s.registered ++ [r])
    (hA : s'.answered = s.answered) (k : RequestKey) (hk : isResponse k = true) :
    (s'.queuedUnder k).length ≤ 1 ∧
      (s'.queuedUnder k ≠ [] → (s'.registeredUnder k).length ≤ (s'.answersTo k).length) := by
  obtain ⟨hone, hle⟩ := h.oneQueued k hk
  rw [queuedUnder_cons hQ] at hone hle
  rw [registeredUnder_concat hR, answersTo_congr hA]
  by_cases hrk : r.key = k
  · rw [if_pos hrk, List.length_cons] at hone
    have hnil : s'.queuedUnder k = [] := List.length_eq_zero_iff.mp (by omega)
    rw [hnil]
    exact ⟨Nat.zero_le _, fun hne => absurd rfl hne⟩
  · rw [if_neg hrk] at hone hle ⊢
    exact ⟨hone, hle⟩

/-- An answer was taken: the clients are no further ahead than before. -/
theorem Inv.oneQueued_answered {s s' : State} {k' : RequestKey} {m : Message} (h : Inv s)
    (hQ : s'.queued = s.queued) (hR : s'.registered = s.registered)
    (hA : s'.answered = s.answered ++ [(k', m)]) (k : RequestKey) (hk : isResponse k = true) :
    (s'.queuedUnder k).length ≤ 1 ∧
      (s'.queuedUnder k ≠ [] → (s'.registeredUnder k).length ≤ (s'.answersTo k).length) := by
  obtain ⟨hone, hle⟩ := h.oneQueued k hk
  rw [queuedUnder_congr hQ, registeredUnder_congr hR, answersTo_concat hA]
  refine ⟨hone, fun hne => ?_⟩
  have hle' := hle hne
  split
  · rw [List.length_append]
    omega
  · exact hle'

theorem Inv.poll {s s' : State} (h : Inv s) (hok : answeredOnce s .poll = true)
    (hs : s.poll = some s') : Inv s' := by
  have hstep := pollStep h.keysMatch hs
  obtain ⟨hI, hid, hseq⟩ := frame_poll hs
  refine ⟨h.meets_poll hok hstep, ?_, ?_, ?_, ?_, ?_, ?_, ?_, ?_⟩
  · intro k hk
    have hm := h.others k hk
    cases hstep with
    | quiet _ _ _ _ _ he => rw [he, hm]
    | meetsEarly r m hr _ _ _ _ _ he =>
      have hrk : k ≠ r.key := by
        rintro rfl
        rw [hm] at hr
        exact absurd hr (Option.some_ne_none m).symm
      rw [he, Finmap.lookup_erase_ne hrk, hm]
    | waits _ _ _ _ _ _ _ he => rw [he, hm]
    | meetsWaiting _ _ _ _ _ _ _ _ _ _ he => rw [he, hm]
    | kept k' m _ hresp _ _ _ _ _ _ _ he =>
      have hkk : k ≠ k' := by
        rintro rfl
        rw [hk] at hresp
        exact absurd hresp Bool.false_ne_true
      rw [he, Finmap.lookup_insert_of_ne _ hkk, hm]
  · exact fun key r hr => h.keysMatch key r (mem_registrations_poll hs _ hr)
  · rw [hI, h.issued]
    cases hstep with
    | quiet hQ hR _ _ _ _ => rw [hQ, hR]
    | meetsEarly r m _ hQ hR _ _ _ _ => rw [hQ, hR, List.append_assoc]; rfl
    | waits r _ hQ hR _ _ _ _ => rw [hQ, hR, List.append_assoc]; rfl
    | meetsWaiting _ _ _ _ _ hQ hR _ _ _ _ => rw [hQ, hR]
    | kept _ _ _ _ _ _ hQ hR _ _ _ _ => rw [hQ, hR]
  · intro k hk
    cases hstep with
    | quiet hQ hR hA _ _ _ =>
      rw [queuedUnder_congr hQ, registeredUnder_congr hR, answersTo_congr hA]
      exact h.oneQueued k hk
    | meetsEarly _ _ _ hQ hR hA _ _ _ => exact h.oneQueued_taken hQ hR hA k hk
    | waits _ _ hQ hR hA _ _ _ => exact h.oneQueued_taken hQ hR hA k hk
    | meetsWaiting _ _ _ _ _ hQ hR hA _ _ _ => exact h.oneQueued_answered hQ hR hA k hk
    | kept _ _ _ _ _ _ hQ hR hA _ _ _ => exact h.oneQueued_answered hQ hR hA k hk
  · intro n hn
    rw [issuedUnder_congr hI]
    exact h.freshRequestId n (hid ▸ hn)
  · intro p q hq
    rw [issuedUnder_congr hI]
    exact h.freshSequenceId p q (hseq ▸ hq)
  · intro k m hmem
    cases hstep with
    | quiet _ _ hA _ _ _ => exact h.ownKey k m (hA ▸ hmem)
    | meetsEarly _ _ _ _ _ hA _ _ _ => exact h.ownKey k m (hA ▸ hmem)
    | waits _ _ _ _ hA _ _ _ => exact h.ownKey k m (hA ▸ hmem)
    | meetsWaiting k' r m' hans _ _ _ hA _ _ _ =>
      rw [hA, List.mem_append, List.mem_singleton] at hmem
      rcases hmem with hmem | hmem
      · exact h.ownKey k m hmem
      · obtain ⟨rfl, rfl⟩ := Prod.mk.inj hmem
        exact (answerOf_spec hans).2
    | kept k' m' hrt _ _ _ _ _ hA _ _ _ =>
      rw [hA, List.mem_append, List.mem_singleton] at hmem
      rcases hmem with hmem | hmem
      · exact h.ownKey k m hmem
      · obtain ⟨rfl, rfl⟩ := Prod.mk.inj hmem
        exact Or.inl hrt
  · intro r m hmem
    cases hstep with
    | quiet _ _ _ hH _ _ => exact h.handedKey r m (hH ▸ hmem)
    | waits _ _ _ _ _ hH _ _ => exact h.handedKey r m (hH ▸ hmem)
    | kept _ _ _ _ _ _ _ _ _ hH _ _ => exact h.handedKey r m (hH ▸ hmem)
    | meetsEarly r' m' hr _ _ _ hH _ _ =>
      rw [hH, List.mem_append, List.mem_singleton] at hmem
      rcases hmem with hmem | hmem
      · exact h.handedKey r m hmem
      · obtain ⟨rfl, rfl⟩ := Prod.mk.inj hmem
        by_contra hk
        rw [h.others _ (Bool.not_eq_true _ ▸ hk)] at hr
        exact absurd hr (Option.some_ne_none m).symm
    | meetsWaiting k' r' m' hans hr _ _ _ hH _ _ =>
      rw [hH, List.mem_append, List.mem_singleton] at hmem
      rcases hmem with hmem | hmem
      · exact h.handedKey r m hmem
      · obtain ⟨rfl, rfl⟩ := Prod.mk.inj hmem
        rw [h.key_of_pending (answerOf_spec hans).1 hr]
        exact (answerOf_spec hans).1
/-! ## The clients' steps -/

theorem queued_register (s : State) (key : RequestKey) :
    (s.register key).queued = s.queued ++ [{ key, serial := s.serial }] := by
  simp [State.queued, State.register]

/-- A registration is pushed, under a key that no client waits for. -/
theorem Inv.register {s : State} {key : RequestKey} (h : Inv s)
    (hkey : isResponse key = true →
      s.queuedUnder key = [] ∧ (s.registeredUnder key).length ≤ (s.answersTo key).length)
    {requestId : Nat} {sequenceId : Nat → Nat}
    (hid : ∀ n, requestId ≤ n → s.requestId ≤ n ∧ key ≠ .RequestId n)
    (hseq : ∀ p q, sequenceId p ≤ q → s.sequenceId p ≤ q ∧ key ≠ .ProducerSend p q) :
    Inv { s.register key with requestId, sequenceId } := by
  have hQ := queued_register s key
  have hI : (s.register key).issued = s.issued ++ [{ key, serial := s.serial }] := rfl
  refine ⟨h.meets, h.others, ?_, ?_, ?_, ?_, ?_, h.ownKey, h.handedKey⟩
  · intro key' r hmem
    have hmem' : Register.Request key' r ∈
        s.rx.registrations ++ [.Request key { key, serial := s.serial }] := hmem
    rw [List.mem_append, List.mem_singleton] at hmem'
    rcases hmem' with hmem' | hmem'
    · exact h.keysMatch key' r hmem'
    · obtain ⟨rfl, rfl⟩ := Register.Request.inj hmem'
      rfl
  · show (s.register key).issued = s.registered ++ (s.register key).queued
    rw [hI, hQ, h.issued, List.append_assoc]
  · intro k hk
    show ((s.register key).queuedUnder k).length ≤ 1 ∧
      ((s.register key).queuedUnder k ≠ [] →
        (s.registeredUnder k).length ≤ (s.answersTo k).length)
    rw [queuedUnder_concat hQ]
    by_cases hkk : key = k
    · subst hkk
      obtain ⟨hnil, hle⟩ := hkey hk
      rw [if_pos rfl, hnil]
      exact ⟨Nat.le_refl 1, fun _ => hle⟩
    · rw [if_neg hkk]
      exact h.oneQueued k hk
  · intro n hn
    obtain ⟨hn', hne⟩ := hid n hn
    show (s.register key).issuedUnder (.RequestId n) = []
    rw [issuedUnder_concat hI, if_neg hne]
    exact h.freshRequestId n hn'
  · intro p q hq
    obtain ⟨hq', hne⟩ := hseq p q hq
    show (s.register key).issuedUnder (.ProducerSend p q) = []
    rw [issuedUnder_concat hI, if_neg hne]
    exact h.freshSequenceId p q hq'

/-- No client waits for a key that was never used. -/
theorem Inv.idle_of_fresh {s : State} {k : RequestKey} (h : Inv s) (hk : s.issuedUnder k = []) :
    s.queuedUnder k = [] ∧ (s.registeredUnder k).length ≤ (s.answersTo k).length := by
  have hlen := h.length_issuedUnder k
  rw [hk, List.length_nil] at hlen
  exact ⟨List.length_eq_zero_iff.mp (by omega), by omega⟩

/-- No client waits for a key all of whose registrations have been answered. -/
theorem Inv.idle_of_handed {s : State} {k : RequestKey} (h : Inv s) (hk : isResponse k = true)
    (hall : (s.handedUnder k).length = (s.issuedUnder k).length) :
    s.queuedUnder k = [] ∧ (s.registeredUnder k).length ≤ (s.answersTo k).length := by
  have hlen := h.length_issuedUnder k
  have hmin := (h.meets k hk).length_handed
  exact ⟨List.length_eq_zero_iff.mp (by omega), by omega⟩

/-- A registration that is not a request changes nothing that the invariant speaks of. -/
theorem Inv.enqueue {s : State} {reg : Register} (h : Inv s)
    (hreg : ∀ key r, reg ≠ .Request key r) : Inv (s.enqueue reg) := by
  have hQ : (s.enqueue reg).queued = s.queued := by
    cases reg with
    | Request key r => exact absurd rfl (hreg key r)
    | Consumer consumerId resolver => simp [State.queued, State.enqueue]
    | RemoveConsumer consumerId => simp [State.queued, State.enqueue]
    | Ping resolver => simp [State.queued, State.enqueue]
  refine ⟨h.meets, h.others, ?_, ?_, ?_, h.freshRequestId, h.freshSequenceId, h.ownKey,
    h.handedKey⟩
  · intro key r hmem
    have hmem' : Register.Request key r ∈ s.rx.registrations ++ [reg] := hmem
    rw [List.mem_append, List.mem_singleton] at hmem'
    rcases hmem' with hmem' | hmem'
    · exact h.keysMatch key r hmem'
    · exact absurd hmem'.symm (hreg key r)
  · show s.issued = s.registered ++ (s.enqueue reg).queued
    rw [hQ, h.issued]
  · intro k hk
    show ((s.enqueue reg).queuedUnder k).length ≤ 1 ∧ ((s.enqueue reg).queuedUnder k ≠ [] →
      (s.registeredUnder k).length ≤ (s.answersTo k).length)
    rw [queuedUnder_congr hQ]
    exact h.oneQueued k hk

/-- A change of the receiver that leaves its tables and its registrations alone. -/
theorem Inv.world {s : State} {rx : Receiver} (h : Inv s)
    (hw : rx.pendingRequests = s.rx.pendingRequests)
    (he : rx.receivedMessages = s.rx.receivedMessages)
    (hq : rx.registrations = s.rx.registrations) : Inv { s with rx } := by
  have hQ : ({ s with rx } : State).queued = s.queued := by
    unfold State.queued
    rw [hq]
  refine ⟨?_, ?_, ?_, ?_, ?_, h.freshRequestId, h.freshSequenceId, h.ownKey, h.handedKey⟩
  · intro k hk
    show Meets _ _ _ (rx.pendingRequests.lookup k) (rx.receivedMessages.lookup k)
    rw [hw, he]
    exact h.meets k hk
  · intro k hk
    show rx.receivedMessages.lookup k = none
    rw [he]
    exact h.others k hk
  · intro key r hmem
    exact h.keysMatch key r (hq ▸ hmem)
  · rw [hQ]
    exact h.issued
  · intro k hk
    rw [queuedUnder_congr hQ]
    exact h.oneQueued k hk

theorem Inv.init {sequenceId : Nat → Nat} : Inv { sequenceId } := by
  refine ⟨fun k _ => Meets.nil, fun k _ => rfl, ?_, rfl, ?_, fun _ _ => rfl, fun _ _ _ => rfl, ?_, ?_⟩
  · intro key r hmem
    exact absurd hmem List.not_mem_nil
  · intro k _
    exact ⟨Nat.zero_le _, fun hne => absurd rfl hne⟩
  · intro k m hmem
    exact absurd hmem List.not_mem_nil
  · intro r m hmem
    exact absurd hmem List.not_mem_nil

/-- **The step lemma.** -/
theorem Inv.step {s s' : State} {a : Action} (h : Inv s) (hok : answeredOnce s a = true)
    (hs : step s a = some s') : Inv s' := by
  cases a with
  | request =>
    simp only [Responses.step] at hs
    split at hs
    · exact absurd hs (Option.some_ne_none s').symm
    · obtain rfl := Option.some.inj hs
      refine h.register (fun _ => h.idle_of_fresh (h.freshRequestId _ (Nat.le_refl _))) ?_ ?_
      · intro n hn
        refine ⟨by omega, ?_⟩
        rintro ⟨⟩
        omega
      · intro p q hq
        exact ⟨hq, RequestKey.noConfusion⟩
  | send producerId sequenceId =>
    simp only [Responses.step] at hs
    split at hs
    · exact absurd hs (Option.some_ne_none s').symm
    · rename_i hge
      rw [not_or, Nat.not_lt] at hge
      obtain rfl := Option.some.inj hs
      refine h.register (fun _ => h.idle_of_fresh (h.freshSequenceId _ _ hge.2)) ?_ ?_
      · intro n hn
        exact ⟨hn, RequestKey.noConfusion⟩
      · intro p q hq
        by_cases hp : p = producerId
        · subst hp
          rw [Function.update_self] at hq
          refine ⟨by have := hge.2; omega, ?_⟩
          rintro ⟨⟩
          omega
        · rw [Function.update_of_ne hp] at hq
          refine ⟨hq, ?_⟩
          rintro ⟨⟩
          exact hp rfl
  | waitForExclusiveAccess requestId =>
    simp only [Responses.step] at hs
    split at hs
    · exact absurd hs (Option.some_ne_none s').symm
    · split at hs
      · rename_i hall
        obtain rfl := Option.some.inj hs
        refine h.register (fun hk => h.idle_of_handed hk hall.2) ?_ ?_
        · intro n hn
          refine ⟨hn, ?_⟩
          rintro ⟨⟩
          exact hall.1 (h.freshRequestId _ hn)
        · intro p q hq
          exact ⟨hq, RequestKey.noConfusion⟩
      · exact absurd hs (Option.some_ne_none s').symm
  | authChallenge =>
    simp only [Responses.step] at hs
    split at hs
    · exact absurd hs (Option.some_ne_none s').symm
    · obtain rfl := Option.some.inj hs
      refine h.register ?_ ?_ ?_
      · intro hk
        exact absurd hk Bool.false_ne_true
      · intro n hn
        exact ⟨hn, RequestKey.noConfusion⟩
      · intro p q hq
        exact ⟨hq, RequestKey.noConfusion⟩
  | registerConsumer consumerId resolver =>
    simp only [Responses.step] at hs
    split at hs
    · exact absurd hs (Option.some_ne_none s').symm
    · exact Option.some.inj hs ▸ h.enqueue fun _ _ => Register.noConfusion
  | removeConsumer consumerId =>
    simp only [Responses.step] at hs
    split at hs
    · exact absurd hs (Option.some_ne_none s').symm
    · exact Option.some.inj hs ▸ h.enqueue fun _ _ => Register.noConfusion
  | registerPing resolver =>
    simp only [Responses.step] at hs
    split at hs
    · exact absurd hs (Option.some_ne_none s').symm
    · exact Option.some.inj hs ▸ h.enqueue fun _ _ => Register.noConfusion
  | arrive item => exact Option.some.inj hs ▸ h.world rfl rfl rfl
  | endInbound => exact Option.some.inj hs ▸ h.world rfl rfl rfl
  | closeRegistrations => exact Option.some.inj hs ▸ h.world rfl rfl rfl
  | closeControl => exact Option.some.inj hs ▸ h.world rfl rfl rfl
  | shutdown => exact Option.some.inj hs ▸ h.world rfl rfl rfl
  | setError e => exact Option.some.inj hs ▸ h.world rfl rfl rfl
  | poll => exact h.poll hok hs

/-- **The run lemma.** -/
theorem inv_of_reach {s : State}
    (h : responses.ReachIf (fun s a => answeredOnce s a = true) s) : Inv s := by
  refine Sys.ReachIf.inv Inv ?_ (fun _ _ _ hi hok hs => hi.step hok hs) h
  rintro s ⟨sequenceId, rfl⟩
  exact Inv.init

/-! ## The main result -/

/-- What is true of a connection at any moment, for the registrations and answers taken so far. -/
structure EachReachesItsRequest (s : State) : Prop where
  /-- the `i`-th answer to a key is handed to the `i`-th resolver registered under it, once -/
  handedOnce : ∀ k, isResponse k = true →
    s.handedUnder k = (s.registeredUnder k).zip (s.answersTo k)
  /-- a resolver without its answer waits in `pendingRequests` … -/
  waits : ∀ k, isResponse k = true →
    s.rx.pendingRequests.lookup k = (s.registeredUnder k)[(s.answersTo k).length]?
  /-- … an answer without its resolver is kept in `receivedMessages` … -/
  kept : ∀ k, isResponse k = true →
    s.rx.receivedMessages.lookup k = (s.answersTo k)[(s.registeredUnder k).length]?
  /-- … and there is never more than one of either, so none is overwritten -/
  noneLost : ∀ k, isResponse k = true →
    (s.registeredUnder k).length ≤ (s.answersTo k).length + 1 ∧
      (s.answersTo k).length ≤ (s.registeredUnder k).length + 1
  /-- a registration is taken, or still in the queue -/
  registrationsKept : s.issued = s.registered ++ s.queued
  /-- nothing is handed to another key's resolver -/
  ownKey : ∀ r m, (r, m) ∈ s.handed → routed m = some r.key ∨
    ∃ consumerId requestId, routed m = some (.CloseConsumer consumerId requestId) ∧
      r.key = .RequestId requestId
  /-- no key is in both tables -/
  disjoint : ∀ k, s.rx.pendingRequests.lookup k = none ∨ s.rx.receivedMessages.lookup k = none

theorem Inv.each {s : State} (h : Inv s) : EachReachesItsRequest s where
  handedOnce k hk := (h.meets k hk).handed
  waits k hk := (h.meets k hk).waiting
  kept k hk := (h.meets k hk).early
  noneLost k hk := (h.meets k hk).balanced
  registrationsKept := h.issued
  ownKey r m hmem := by
    have hin : (r, m) ∈ s.handedUnder r.key :=
      List.mem_filter.mpr ⟨hmem, decide_eq_true rfl⟩
    rw [(h.meets r.key (h.handedKey r m hmem)).handed] at hin
    have hans : m ∈ s.answersTo r.key := (List.of_mem_zip hin).2
    obtain ⟨⟨k, m'⟩, hfil, rfl⟩ := List.mem_map.mp hans
    obtain ⟨hmem', hkey⟩ := List.mem_filter.mp hfil
    obtain rfl := of_decide_eq_true hkey
    exact h.ownKey _ _ hmem'
  disjoint k := by
    cases hk : isResponse k with
    | true => exact (h.meets k hk).one_empty
    | false => exact Or.inr (h.others k hk)

/-- **Headline.**  In every run in which each key is answered at most once per registration, at every
    moment, every response has reached the resolver registered for it — once, and no other — or one
    of the two is still to come and the other is kept. -/
theorem responses_reach_their_requests {s : State}
    (h : responses.ReachIf (fun s a => answeredOnce s a = true) s) : EachReachesItsRequest s :=
  (inv_of_reach h).each

/-- Two requests, one answered before its registration is taken and one after. -/
theorem responses_reach_their_requests_two :
    ∃ s, s.handed.map (·.1) = [⟨.RequestId 0, 0⟩, ⟨.RequestId 1, 1⟩] ∧ EachReachesItsRequest s := by
  obtain ⟨s, hs, hp⟩ := Sys.exists_reachIf_of_execIf (S := responses) answeredOnce
    (p := fun s => s.handed.map (·.1) == [⟨.RequestId 0, 0⟩, ⟨.RequestId 1, 1⟩]) (s := {})
    ⟨fun _ => 0, rfl⟩
    [.poll, .poll, .request, .arrive (.msg { command := { success := some ⟨0⟩ } }), .poll, .poll,
      .request, .poll, .poll, .poll, .poll, .arrive (.msg { command := { success := some ⟨1⟩ } }),
      .poll] (by decide)
  exact ⟨s, eq_of_beq hp, responses_reach_their_requests hs⟩

/-! ## A broker's `CloseConsumer` and a pending request

  Counting only the messages that carry the key itself, "each key is answered at most once" does not
  keep a `CloseConsumer` of the broker from naming the id of a pending request — and then it is handed
  to that request's resolver, and the response is never handed to anyone. -/

/-- At most one message per registration that carries the key itself. -/
def ownAnswersOnce (s : State) (a : Action) : Bool :=
  match a, s.phase, s.rx.inbound with
  | .poll, .inbound, .msg m :: _ =>
    match routed m with
    | some k => !isResponse k ||
        decide ((s.answered.filter fun a => routed a.2 = some k).length < (s.issuedUnder k).length)
    | none => true
  | _, _, _ => true

theorem closeConsumer_is_handed_to_a_request :
    ¬ ∀ s, responses.ReachIf (fun s a => ownAnswersOnce s a = true) s →
      (∀ r m, (r, m) ∈ s.handed → routed m = some r.key) ∧
      (∀ r m, r ∈ s.registered → (r.key, m) ∈ s.answered → routed m = some r.key →
        (r, m) ∈ s.handed) := by
  intro hall
  obtain ⟨s, hs, hp⟩ := Sys.exists_reachIf_of_execIf (S := responses) ownAnswersOnce
    (p := fun s => s.handed ==
      [(⟨.RequestId 0, 0⟩, { command := { closeConsumer := some ⟨7, 0⟩ } })]) (s := {})
    ⟨fun _ => 0, rfl⟩
    [.request, .poll, .poll, .poll, .arrive (.msg { command := { closeConsumer := some ⟨7, 0⟩ } }),
      .arrive (.msg { command := { success := some ⟨0⟩ } }), .poll, .poll] (by decide)
  have hclose := (hall s hs).1 ⟨.RequestId 0, 0⟩ { command := { closeConsumer := some ⟨7, 0⟩ } }
    (by rw [eq_of_beq hp]; exact List.mem_singleton_self _)
  exact absurd hclose (by decide)

end PulsarClient.Connection.Responses
