/-
  What a FAILED request leaves behind in the tables of the receiver.

  Every operation of `ConnectionSender` registers first and enqueues its command afterwards; the
  registration is in another task's queue by then, and nothing takes it back when the enqueueing fails.
  `subscribe` registers the consumer as well, and only `close_consumer` removes it.

  1. The SYSTEM (`connection`): the receiver with its clients (`responses`), the data channel with its
     bound, and the sink task that empties it.  It keeps account of the requests whose command is out
     (`put`) or waits for room (`waiting`), and of the consumers that are `live`.

  2. `Carried` — every oneshot is in one place: queued, pending, or over.

  3. `noResidue` — the tables hold nothing but outstanding requests and live consumers, as long as the
     data channel is not full when `send` does not wait, nothing gives up while it waits for room, no
     command is issued after the sink is gone, no `subscribe` fails, and no consumer leaves the
     connection unclosed.

  4. `slowDown_leaves_request`, `failures_leave_residue` — without that, an entry stays behind.
-/
import PulsarClient.Connection.Responses

namespace PulsarClient.Connection.Residue

open Runs Receiver

/-! ## The system -/

/-- The request that an effect ends: answered, or canceled. -/
def ends : Effect → Option Resolver
  | .resolve r _ => some r
  | .cancel r => some r
  | _ => none

structure State where
  conn : Responses.State := {}
  outboundChannelSize : Nat
  /-- commands in the data channel -/
  data : Nat := 0
  /-- the sink task has ended: both outbound channels are closed -/
  sinkGone : Bool := false
  /-- the requests whose command is on an outbound channel -/
  put : List Resolver := []
  /-- … or waits for room in one -/
  waiting : List Resolver := []
  /-- the consumers, each with its channel: subscribing or subscribed, and not closed -/
  live : List (Nat × Nat) := []

namespace State

/-- The requests that are over. -/
def ended (s : State) : List Resolver := s.conn.effects.filterMap ends

/-- The requests whose command is out, or going to be, and that are not over. -/
def outstanding (s : State) : List Resolver := (s.put ++ s.waiting).filter fun r => r ∉ s.ended

/-- The request that the next registration is for. -/
def next (s : State) (key : RequestKey) : Resolver := { key, serial := s.conn.serial }

/-- `control_tx.try_send`, for a request that has been registered: it fails when the sink is gone. -/
def control (s : State) (r : Resolver) : State :=
  if s.sinkGone then s else { s with put := s.put ++ [r] }

/-- `data_tx.send(msg).await` or `data_tx.try_send(msg)`: without room the one waits, and the other
    fails with `SlowDown`. -/
def enqueueData (s : State) (r : Resolver) (blocking : Bool) : State :=
  if s.sinkGone then s
  else if s.data < s.outboundChannelSize then
    { s with data := s.data + 1, put := s.put ++ [r] }
  else if blocking then { s with waiting := s.waiting ++ [r] }
  else s

end State

inductive Action where
  /-- any operation that is not one of those below, on the control channel -/
  | request
  | authChallenge
  | waitForExclusiveAccess (requestId : Nat)
  /-- `Connection::send` -/
  | send (producerId sequenceId : Nat) (blocking : Bool)
  /-- a `send` that waits finds room, or the end of the sink -/
  | room (r : Resolver)
  /-- … or is dropped -/
  | dropSend (r : Resolver)
  | subscribe (consumerId resolver : Nat)
  /-- `subscribe` returns an error, or is dropped -/
  | subscribeFails (consumerId resolver : Nat)
  | closeConsumer (consumerId : Nat)
  /-- a consumer ends, or goes on elsewhere, without `close_consumer` on this connection -/
  | leave (consumerId resolver : Nat)
  /-- the sink task takes a command from the data channel -/
  | sink
  | endSink
  /-- everything else: the socket, the receiver task -/
  | world (a : Responses.Action)

/-- What is not an operation of a client. -/
def isWorld : Responses.Action → Bool
  | .registerPing _ | .arrive _ | .endInbound | .closeRegistrations | .closeControl | .shutdown
  | .setError _ | .poll => true
  | _ => false

def step (s : State) : Action → Option State
  | .request =>
    (Responses.step s.conn .request).map fun conn =>
      { s with conn }.control (s.next (.RequestId s.conn.requestId))
  | .authChallenge =>
    (Responses.step s.conn .authChallenge).map fun conn =>
      { s with conn }.control (s.next .AuthChallenge)
  | .waitForExclusiveAccess requestId =>
    -- no command of its own: it waits for more about an earlier one
    (Responses.step s.conn (.waitForExclusiveAccess requestId)).map fun conn =>
      { s with conn, put := s.put ++ [s.next (.RequestId requestId)] }
  | .send producerId sequenceId blocking =>
    (Responses.step s.conn (.send producerId sequenceId)).map fun conn =>
      { s with conn }.enqueueData (s.next (.ProducerSend producerId sequenceId)) blocking
  | .room r =>
    if r ∈ s.waiting ∧ (s.sinkGone = true ∨ s.data < s.outboundChannelSize) then
      some ({ s with waiting := s.waiting.erase r }.enqueueData r true)
    else none
  | .dropSend r =>
    if r ∈ s.waiting then some { s with waiting := s.waiting.erase r } else none
  | .subscribe consumerId resolver =>
    (Responses.step s.conn (.registerConsumer consumerId resolver)).bind fun conn =>
      (Responses.step conn .request).map fun conn' =>
        { s with
          conn := conn'
          live := s.live.filter (fun c : Nat × Nat => c.1 ≠ consumerId) ++ [(consumerId, resolver)]
        }.control (s.next (.RequestId s.conn.requestId))
  | .subscribeFails consumerId resolver =>
    if (consumerId, resolver) ∈ s.live then
      some { s with live := s.live.filter fun c => c ≠ (consumerId, resolver) }
    else none
  | .closeConsumer consumerId =>
    (Responses.step s.conn (.removeConsumer consumerId)).bind fun conn =>
      (Responses.step conn .request).map fun conn' =>
        { s with
          conn := conn'
          live := s.live.filter fun c : Nat × Nat => c.1 ≠ consumerId
        }.control (s.next (.RequestId s.conn.requestId))
  | .leave consumerId resolver =>
    if (consumerId, resolver) ∈ s.live then
      some { s with live := s.live.filter fun c => c ≠ (consumerId, resolver) }
    else none
  | .sink => if s.sinkGone = false ∧ 0 < s.data then some { s with data := s.data - 1 } else none
  | .endSink => some { s with sinkGone := true }
  | .world a => if isWorld a then (Responses.step s.conn a).map fun conn => { s with conn } else none

/-- A connection, from the moment its receiver is spawned. -/
def connection : Sys State Action where
  init s := ∃ conn outboundChannelSize, Responses.responses.init conn ∧
    s = { conn, outboundChannelSize }
  step := step

/-- The receiver when it has taken everything from its queue of registrations. -/
def drained (rx : Receiver) : Receiver :=
  rx.registrations.foldl (fun rx reg => (rx.handleRegistration reg).1) { rx with registrations := [] }

/-- The tables hold outstanding requests and live consumers, and are no larger than that. -/
structure NoResidue (s : State) : Prop where
  requests : ∀ key r, (drained s.conn.rx).pendingRequests.lookup key = some r → r ∈ s.outstanding
  consumers : ∀ consumerId resolver,
    (drained s.conn.rx).consumers.lookup consumerId = some resolver → (consumerId, resolver) ∈ s.live
  requestsSize : (drained s.conn.rx).pendingRequests.keys.card ≤ s.outstanding.length
  consumersSize : (drained s.conn.rx).consumers.keys.card ≤ s.live.length

/-- Nothing fails on its way out, no `subscribe` fails, and consumers are closed. -/
def healthy (s : State) : Action → Bool
  | .request => !s.sinkGone
  | .authChallenge => !s.sinkGone
  | .send _ _ blocking => !s.sinkGone && (blocking || decide (s.data < s.outboundChannelSize))
  | .room _ => !s.sinkGone
  | .dropSend _ => false
  | .subscribe _ _ => !s.sinkGone
  | .subscribeFails _ _ => false
  | .closeConsumer _ => !s.sinkGone
  | .leave _ _ => false
  | _ => true

/-! ## Where a oneshot is -/

/-- A registration is queued, or pending. -/
def carries (s : Responses.State) (r : Resolver) : Prop :=
  r ∈ s.queued ∨ s.rx.pendingRequests.lookup r.key = some r

/-- What one step of the receiver does to the oneshots. -/
inductive Takes (s s' : Responses.State) : Prop where
  | quiet (hqueued : s'.queued = s.queued)
    (hpending : s'.rx.pendingRequests = s.rx.pendingRequests)
    (hended : s'.effects.filterMap ends = s.effects.filterMap ends)
  /-- a registration whose answer is there -/
  | early (r : Resolver) (hqueued : s.queued = r :: s'.queued)
    (hpending : s'.rx.pendingRequests = s.rx.pendingRequests)
    (hended : s'.effects.filterMap ends = s.effects.filterMap ends ++ [r])
  | waits (r : Resolver) (hqueued : s.queued = r :: s'.queued)
    (hpending : s'.rx.pendingRequests = s.rx.pendingRequests.insert r.key r)
    (hended : s'.effects.filterMap ends =
      s.effects.filterMap ends ++ (s.rx.pendingRequests.lookup r.key).toList)
  | answered (k : RequestKey) (r : Resolver) (hr : s.rx.pendingRequests.lookup k = some r)
    (hqueued : s'.queued = s.queued)
    (hpending : s'.rx.pendingRequests = s.rx.pendingRequests.erase k)
    (hended : s'.effects.filterMap ends = s.effects.filterMap ends ++ [r])

theorem ends_deliver (r : Receiver) (consumerId : Nat) (m : Message) :
    (r.deliver consumerId m).filterMap ends = [] := by
  unfold deliver
  cases r.consumers.lookup consumerId <;> rfl

theorem ends_respond (r : Receiver) (key : RequestKey) (m : Message) :
    ((r.respond key m).1.pendingRequests = r.pendingRequests ∧
      (r.respond key m).2.filterMap ends = []) ∨
    ∃ resolver, r.pendingRequests.lookup key = some resolver ∧
      (r.respond key m).1.pendingRequests = r.pendingRequests.erase key ∧
      (r.respond key m).2.filterMap ends = [resolver] := by
  cases hp : r.pendingRequests.lookup key with
  | some resolver =>
    rw [respond_waiting hp]
    exact Or.inr ⟨resolver, rfl, rfl, rfl⟩
  | none =>
    rw [respond_kept hp]
    exact Or.inl ⟨rfl, rfl⟩

/-- A message ends at most one request, and that one was pending. -/
theorem ends_handleInbound (r : Receiver) (m : Message) :
    ((r.handleInbound m).1.pendingRequests = r.pendingRequests ∧
      (r.handleInbound m).2.filterMap ends = []) ∨
    ∃ key resolver, r.pendingRequests.lookup key = some resolver ∧
      (r.handleInbound m).1.pendingRequests = r.pendingRequests.erase key ∧
      (r.handleInbound m).2.filterMap ends = [resolver] := by
  cases hk : routed m with
  | none =>
    refine Or.inl ⟨(handleInbound_of_not_routed hk).1, ?_⟩
    unfold routed at hk
    unfold handleInbound
    by_cases hping : m.command.ping.isSome = true
    · rw [if_pos hping]
      split <;> rfl
    · by_cases hpong : m.command.pong.isSome = true
      · rw [if_neg hping, if_pos hpong]
        cases r.ping <;> rfl
      · rw [if_neg hping, if_neg hpong]
        rw [if_neg (by simp [hping, hpong])] at hk
        rw [hk]
        rfl
  | some key =>
    cases key with
    | RequestId requestId =>
      rw [handleInbound_of_routed hk]
      exact (ends_respond r _ m).imp_right fun ⟨resolver, h⟩ => ⟨_, resolver, h⟩
    | ProducerSend producerId sequenceId =>
      rw [handleInbound_of_routed hk]
      exact (ends_respond r _ m).imp_right fun ⟨resolver, h⟩ => ⟨_, resolver, h⟩
    | Consumer consumerId =>
      rw [handleInbound_of_routed hk]
      exact Or.inl ⟨rfl, ends_deliver r consumerId m⟩
    | CloseConsumer consumerId requestId =>
      cases hp : r.pendingRequests.lookup (.RequestId requestId) with
      | some resolver =>
        rw [handleInbound_close_waiting hk hp]
        exact Or.inr ⟨_, resolver, hp, rfl, rfl⟩
      | none =>
        rw [handleInbound_close hk hp]
        exact Or.inl ⟨rfl, ends_deliver r consumerId m⟩
    | AuthChallenge =>
      rw [handleInbound_of_routed hk]
      exact Or.inl ⟨rfl, rfl⟩

section

variable {s s' : Responses.State}

/-- **One step of the receiver.** -/
theorem takes_poll (hk : Responses.KeysMatch s) (h : s.poll = some s') : Takes s s' := by
  cases Responses.polled h with
  | rests inbound error hrx heffects =>
    refine .quiet ?_ (hrx ▸ rfl) (by rw [heffects])
    unfold Responses.State.queued
    rw [hrx]
  | registers reg rest hreg hrx heffects =>
    have hqueue : s.rx.registrations = reg :: s'.rx.registrations := by
      rw [hrx, registrations_handleRegistration, hreg]
    have hended : s'.effects.filterMap ends = s.effects.filterMap ends ++
        (({ s.rx with registrations := rest } : Receiver).handleRegistration reg).2.filterMap
          ends := by
      rw [heffects, List.filterMap_append]
    cases reg with
    | Request key r =>
      obtain rfl : r.key = key := hk key r (by rw [hreg]; exact List.mem_cons_self ..)
      have hqueued : s.queued = r :: s'.queued := by
        rw [Responses.State.queued, hqueue]
        rfl
      cases hm : s.rx.receivedMessages.lookup r.key with
      | some m =>
        rw [handleRegistration_early (show ({ s.rx with registrations := rest } :
          Receiver).receivedMessages.lookup r.key = some m from hm)] at hrx hended
        exact .early r hqueued (hrx ▸ rfl) hended
      | none =>
        rw [handleRegistration_waits (show ({ s.rx with registrations := rest } :
          Receiver).receivedMessages.lookup r.key = none from hm)] at hrx hended
        refine .waits r hqueued (hrx ▸ rfl) (hended.trans ?_)
        cases s.rx.pendingRequests.lookup r.key <;> simp [ends]
    | Consumer consumerId resolver =>
      refine .quiet ?_ (hrx ▸ rfl) (hended.trans (List.append_nil _))
      rw [Responses.State.queued, Responses.State.queued, hqueue]
      rfl
    | RemoveConsumer consumerId =>
      refine .quiet ?_ (hrx ▸ rfl) (hended.trans (List.append_nil _))
      rw [Responses.State.queued, Responses.State.queued, hqueue]
      rfl
    | Ping resolver =>
      refine .quiet ?_ (hrx ▸ rfl) (hended.trans ?_)
      · rw [Responses.State.queued, Responses.State.queued, hqueue]
        rfl
      · cases hping : s.rx.ping <;> simp [handleRegistration, hping, ends]
  | receives m rest hphase hin hrx heffects =>
    have hqueued : s'.queued = s.queued := by
      unfold Responses.State.queued
      rw [hrx, registrations_handleInbound]
    have hended : s'.effects.filterMap ends = s.effects.filterMap ends ++
        (({ s.rx with inbound := rest } : Receiver).handleInbound m).2.filterMap ends := by
      rw [heffects, List.filterMap_append]
    rcases ends_handleInbound ({ s.rx with inbound := rest } : Receiver) m with
      ⟨hpending, hnone⟩ | ⟨key, r, hr, hpending, hone⟩
    · rw [hnone, List.append_nil] at hended
      exact .quiet hqueued (hrx ▸ hpending) hended
    · rw [hone] at hended
      exact .answered key r hr hqueued (hrx ▸ hpending) hended

/-- Every oneshot is in one place. -/
structure Carried (s : Responses.State) : Prop where
  keysMatch : Responses.KeysMatch s
  key : ∀ k r, s.rx.pendingRequests.lookup k = some r → r.key = k
  nodup : s.queued.Nodup
  apart : ∀ r ∈ s.queued, s.rx.pendingRequests.lookup r.key ≠ some r
  unended : ∀ r, carries s r → r ∉ s.effects.filterMap ends
  /-- the next one is new -/
  fresh : ∀ r, carries s r ∨ r ∈ s.effects.filterMap ends → r.serial < s.serial

theorem Takes.carries (ht : Takes s s') {r : Resolver}
    (h : Residue.carries s' r) : Residue.carries s r := by
  cases ht with
  | quiet hqueued hpending =>
    unfold Residue.carries at h ⊢
    rw [hqueued, hpending] at h
    exact h
  | early r₀ hqueued hpending =>
    unfold Residue.carries at h ⊢
    rw [hpending] at h
    rw [hqueued]
    exact h.imp_left (List.mem_cons_of_mem r₀)
  | waits r₀ hqueued hpending =>
    unfold Residue.carries at h ⊢
    rw [hqueued]
    rcases h with h | h
    · exact Or.inl (List.mem_cons_of_mem r₀ h)
    · rw [hpending] at h
      by_cases hkey : r.key = r₀.key
      · rw [hkey, Finmap.lookup_insert] at h
        rw [Option.some.inj h]
        exact Or.inl List.mem_cons_self
      · rw [Finmap.lookup_insert_of_ne _ hkey] at h
        exact Or.inr h
  | answered k r₀ hr hqueued hpending =>
    unfold Residue.carries at h ⊢
    rw [hqueued] at h
    refine h.imp_right fun h => ?_
    rw [hpending] at h
    by_cases hkey : r.key = k
    · rw [hkey, Finmap.lookup_erase] at h
      cases h
    · rwa [Finmap.lookup_erase_ne hkey] at h

/-- What ends in a step was carried, and is not any more. -/
theorem Takes.ended (hc : Carried s) (ht : Takes s s') {r : Resolver}
    (h : r ∈ s'.effects.filterMap ends) (hnew : r ∉ s.effects.filterMap ends) :
    Residue.carries s r ∧ ¬ Residue.carries s' r := by
  cases ht with
  | quiet _ _ hended =>
    rw [hended] at h
    exact absurd h hnew
  | early r₀ hqueued hpending hended =>
    rw [hended] at h
    obtain rfl := List.mem_singleton.mp ((List.mem_append.mp h).resolve_left hnew)
    have hnodup := hc.nodup
    rw [hqueued] at hnodup
    have hmem : r ∈ s.queued := by
      rw [hqueued]
      exact List.mem_cons_self
    refine ⟨Or.inl hmem, ?_⟩
    rintro (hq | hp)
    · exact (List.nodup_cons.mp hnodup).1 hq
    · rw [hpending] at hp
      exact hc.apart r hmem hp
  | waits r₀ hqueued hpending hended =>
    rw [hended] at h
    have hold := Option.mem_toList.mp ((List.mem_append.mp h).resolve_left hnew)
    have hkey : r.key = r₀.key := hc.key _ _ hold
    have hmem : r₀ ∈ s.queued := by
      rw [hqueued]
      exact List.mem_cons_self
    have hne : r ≠ r₀ := by
      rintro rfl
      exact hc.apart r hmem hold
    refine ⟨Or.inr (by rw [hkey]; exact hold), ?_⟩
    rintro (hq | hp)
    · refine hc.apart r ?_ (by rw [hkey]; exact hold)
      rw [hqueued]
      exact List.mem_cons_of_mem r₀ hq
    · rw [hpending, hkey, Finmap.lookup_insert] at hp
      exact hne (Option.some.inj hp).symm
  | answered k r₀ hr hqueued hpending hended =>
    rw [hended] at h
    obtain rfl := List.mem_singleton.mp ((List.mem_append.mp h).resolve_left hnew)
    have hkey : r.key = k := hc.key k r hr
    refine ⟨Or.inr (by rw [hkey]; exact hr), ?_⟩
    rintro (hq | hp)
    · rw [hqueued] at hq
      exact hc.apart r hq (by rw [hkey]; exact hr)
    · rw [hpending, hkey, Finmap.lookup_erase] at hp
      cases hp

theorem serial_poll (h : s.poll = some s') : s'.serial = s.serial := by
  unfold Responses.State.poll at h
  split at h
  · cases h
  · rw [← Option.some.inj h]

/-- **The receiver keeps the oneshots apart.** -/
theorem Carried.poll (hc : Carried s) (h : s.poll = some s') : Carried s' := by
  have ht := takes_poll hc.keysMatch h
  refine ⟨?_, ?_, ?_, ?_, ?_, ?_⟩
  · intro key r hr
    exact hc.keysMatch key r (Responses.mem_registrations_poll h _ hr)
  · intro k r hr
    cases ht with
    | quiet _ hpending => exact hc.key k r (hpending ▸ hr)
    | early _ _ hpending => exact hc.key k r (hpending ▸ hr)
    | waits r₀ _ hpending =>
      rw [hpending] at hr
      by_cases hkey : k = r₀.key
      · rw [hkey, Finmap.lookup_insert] at hr
        rw [← Option.some.inj hr, hkey]
      · rw [Finmap.lookup_insert_of_ne _ hkey] at hr
        exact hc.key k r hr
    | answered k₀ r₀ _ _ hpending =>
      rw [hpending] at hr
      by_cases hkey : k = k₀
      · rw [hkey, Finmap.lookup_erase] at hr
        cases hr
      · rw [Finmap.lookup_erase_ne hkey] at hr
        exact hc.key k r hr
  · have hnodup := hc.nodup
    cases ht with
    | quiet hqueued => exact hqueued ▸ hnodup
    | early r₀ hqueued =>
      rw [hqueued] at hnodup
      exact (List.nodup_cons.mp hnodup).2
    | waits r₀ hqueued =>
      rw [hqueued] at hnodup
      exact (List.nodup_cons.mp hnodup).2
    | answered _ _ _ hqueued => exact hqueued ▸ hnodup
  · intro r hr hp
    have hnodup := hc.nodup
    cases ht with
    | quiet hqueued hpending => exact hc.apart r (hqueued ▸ hr) (hpending ▸ hp)
    | early r₀ hqueued hpending =>
      refine hc.apart r ?_ (hpending ▸ hp)
      rw [hqueued]
      exact List.mem_cons_of_mem r₀ hr
    | waits r₀ hqueued hpending =>
      rw [hqueued] at hnodup
      have hne : r ≠ r₀ := fun heq => (List.nodup_cons.mp hnodup).1 (heq ▸ hr)
      rw [hpending] at hp
      by_cases hkey : r.key = r₀.key
      · rw [hkey, Finmap.lookup_insert] at hp
        exact hne (Option.some.inj hp).symm
      · rw [Finmap.lookup_insert_of_ne _ hkey] at hp
        refine hc.apart r ?_ hp
        rw [hqueued]
        exact List.mem_cons_of_mem r₀ hr
    | answered k₀ r₀ _ hqueued hpending =>
      rw [hpending] at hp
      by_cases hkey : r.key = k₀
      · rw [hkey, Finmap.lookup_erase] at hp
        cases hp
      · rw [Finmap.lookup_erase_ne hkey] at hp
        exact hc.apart r (hqueued ▸ hr) hp
  · intro r hr hended
    by_cases hold : r ∈ s.effects.filterMap ends
    · exact hc.unended r (ht.carries hr) hold
    · exact (ht.ended hc hended hold).2 hr
  · intro r hr
    rw [serial_poll h]
    rcases hr with hr | hended
    · exact hc.fresh r (Or.inl (ht.carries hr))
    · by_cases hold : r ∈ s.effects.filterMap ends
      · exact hc.fresh r (Or.inr hold)
      · exact hc.fresh r (Or.inl (ht.ended hc hended hold).1)

/-- What a step of a client, or of the world, leaves alone. -/
structure Frame (s s' : Responses.State) : Prop where
  pending : s'.rx.pendingRequests = s.rx.pendingRequests
  consumers : s'.rx.consumers = s.rx.consumers
  effects : s'.effects = s.effects

/-- Without a new request nothing moves. -/
theorem Carried.same (hc : Carried s) (hf : Frame s s') (hserial : s'.serial = s.serial)
    {regs : List Register} (hregs : s'.rx.registrations = s.rx.registrations ++ regs)
    (hnone : ∀ key r, Register.Request key r ∉ regs) :
    Carried s' ∧ ∀ r, Residue.carries s' r → Residue.carries s r := by
  obtain ⟨hpending, -, heffects⟩ := hf
  have hqueued : s'.queued = s.queued := by
    unfold Responses.State.queued
    rw [hregs, List.filterMap_append]
    refine List.append_right_eq_self.mpr (List.filterMap_eq_nil_iff.mpr ?_)
    intro reg hreg
    cases reg with
    | Request key r => exact absurd hreg (hnone key r)
    | Consumer | RemoveConsumer | Ping => rfl
  have hcarries : ∀ r, Residue.carries s' r → Residue.carries s r := by
    intro r hr
    unfold Residue.carries at hr ⊢
    rw [hqueued, hpending] at hr
    exact hr
  refine ⟨⟨?_, hpending ▸ hc.key, hqueued ▸ hc.nodup, ?_, ?_, ?_⟩, hcarries⟩
  · intro key r hr
    rw [hregs] at hr
    exact hc.keysMatch key r ((List.mem_append.mp hr).resolve_right (hnone key r))
  · rw [hqueued, hpending]
    exact hc.apart
  · rw [heffects]
    exact fun r hr => hc.unended r (hcarries r hr)
  · rw [heffects, hserial]
    exact fun r hr => hc.fresh r (hr.imp_left (hcarries r))

/-- A new request is registered with the next oneshot, which is nowhere yet. -/
theorem Carried.request (hc : Carried s) (hf : Frame s s') {key : RequestKey}
    (hregs : s'.rx.registrations = s.rx.registrations ++ [.Request key { key, serial := s.serial }])
    (hserial : s'.serial = s.serial + 1) :
    Carried s' ∧
      ∀ r, Residue.carries s' r → Residue.carries s r ∨ r = { key, serial := s.serial } := by
  obtain ⟨hpending, -, heffects⟩ := hf
  have hqueued : s'.queued = s.queued ++ [{ key, serial := s.serial }] := by
    unfold Responses.State.queued
    rw [hregs, List.filterMap_append]
    rfl
  have hcarries : ∀ r, Residue.carries s' r → Residue.carries s r ∨ r = { key, serial := s.serial } := by
    intro r hr
    unfold Residue.carries at hr ⊢
    rw [hqueued, hpending] at hr
    rcases hr with hr | hr
    · rcases List.mem_append.mp hr with hr | hr
      · exact Or.inl (Or.inl hr)
      · exact Or.inr (List.mem_singleton.mp hr)
    · exact Or.inl (Or.inr hr)
  have hnew : ∀ r, Residue.carries s r ∨ r ∈ s.effects.filterMap ends →
      r ≠ { key, serial := s.serial } := by
    rintro r hr rfl
    exact Nat.lt_irrefl _ (hc.fresh _ hr)
  refine ⟨⟨?_, hpending ▸ hc.key, ?_, ?_, ?_, ?_⟩, hcarries⟩
  · intro k r hr
    rw [hregs] at hr
    rcases List.mem_append.mp hr with hr | hr
    · exact hc.keysMatch k r hr
    · obtain ⟨rfl, rfl⟩ := Register.Request.inj (List.mem_singleton.mp hr)
      rfl
  · rw [hqueued]
    refine List.nodup_append.mpr ⟨hc.nodup, List.nodup_singleton _, ?_⟩
    intro r hr r' hr'
    rw [List.mem_singleton.mp hr']
    exact hnew r (Or.inl (Or.inl hr))
  · intro r hr
    rw [hpending]
    rw [hqueued] at hr
    rcases List.mem_append.mp hr with hr | hr
    · exact hc.apart r hr
    · intro hlookup
      exact hnew r (Or.inl (Or.inr hlookup)) (List.mem_singleton.mp hr)
  · intro r hr
    rw [heffects]
    rcases hcarries r hr with hr | rfl
    · exact hc.unended r hr
    · exact fun hended => hnew _ (Or.inr hended) rfl
  · intro r hr
    rw [heffects] at hr
    rw [hserial]
    rcases hr with hr | hr
    · rcases hcarries r hr with hr | rfl
      · exact Nat.lt_succ_of_lt (hc.fresh r (Or.inl hr))
      · exact Nat.lt_succ_self _
    · exact Nat.lt_succ_of_lt (hc.fresh r (Or.inr hr))

end

section

variable {s s' : Responses.State}

theorem Carried.of_same (hc : Carried s) (hf : Frame s s') (hserial : s'.serial = s.serial)
    {regs : List Register} (hregs : s'.rx.registrations = s.rx.registrations ++ regs)
    (hnone : ∀ key r, Register.Request key r ∉ regs) : Carried s' :=
  (hc.same hf hserial hregs hnone).1

theorem Carried.of_request (hc : Carried s) (hf : Frame s s') {key : RequestKey}
    (hregs : s'.rx.registrations = s.rx.registrations ++ [.Request key { key, serial := s.serial }])
    (hserial : s'.serial = s.serial + 1) : Carried s' :=
  (hc.request hf hregs hserial).1

/-- **The oneshots stay apart**, whatever is called. -/
theorem Carried.step {a : Responses.Action} (hc : Carried s)
    (h : Responses.step s a = some s') : Carried s' := by
  cases Responses.stepped h with
  | polls ha hpoll => exact hc.poll hpoll
  | registers key hrx hserial heffects =>
    have hregs : s'.rx.registrations =
        s.rx.registrations ++ [.Request key { key, serial := s.serial }] := by rw [hrx]
    exact hc.of_request ⟨hrx ▸ rfl, hrx ▸ rfl, heffects⟩ hregs hserial
  | enqueues reg hreg hconsumer hremove hs' =>
    subst hs'
    refine hc.of_same ⟨rfl, rfl, rfl⟩ rfl rfl fun key r hmem => ?_
    exact hreg key r (List.mem_singleton.mp hmem).symm
  | world rx hregistrations hpending hreceived hconsumers hs' =>
    subst hs'
    exact hc.of_same ⟨hpending, hconsumers, rfl⟩ rfl
      (hregistrations.trans (List.append_nil _).symm) fun _ _ hr => absurd hr List.not_mem_nil

theorem Carried.init (h : Responses.responses.init s) : Carried s := by
  obtain ⟨sequenceId, rfl⟩ := h
  have hpending : ∀ k r, (∅ : Finmap fun _ : RequestKey => Resolver).lookup k ≠ some r := by
    intro k r hr
    cases (Finmap.lookup_empty k).symm.trans hr
  have hnone : ∀ r, ¬ carries { sequenceId } r := by
    rintro r (hr | hr)
    · exact absurd hr List.not_mem_nil
    · exact hpending _ _ hr
  refine ⟨?_, ?_, List.nodup_nil, ?_, ?_, ?_⟩
  · exact fun key r hr => absurd hr List.not_mem_nil
  · exact fun k r hr => absurd hr (hpending k r)
  · exact fun r hr => absurd hr List.not_mem_nil
  · exact fun r hr => absurd hr (hnone r)
  · rintro r (hr | hr)
    · exact absurd hr (hnone r)
    · exact absurd hr List.not_mem_nil

end

/-! ## The receiver with an empty queue -/

/-- What a registration does to the consumers. -/
def registered (consumers : Finmap fun _ : Nat => Nat) : Register → Finmap fun _ : Nat => Nat
  | .Consumer consumerId resolver => consumers.insert consumerId resolver
  | .RemoveConsumer consumerId => consumers.erase consumerId
  | _ => consumers

theorem consumers_handleRegistration (rx : Receiver) (reg : Register) :
    (rx.handleRegistration reg).1.consumers = registered rx.consumers reg := by
  cases reg with
  | Request key r =>
    cases hm : rx.receivedMessages.lookup key with
    | some m =>
      rw [handleRegistration_early hm]
      rfl
    | none =>
      rw [handleRegistration_waits hm]
      rfl
  | Consumer | RemoveConsumer | Ping => rfl

theorem consumers_drained (rx : Receiver) :
    (drained rx).consumers = rx.registrations.foldl registered rx.consumers := by
  have hfold : ∀ (regs : List Register) (rx : Receiver),
      (regs.foldl (fun rx reg => (rx.handleRegistration reg).1) rx).consumers =
        regs.foldl registered rx.consumers := by
    intro regs
    induction regs with
    | nil => exact fun rx => rfl
    | cons reg regs ih =>
      intro rx
      rw [List.foldl_cons, List.foldl_cons, ih, consumers_handleRegistration]
  exact hfold _ _

theorem pending_handleRegistration {rx : Receiver} {reg : Register} {k : RequestKey} {r : Resolver}
    (h : (rx.handleRegistration reg).1.pendingRequests.lookup k = some r) :
    reg = .Request k r ∨ rx.pendingRequests.lookup k = some r := by
  cases reg with
  | Request key r₀ =>
    cases hm : rx.receivedMessages.lookup key with
    | some m =>
      rw [handleRegistration_early hm] at h
      exact Or.inr h
    | none =>
      rw [handleRegistration_waits hm] at h
      by_cases hkey : k = key
      · subst hkey
        rw [Option.some.inj ((Finmap.lookup_insert rx.pendingRequests).symm.trans h)]
        exact Or.inl rfl
      · exact Or.inr ((Finmap.lookup_insert_of_ne _ hkey).symm.trans h)
  | Consumer | RemoveConsumer | Ping => exact Or.inr h

/-- A pending request of the drained receiver was pending, or queued. -/
theorem pending_drained {rx : Receiver} {k : RequestKey} {r : Resolver}
    (h : (drained rx).pendingRequests.lookup k = some r) :
    Register.Request k r ∈ rx.registrations ∨ rx.pendingRequests.lookup k = some r := by
  have hfold : ∀ (regs : List Register) (rx : Receiver),
      (regs.foldl (fun rx reg => (rx.handleRegistration reg).1) rx).pendingRequests.lookup k = some r →
      Register.Request k r ∈ regs ∨ rx.pendingRequests.lookup k = some r := by
    intro regs
    induction regs with
    | nil => exact fun rx h => Or.inr h
    | cons reg regs ih =>
      intro rx h
      rcases ih _ h with hmem | hlookup
      · exact Or.inl (List.mem_cons_of_mem reg hmem)
      · refine (pending_handleRegistration hlookup).imp_left fun heq => ?_
        rw [heq]
        exact List.mem_cons_self
  exact hfold rx.registrations { rx with registrations := [] } h

section

variable {s s' : Responses.State}

theorem carries_of_drained (hc : Carried s) {k : RequestKey} {r : Resolver}
    (h : (drained s.rx).pendingRequests.lookup k = some r) : r.key = k ∧ carries s r := by
  rcases pending_drained h with hmem | hlookup
  · refine ⟨hc.keysMatch k r hmem, Or.inl ?_⟩
    exact List.mem_filterMap.mpr ⟨_, hmem, rfl⟩
  · obtain rfl := hc.key k r hlookup
    exact ⟨rfl, Or.inr hlookup⟩

/-- A step of the receiver does what the registrations say, sooner than all of them. -/
theorem consumers_drained_poll (h : s.poll = some s') :
    (drained s'.rx).consumers = (drained s.rx).consumers := by
  rw [consumers_drained, consumers_drained]
  cases Responses.polled h with
  | rests inbound error hrx heffects => rw [hrx]
  | registers reg rest hreg hrx heffects =>
    rw [hrx, registrations_handleRegistration, consumers_handleRegistration, hreg]
    rfl
  | receives m rest hphase hin hrx heffects =>
    rw [hrx, registrations_handleInbound, consumers_handleInbound]

/-- One more registration at the end of the queue. -/
theorem consumers_drained_push (hf : Frame s s') {reg : Register}
    (hregs : s'.rx.registrations = s.rx.registrations ++ [reg]) :
    (drained s'.rx).consumers = registered (drained s.rx).consumers reg := by
  rw [consumers_drained, consumers_drained, hregs, hf.consumers, List.foldl_append]
  rfl

end

/-! ## The invariant -/

/-- Every oneshot that is somewhere is of a request whose command is out, or going to be. -/
structure Inv (s : State) : Prop where
  carried : Carried s.conn
  known : ∀ r, carries s.conn r → r ∈ s.put ∨ r ∈ s.waiting
  consumers : ∀ consumerId resolver,
    (drained s.conn.rx).consumers.lookup consumerId = some resolver → (consumerId, resolver) ∈ s.live

section

variable {s t : State}

/-- A request is registered, and its command is put or waits. -/
theorem Inv.request (h : Inv s) (key : RequestKey) (hf : Frame s.conn t.conn)
    (hregs : t.conn.rx.registrations = s.conn.rx.registrations ++ [.Request key (s.next key)])
    (hserial : t.conn.serial = s.conn.serial + 1) (hlive : t.live = s.live)
    (hput : ∀ r, (r ∈ s.put ∨ r ∈ s.waiting) ∨ r = s.next key → r ∈ t.put ∨ r ∈ t.waiting) :
    Inv t := by
  obtain ⟨hcarried, hcarries⟩ := h.carried.request hf hregs hserial
  refine ⟨hcarried, fun r hr => hput r ((hcarries r hr).imp_left (h.known r)), ?_⟩
  rw [consumers_drained_push hf hregs, hlive]
  exact h.consumers

/-- Another registration is pushed, and the account of the consumers goes with it. -/
theorem Inv.enqueue (h : Inv s) (reg : Register) (hf : Frame s.conn t.conn)
    (hreg : ∀ key r, reg ≠ .Request key r)
    (hregs : t.conn.rx.registrations = s.conn.rx.registrations ++ [reg])
    (hserial : t.conn.serial = s.conn.serial) (hput : t.put = s.put) (hwaiting : t.waiting = s.waiting)
    (hlive : ∀ consumerId resolver,
      (registered (drained s.conn.rx).consumers reg).lookup consumerId = some resolver →
        (consumerId, resolver) ∈ t.live) : Inv t := by
  obtain ⟨hcarried, hcarries⟩ := h.carried.same hf hserial hregs
    fun key r hr => hreg key r (List.mem_singleton.mp hr).symm
  refine ⟨hcarried, ?_, ?_⟩
  · rw [hput, hwaiting]
    exact fun r hr => h.known r (hcarries r hr)
  · rw [consumers_drained_push hf hregs]
    exact hlive

/-- Nothing is registered. -/
theorem Inv.still (h : Inv s) (hf : Frame s.conn t.conn)
    (hregs : t.conn.rx.registrations = s.conn.rx.registrations)
    (hserial : t.conn.serial = s.conn.serial) (hlive : t.live = s.live)
    (hput : ∀ r, r ∈ s.put ∨ r ∈ s.waiting → r ∈ t.put ∨ r ∈ t.waiting) : Inv t := by
  obtain ⟨hcarried, hcarries⟩ := h.carried.same hf hserial
    (hregs.trans (List.append_nil _).symm) fun _ _ hr => absurd hr List.not_mem_nil
  refine ⟨hcarried, fun r hr => hput r (h.known r (hcarries r hr)), ?_⟩
  rw [consumers_drained, hregs, hf.consumers, ← consumers_drained, hlive]
  exact h.consumers

theorem Inv.poll (h : Inv s) {conn : Responses.State} (hpoll : s.conn.poll = some conn) :
    Inv { s with conn } where
  carried := h.carried.poll hpoll
  known r hr := h.known r ((takes_poll h.carried.keysMatch hpoll).carries hr)
  consumers := by
    show ∀ consumerId resolver, (drained conn.rx).consumers.lookup consumerId = _ → _
    rw [consumers_drained_poll hpoll]
    exact h.consumers

theorem Inv.init {conn : Responses.State} {n : Nat} (hinit : Responses.responses.init conn) :
    Inv { conn, outboundChannelSize := n } := by
  have hcarried := Carried.init hinit
  obtain ⟨sequenceId, rfl⟩ := hinit
  refine ⟨hcarried, ?_, ?_⟩
  · rintro r (hr | hr)
    · exact absurd hr List.not_mem_nil
    · cases (Finmap.lookup_empty r.key).symm.trans hr
  · intro consumerId resolver hlookup
    cases (Finmap.lookup_empty consumerId).symm.trans hlookup

/-- … so the tables hold no more than that. -/
theorem Inv.tables (h : Inv s) : NoResidue s := by
  have hrequests : ∀ key r, (drained s.conn.rx).pendingRequests.lookup key = some r →
      r.key = key ∧ r ∈ s.outstanding := by
    intro key r hr
    obtain ⟨hkey, hcarries⟩ := carries_of_drained h.carried hr
    refine ⟨hkey, List.mem_filter.mpr ⟨List.mem_append.mpr (h.known r hcarries), ?_⟩⟩
    exact decide_eq_true (h.carried.unended r hcarries)
  refine ⟨fun key r hr => (hrequests key r hr).2, h.consumers, ?_, ?_⟩
  · have hsub : (drained s.conn.rx).pendingRequests.keys ⊆
        (s.outstanding.map Resolver.key).toFinset := by
      intro key hkey
      obtain ⟨r, hr⟩ := Finmap.mem_iff.mp (Finmap.mem_keys.mp hkey)
      obtain ⟨rfl, hmem⟩ := hrequests key r hr
      exact List.mem_toFinset.mpr (List.mem_map_of_mem hmem)
    calc (drained s.conn.rx).pendingRequests.keys.card
        ≤ (s.outstanding.map Resolver.key).toFinset.card := Finset.card_le_card hsub
      _ ≤ (s.outstanding.map Resolver.key).length := List.toFinset_card_le _
      _ = s.outstanding.length := List.length_map _
  · have hsub : (drained s.conn.rx).consumers.keys ⊆ (s.live.map Prod.fst).toFinset := by
      intro consumerId hkey
      obtain ⟨resolver, hr⟩ := Finmap.mem_iff.mp (Finmap.mem_keys.mp hkey)
      exact List.mem_toFinset.mpr (List.mem_map_of_mem (f := Prod.fst) (h.consumers _ _ hr))
    calc (drained s.conn.rx).consumers.keys.card
        ≤ (s.live.map Prod.fst).toFinset.card := Finset.card_le_card hsub
      _ ≤ (s.live.map Prod.fst).length := List.toFinset_card_le _
      _ = s.live.length := List.length_map _

/-- With the sink there, the command of a request on the control channel is put. -/
theorem Inv.control (h : Inv s) (key : RequestKey) {conn : Responses.State}
    (hf : Frame s.conn conn)
    (hregs : conn.rx.registrations = s.conn.rx.registrations ++ [.Request key (s.next key)])
    (hserial : conn.serial = s.conn.serial + 1) (hsink : s.sinkGone = false) :
    Inv ({ s with conn }.control (s.next key)) := by
  unfold State.control
  rw [if_neg (by simp [hsink])]
  refine h.request key hf hregs hserial rfl ?_
  rintro r ((hr | hr) | rfl)
  · exact Or.inl (List.mem_append_left _ hr)
  · exact Or.inr hr
  · exact Or.inl (List.mem_append_right _ List.mem_cons_self)

/-- With the sink there, and room or the patience to wait for it, a `Send` is put or waits. -/
theorem enqueueData_keeps (r : Resolver) (blocking : Bool) (hsink : s.sinkGone = false)
    (hroom : blocking = true ∨ s.data < s.outboundChannelSize) :
    (s.enqueueData r blocking).conn = s.conn ∧ (s.enqueueData r blocking).live = s.live ∧
      ∀ r', (r' ∈ s.put ∨ r' ∈ s.waiting) ∨ r' = r →
        r' ∈ (s.enqueueData r blocking).put ∨ r' ∈ (s.enqueueData r blocking).waiting := by
  unfold State.enqueueData
  rw [if_neg (by simp [hsink])]
  by_cases hfull : s.data < s.outboundChannelSize
  · rw [if_pos hfull]
    refine ⟨rfl, rfl, ?_⟩
    rintro r' ((hr | hr) | rfl)
    · exact Or.inl (List.mem_append_left _ hr)
    · exact Or.inr hr
    · exact Or.inl (List.mem_append_right _ List.mem_cons_self)
  · rw [if_neg hfull, if_pos (hroom.resolve_right hfull)]
    refine ⟨rfl, rfl, ?_⟩
    rintro r' ((hr | hr) | rfl)
    · exact Or.inl hr
    · exact Or.inr (List.mem_append_left _ hr)
    · exact Or.inr (List.mem_append_right _ List.mem_cons_self)

/-- A consumer is registered or removed, and then a request is made. -/
theorem Inv.consumerRequest (h : Inv s) (reg : Register) {conn : Responses.State}
    {live : List (Nat × Nat)} (hsink : s.sinkGone = false) (hreg : ∀ key r, reg ≠ .Request key r)
    (hlive : ∀ consumerId resolver,
      (registered (drained s.conn.rx).consumers reg).lookup consumerId = some resolver →
        (consumerId, resolver) ∈ live)
    (h' : Responses.step (s.conn.enqueue reg) .request = some conn) :
    Inv ({ s with conn, live }.control (s.next (.RequestId s.conn.requestId))) := by
  have hmiddle : Inv { s with conn := s.conn.enqueue reg, live } :=
    h.enqueue reg ⟨rfl, rfl, rfl⟩ hreg rfl rfl rfl rfl hlive
  simp only [Responses.step] at h'
  split at h'
  · cases h'
  · obtain rfl := Option.some.inj h'
    exact hmiddle.control (.RequestId s.conn.requestId) ⟨rfl, rfl, rfl⟩ rfl rfl hsink

/-- What is not an operation of a client pushes at most a ping. -/
theorem Inv.world (h : Inv s) {a : Responses.Action} {conn : Responses.State}
    (ha : isWorld a = true) (h' : Responses.step s.conn a = some conn) : Inv { s with conn } := by
  cases a with
  | poll => exact h.poll h'
  | registerPing resolver =>
    simp only [Responses.step] at h'
    split at h'
    · cases h'
    · obtain rfl := Option.some.inj h'
      exact h.enqueue (.Ping resolver) ⟨rfl, rfl, rfl⟩ (fun _ _ heq => by cases heq) rfl rfl
        rfl rfl h.consumers
  | arrive | endInbound | closeRegistrations | closeControl | shutdown | setError =>
    obtain rfl := Option.some.inj h'
    exact h.still ⟨rfl, rfl, rfl⟩ rfl rfl rfl fun _ hr => hr
  | request | send | waitForExclusiveAccess | authChallenge | registerConsumer | removeConsumer =>
    cases ha

/-- **The step lemma.** -/
theorem Inv.step {a : Action} (h : Inv s) (hok : healthy s a = true)
    (hs : connection.step s a = some t) : Inv t := by
  cases a with
  | request | authChallenge =>
    have hsink : s.sinkGone = false := Bool.not_eq_true' _ |>.mp hok
    obtain ⟨conn, hconn, rfl⟩ := Option.map_eq_some_iff.mp hs
    simp only [Responses.step] at hconn
    split at hconn
    · cases hconn
    · obtain rfl := Option.some.inj hconn
      exact h.control _ ⟨rfl, rfl, rfl⟩ rfl rfl hsink
  | waitForExclusiveAccess requestId =>
    obtain ⟨conn, hconn, rfl⟩ := Option.map_eq_some_iff.mp hs
    simp only [Responses.step] at hconn
    split at hconn
    · cases hconn
    · split at hconn
      · obtain rfl := Option.some.inj hconn
        refine h.request (.RequestId requestId) ⟨rfl, rfl, rfl⟩ rfl rfl rfl ?_
        rintro r ((hr | hr) | rfl)
        · exact Or.inl (List.mem_append_left _ hr)
        · exact Or.inr hr
        · exact Or.inl (List.mem_append_right _ List.mem_cons_self)
      · cases hconn
  | send producerId sequenceId blocking =>
    obtain ⟨hsink, hroom⟩ := Bool.and_eq_true_iff.mp hok
    obtain ⟨conn, hconn, rfl⟩ := Option.map_eq_some_iff.mp hs
    simp only [Responses.step] at hconn
    split at hconn
    · cases hconn
    · obtain rfl := Option.some.inj hconn
      have hkeeps := enqueueData_keeps
        (s := { s with conn := { s.conn.register (.ProducerSend producerId sequenceId) with
          sequenceId := Function.update s.conn.sequenceId producerId (sequenceId + 1) } })
        (s.next (.ProducerSend producerId sequenceId)) blocking
        (Bool.not_eq_true' _ |>.mp hsink)
        ((Bool.or_eq_true _ _ |>.mp hroom).imp_right of_decide_eq_true)
      obtain ⟨hconn', hlive, hput⟩ := hkeeps
      refine h.request (.ProducerSend producerId sequenceId) ?_ ?_ ?_ hlive hput
      · rw [hconn']
        exact ⟨rfl, rfl, rfl⟩
      · rw [hconn']
        rfl
      · rw [hconn']
        rfl
  | room r =>
    have hsink : s.sinkGone = false := Bool.not_eq_true' _ |>.mp hok
    simp only [connection, Residue.step] at hs
    split at hs
    · rename_i hroom
      obtain rfl := Option.some.inj hs
      obtain ⟨hconn, hlive, hput⟩ := enqueueData_keeps
        (s := { s with waiting := s.waiting.erase r }) r true hsink (Or.inl rfl)
      refine h.still (by rw [hconn]; exact ⟨rfl, rfl, rfl⟩) (by rw [hconn]) (by rw [hconn]) hlive ?_
      intro r' hr'
      apply hput
      by_cases heq : r' = r
      · exact Or.inr heq
      · exact Or.inl (hr'.imp_right fun hw => (List.mem_erase_of_ne heq).mpr hw)
    · cases hs
  | subscribe consumerId resolver =>
    have hsink : s.sinkGone = false := Bool.not_eq_true' _ |>.mp hok
    obtain ⟨conn, hconn, hs⟩ := Option.bind_eq_some_iff.mp hs
    obtain ⟨conn', hconn', rfl⟩ := Option.map_eq_some_iff.mp hs
    simp only [Responses.step] at hconn
    split at hconn
    · cases hconn
    · obtain rfl := Option.some.inj hconn
      refine h.consumerRequest (.Consumer consumerId resolver) hsink
        (fun _ _ heq => by cases heq) ?_ hconn'
      intro id ch hlookup
      have hlookup' : ((drained s.conn.rx).consumers.insert consumerId resolver).lookup id = some ch :=
        hlookup
      by_cases hid : id = consumerId
      · subst hid
        rw [Finmap.lookup_insert] at hlookup'
        rw [Option.some.inj hlookup']
        exact List.mem_append_right _ List.mem_cons_self
      · rw [Finmap.lookup_insert_of_ne _ hid] at hlookup'
        apply List.mem_append_left
        exact List.mem_filter.mpr ⟨h.consumers id ch hlookup', decide_eq_true hid⟩
  | closeConsumer consumerId =>
    have hsink : s.sinkGone = false := Bool.not_eq_true' _ |>.mp hok
    obtain ⟨conn, hconn, hs⟩ := Option.bind_eq_some_iff.mp hs
    obtain ⟨conn', hconn', rfl⟩ := Option.map_eq_some_iff.mp hs
    simp only [Responses.step] at hconn
    split at hconn
    · cases hconn
    · obtain rfl := Option.some.inj hconn
      refine h.consumerRequest (.RemoveConsumer consumerId) hsink
        (fun _ _ heq => by cases heq) ?_ hconn'
      intro id ch hlookup
      have hlookup' : ((drained s.conn.rx).consumers.erase consumerId).lookup id = some ch := hlookup
      by_cases hid : id = consumerId
      · subst hid
        rw [Finmap.lookup_erase] at hlookup'
        cases hlookup'
      · rw [Finmap.lookup_erase_ne hid] at hlookup'
        exact List.mem_filter.mpr ⟨h.consumers id ch hlookup', decide_eq_true hid⟩
  | sink =>
    simp only [connection, Residue.step] at hs
    split at hs
    · obtain rfl := Option.some.inj hs
      exact h.still ⟨rfl, rfl, rfl⟩ rfl rfl rfl fun _ hr => hr
    · cases hs
  | endSink =>
    obtain rfl := Option.some.inj hs
    exact h.still ⟨rfl, rfl, rfl⟩ rfl rfl rfl fun _ hr => hr
  | world a =>
    simp only [connection, Residue.step] at hs
    split at hs
    · rename_i ha
      obtain ⟨conn, hconn, rfl⟩ := Option.map_eq_some_iff.mp hs
      exact h.world ha hconn
    · cases hs
  | dropSend | subscribeFails | leave => cases hok

end

/-- **No residue.**  In a run in which nothing fails on its way out, no `subscribe` fails and consumers
    are closed, the tables hold outstanding requests and live consumers, and no more. -/
theorem noResidue {s : State} (h : connection.ReachIf (fun s a => healthy s a = true) s) :
    NoResidue s := by
  have hinv : Inv s := by
    refine h.inv Inv ?_ fun _ _ _ hI hok hs => hI.step hok hs
    rintro _ ⟨conn, n, hconn, rfl⟩
    exact Inv.init hconn
  exact hinv.tables

/-- Two sends of which one waits for room, and a consumer that is subscribed. -/
theorem noResidue_waiting : ∃ s, NoResidue s ∧
    decide (s.outstanding.length = 3 ∧ s.live = [(5, 0)] ∧
      s.conn.rx.consumers.lookup 5 = some 0) = true := by
  obtain ⟨s, hs, hp⟩ := Sys.exists_reachIf_of_execIf (S := connection) healthy
    (p := fun s => decide (s.outstanding.length = 3 ∧ s.live = [(5, 0)] ∧
      s.conn.rx.consumers.lookup 5 = some 0)) (s := { outboundChannelSize := 1 })
    ⟨{}, 1, ⟨_, rfl⟩, rfl⟩
    [.send 7 0 true, .send 7 1 true, .subscribe 5 0, .world .poll, .world .poll, .world .poll,
      .world .poll, .world .poll] (by decide +kernel)
  exact ⟨s, noResidue hs, hp⟩

/-! ## What is left behind -/

/-- The data channel has room for one: the second send fails with `SlowDown`, and its request stays
    pending when the registrations are drained. -/
theorem slowDown_leaves_request : ∃ s, connection.Reach s ∧
    decide (s.conn.rx.registrations = [] ∧
      s.outstanding = [{ key := .ProducerSend 7 0, serial := 0 }] ∧
      s.conn.rx.pendingRequests.lookup (.ProducerSend 7 1) =
        some { key := .ProducerSend 7 1, serial := 1 }) = true :=
  Sys.exists_reach_of_exec (S := connection) (s := { outboundChannelSize := 1 })
    ⟨{}, 1, ⟨_, rfl⟩, rfl⟩
    [.send 7 0 false, .send 7 1 false, .world .poll, .world .poll, .world .poll] (by decide +kernel)

/-- What the broker answers to a `Subscribe` that it refuses. -/
def refused (requestId : Nat) : Message :=
  { command := { error := some { requestId, error := 5, message := "Exclusive consumer is already connected" } } }

/-- `subscribe` is answered with an error, and the consumer stays registered. -/
theorem failures_leave_residue :
    (∃ s, connection.Reach s ∧
      decide (s.conn.rx.registrations = [] ∧
        s.outstanding = [{ key := .ProducerSend 7 0, serial := 0 }] ∧
        s.conn.rx.pendingRequests.lookup (.ProducerSend 7 1) =
          some { key := .ProducerSend 7 1, serial := 1 }) = true) ∧
    ∃ s, connection.Reach s ∧
      decide (s.conn.rx.registrations = [] ∧ s.live = [] ∧ s.outstanding = [] ∧
        s.conn.handed = [({ key := .RequestId 0, serial := 0 }, refused 0)] ∧
        s.conn.rx.consumers.lookup 5 = some 0) = true := by
  refine ⟨slowDown_leaves_request, ?_⟩
  exact Sys.exists_reach_of_exec (S := connection) (s := { outboundChannelSize := 1 })
    ⟨{}, 1, ⟨_, rfl⟩, rfl⟩
    [.subscribe 5 0, .world (.arrive (.msg (refused 0))), .world .poll, .world .poll, .world .poll,
      .world .poll, .world .poll, .subscribeFails 5 0] (by decide +kernel)

end PulsarClient.Connection.Residue
