/-
  Do the broker's commands for a consumer FIND the consumer?

  `subscribe` pushes `Register::Consumer` into one queue and then writes the `Subscribe` command; what
  the broker sends comes in by another.  The receiver drains the registrations, then takes inbound
  messages until there are none, and does not look at the registrations in between.  So a command can
  be taken while the registration of its consumer is still queued.

  1. The SYSTEM (`registrations`): the receiver with its clients, and for each consumer id the
     subscription that is current: its channel, the request of its `Subscribe`, and whether the first
     `Flow` is out.

  2. FIFO (`Ends`): of the registrations about a consumer the current one is the last in the queue, and
     behind all of them is the request of the `Subscribe`.

  3. `commands_reach_consumers` — so when the `Subscribe` has been answered nothing about the consumer
     is queued any more, and from the first `Flow` on every command reaches the channel, as long as the
     consumer is not removed.

  4. `commands_are_dropped` — before that, and after it.
-/
import PulsarClient.Connection.Residue

namespace PulsarClient.Connection.Registration

open Runs Receiver Residue

/-! ## The system -/

/-- The subscription of a consumer. -/
structure Subscription where
  /-- the channel of the consumer -/
  resolver : Nat
  /-- the request of the `Subscribe`, when that is written -/
  request : Option Resolver := none
  /-- the first `Flow` is out -/
  flowed : Bool := false
  deriving DecidableEq, Repr

structure State where
  conn : Responses.State := {}
  /-- by consumer id, from the `Register::Consumer` to the `Register::RemoveConsumer` -/
  current : Nat → Option Subscription := fun _ => none

inductive Action where
  /-- `subscribe`: `Register::Consumer` -/
  | register (consumerId resolver : Nat)
  /-- … its request, and the command -/
  | subscribe (consumerId : Nat)
  /-- `send_flow`, when `subscribe` has returned -/
  | flow (consumerId : Nat)
  /-- `close_consumer`: `Register::RemoveConsumer` -/
  | remove (consumerId : Nat)
  /-- the other clients, the socket, the receiver task -/
  | other (a : Responses.Action)

/-- What is not about a consumer. -/
def isOther : Responses.Action → Bool
  | .registerConsumer _ _ => false
  | .removeConsumer _ => false
  | _ => true

def step (s : State) : Action → Option State
  | .register consumerId resolver =>
    (Responses.step s.conn (.registerConsumer consumerId resolver)).map fun conn =>
      { s with conn, current := Function.update s.current consumerId (some { resolver }) }
  | .subscribe consumerId =>
    match s.current consumerId with
    | some { resolver, request := none, flowed } =>
      (Responses.step s.conn .request).map fun conn =>
        let r : Resolver := { key := .RequestId s.conn.requestId, serial := s.conn.serial }
        { s with
          conn
          current := Function.update s.current consumerId
            (some { resolver, request := some r, flowed }) }
    | _ => none
  | .flow consumerId =>
    match s.current consumerId with
    | some { resolver, request := some r, flowed := _ } =>
      if r ∈ s.conn.handed.map Prod.fst then
        some { s with
          current := Function.update s.current consumerId
            (some { resolver, request := some r, flowed := true }) }
      else none
    | _ => none
  | .remove consumerId =>
    (Responses.step s.conn (.removeConsumer consumerId)).map fun conn =>
      { s with conn, current := Function.update s.current consumerId none }
  | .other a => if isOther a then (Responses.step s.conn a).map fun conn => { s with conn } else none

/-- A connection, from the moment its receiver is spawned. -/
def registrations : Sys State Action where
  init s := ∃ conn, Responses.responses.init conn ∧ s = { conn }
  step := step

/-! ## The order of the registrations -/

/-- The registration is about the consumer. -/
def about (consumerId : Nat) : Register → Bool
  | .Consumer id _ => id == consumerId
  | .RemoveConsumer id => id == consumerId
  | _ => false

/-- The last of the registrations that satisfy `p` is `reg`, if there is one. -/
def Ends (p : Register → Bool) (reg : Register) (regs : List Register) : Prop :=
  ∀ last, (regs.filter p).getLast? = some last → last = reg

section

variable {p : Register → Bool} {reg first : Register} {regs : List Register}

theorem Ends.tail (h : Ends p reg (first :: regs)) : Ends p reg regs := by
  intro last hlast
  apply h last
  by_cases hp : p first = true
  · rw [List.filter_cons_of_pos hp]
    cases hf : regs.filter p with
    | nil =>
      rw [hf] at hlast
      cases hlast
    | cons x xs =>
      rw [hf] at hlast
      rw [List.getLast?_cons_cons]
      exact hlast
  · rwa [List.filter_cons_of_neg hp]

theorem Ends.concat (h : Ends p reg regs) {new : Register} (hnew : p new = false) :
    Ends p reg (regs ++ [new]) := by
  unfold Ends
  rw [List.filter_append, List.filter_cons_of_neg (by rw [hnew]; exact Bool.false_ne_true),
    List.filter_nil, List.append_nil]
  exact h

theorem ends_concat_self (hp : p reg = true) : Ends p reg (regs ++ [reg]) := by
  intro last hlast
  rw [List.filter_append, List.filter_cons_of_pos hp, List.filter_nil, List.getLast?_concat] at hlast
  exact (Option.some.inj hlast).symm

/-- Without the last one there is none. -/
theorem Ends.none_of_notMem (h : Ends p reg regs) (hreg : reg ∉ regs) :
    ∀ x ∈ regs, p x = false := by
  have hnil : regs.filter p = [] := by
    cases hlast : (regs.filter p).getLast? with
    | none => exact List.getLast?_eq_none_iff.mp hlast
    | some last =>
      obtain rfl := h last hlast
      exact absurd (List.mem_filter.mp (List.mem_of_getLast? hlast)).1 hreg
  intro x hx
  rw [List.filter_eq_nil_iff] at hnil
  exact Bool.eq_false_iff.mpr (hnil x hx)

end

/-! ## What happens to the queue -/

section

variable {s s' : Responses.State}

/-- The queue loses its head, or gets a registration that is about no consumer and is new. -/
inductive Queue (s s' : Responses.State) : Prop where
  | still (h : s'.rx.registrations = s.rx.registrations)
  | taken (reg : Register) (h : s.rx.registrations = reg :: s'.rx.registrations)
  | pushed (reg : Register) (h : s'.rx.registrations = s.rx.registrations ++ [reg])
    (habout : ∀ consumerId, about consumerId reg = false)
    (hnew : ∀ r : Resolver, r.serial < s.serial → reg ≠ .Request r.key r)

/-- What a step that is not about a consumer does, as far as consumers go. -/
structure Drift (s s' : Responses.State) : Prop where
  queue : Queue s s'
  consumers : (drained s'.rx).consumers = (drained s.rx).consumers
  serial : s.serial ≤ s'.serial
  handed : ∀ x ∈ s.handed, x ∈ s'.handed

theorem drift_request {key : RequestKey} (hf : Frame s s')
    (hregs : s'.rx.registrations = s.rx.registrations ++ [.Request key { key, serial := s.serial }])
    (hserial : s'.serial = s.serial + 1) : Drift s s' where
  queue := by
    refine .pushed _ hregs (fun _ => rfl) ?_
    intro r hr heq
    obtain ⟨-, rfl⟩ := Register.Request.inj heq
    exact Nat.lt_irrefl _ hr
  consumers := consumers_drained_push hf hregs
  serial := by omega
  handed := by
    unfold Responses.State.handed
    rw [hf.effects]
    exact fun _ hx => hx

theorem drift_still (hf : Frame s s') (hregs : s'.rx.registrations = s.rx.registrations)
    (hserial : s'.serial = s.serial) : Drift s s' where
  queue := .still hregs
  consumers := by rw [consumers_drained, consumers_drained, hregs, hf.consumers]
  serial := by omega
  handed := by
    unfold Responses.State.handed
    rw [hf.effects]
    exact fun _ hx => hx

theorem queue_poll (h : s.poll = some s') : Queue s s' ∧ ∃ es, s'.effects = s.effects ++ es := by
  cases Responses.polled h with
  | rests inbound error hrx heffects =>
    exact ⟨.still (hrx ▸ rfl), [], heffects.trans (List.append_nil _).symm⟩
  | registers reg rest hreg hrx heffects =>
    refine ⟨.taken reg ?_, _, heffects⟩
    rw [hrx, registrations_handleRegistration, hreg]
  | receives m rest hphase hin hrx heffects =>
    refine ⟨.still ?_, _, heffects⟩
    rw [hrx, registrations_handleInbound]

theorem drift_step {a : Responses.Action} (ha : isOther a = true)
    (h : Responses.step s a = some s') : Drift s s' := by
  cases Responses.stepped h with
  | polls _ hpoll =>
    obtain ⟨hqueue, es, hes⟩ := queue_poll hpoll
    refine ⟨hqueue, consumers_drained_poll hpoll, (serial_poll hpoll).ge, ?_⟩
    unfold Responses.State.handed
    rw [hes, List.filterMap_append]
    exact fun x hx => List.mem_append_left _ hx
  | registers key hrx hserial heffects =>
    have hregs : s'.rx.registrations =
        s.rx.registrations ++ [.Request key { key, serial := s.serial }] := by rw [hrx]
    exact drift_request ⟨hrx ▸ rfl, hrx ▸ rfl, heffects⟩ hregs hserial
  | enqueues reg hreg hconsumer hremove hs' =>
    subst hs'
    cases reg with
    | Request key r => exact absurd rfl (hreg key r)
    | Consumer consumerId resolver =>
      obtain rfl := hconsumer consumerId resolver rfl
      cases ha
    | RemoveConsumer consumerId =>
      obtain rfl := hremove consumerId rfl
      cases ha
    | Ping resolver =>
      have hframe : Frame s (s.enqueue (.Ping resolver)) := ⟨rfl, rfl, rfl⟩
      exact ⟨.pushed (.Ping resolver) rfl (fun _ => rfl) (fun _ _ heq => by cases heq),
        consumers_drained_push hframe rfl, Nat.le_refl _, fun _ hx => hx⟩
  | world rx hregistrations hpending hreceived hconsumers hs' =>
    subst hs'
    exact drift_still ⟨hpending, hconsumers, rfl⟩ hregistrations rfl

end

/-! ## The invariant -/

/-- What stands behind a consumer's registrations in the queue. -/
def behind (consumerId : Nat) (r : Resolver) (reg : Register) : Bool :=
  about consumerId reg || decide (reg = .Request r.key r)

/-- What is known of the current subscription of a consumer. -/
structure Follows (conn : Responses.State) (consumerId : Nat) (sub : Subscription) : Prop where
  /-- its channel is the one that the queue will leave in the table -/
  channel : (drained conn.rx).consumers.lookup consumerId = some sub.resolver
  last : Ends (about consumerId) (.Consumer consumerId sub.resolver) conn.rx.registrations
  request : ∀ r, sub.request = some r →
    Ends (behind consumerId r) (.Request r.key r) conn.rx.registrations ∧ r.serial < conn.serial
  /-- the first `Flow` goes out when the `Subscribe` has been answered -/
  flowed : sub.flowed = true → ∃ r m, sub.request = some r ∧ (r, m) ∈ conn.handed

structure Inv (s : State) : Prop where
  carried : Carried s.conn
  follows : ∀ consumerId sub, s.current consumerId = some sub → Follows s.conn consumerId sub

theorem Ends.queue {s s' : Responses.State} {p : Register → Bool} {reg : Register}
    (h : Ends p reg s.rx.registrations) (hqueue : Queue s s')
    (hpush : ∀ new, (∀ consumerId, about consumerId new = false) →
      (∀ r : Resolver, r.serial < s.serial → new ≠ .Request r.key r) → p new = false) :
    Ends p reg s'.rx.registrations := by
  cases hqueue with
  | still hregs => exact hregs ▸ h
  | taken first hregs =>
    rw [hregs] at h
    exact h.tail
  | pushed new hregs habout hnew =>
    rw [hregs]
    exact h.concat (hpush new habout hnew)

/-- What is not about a consumer does not disturb its subscription. -/
theorem Follows.drift {conn conn' : Responses.State} {consumerId : Nat} {sub : Subscription}
    (h : Follows conn consumerId sub) (hd : Drift conn conn') : Follows conn' consumerId sub := by
  refine ⟨hd.consumers ▸ h.channel, h.last.queue hd.queue fun new habout _ => habout consumerId, ?_, ?_⟩
  · intro r hr
    obtain ⟨hends, hserial⟩ := h.request r hr
    refine ⟨hends.queue hd.queue fun new habout hnew => ?_, Nat.lt_of_lt_of_le hserial hd.serial⟩
    unfold behind
    rw [habout consumerId, decide_eq_false (hnew r hserial)]
    rfl
  · intro hflowed
    obtain ⟨r, m, hr, hmem⟩ := h.flowed hflowed
    exact ⟨r, m, hr, hd.handed _ hmem⟩

/-- … nor does what is about another one. -/
theorem Follows.push {conn conn' : Responses.State} {consumerId id : Nat} {sub : Subscription}
    {reg : Register} (h : Follows conn consumerId sub) (hf : Frame conn conn')
    (hregs : conn'.rx.registrations = conn.rx.registrations ++ [reg])
    (hserial : conn'.serial = conn.serial) (hid : id ≠ consumerId)
    (hreg : reg = .RemoveConsumer id ∨ ∃ resolver, reg = .Consumer id resolver) :
    Follows conn' consumerId sub := by
  have habout : about consumerId reg = false := by
    rcases hreg with rfl | ⟨resolver, rfl⟩ <;> exact beq_false_of_ne hid
  have hbehind : ∀ r, behind consumerId r reg = false := by
    intro r
    unfold behind
    rw [habout, decide_eq_false]
    · rfl
    · rcases hreg with rfl | ⟨resolver, rfl⟩ <;> exact fun heq => by cases heq
  refine ⟨?_, ?_, ?_, ?_⟩
  · rw [consumers_drained_push hf hregs]
    rcases hreg with rfl | ⟨resolver, rfl⟩
    · exact (Finmap.lookup_erase_ne (Ne.symm hid)).trans h.channel
    · exact (Finmap.lookup_insert_of_ne _ (Ne.symm hid)).trans h.channel
  · rw [hregs]
    exact h.last.concat habout
  · intro r hr
    rw [hregs, hserial]
    exact ⟨(h.request r hr).1.concat (hbehind r), (h.request r hr).2⟩
  · unfold Responses.State.handed
    rw [hf.effects]
    exact h.flowed

/-- A registration makes the consumer's channel the one that the queue will leave. -/
theorem follows_register {conn conn' : Responses.State} {consumerId resolver : Nat}
    (h : Responses.step conn (.registerConsumer consumerId resolver) = some conn') :
    Follows conn' consumerId { resolver } := by
  simp only [Responses.step] at h
  split at h
  · cases h
  · obtain rfl := Option.some.inj h
    have hf : Frame conn (conn.enqueue (.Consumer consumerId resolver)) := ⟨rfl, rfl, rfl⟩
    refine ⟨?_, ends_concat_self (beq_self_eq_true consumerId), ?_, ?_⟩
    · rw [consumers_drained_push hf rfl]
      exact Finmap.lookup_insert _
    · exact fun r hr => by cases hr
    · exact fun hflowed => by cases hflowed

/-- The registrations of other consumers do not matter. -/
theorem Follows.register_ne {conn conn' : Responses.State} {consumerId id resolver : Nat}
    {sub : Subscription} (h : Follows conn consumerId sub) (hid : id ≠ consumerId)
    (hs : Responses.step conn (.registerConsumer id resolver) = some conn') :
    Follows conn' consumerId sub := by
  simp only [Responses.step] at hs
  split at hs
  · cases hs
  · obtain rfl := Option.some.inj hs
    exact h.push ⟨rfl, rfl, rfl⟩ rfl rfl hid (Or.inr ⟨resolver, rfl⟩)

theorem Follows.remove_ne {conn conn' : Responses.State} {consumerId id : Nat} {sub : Subscription}
    (h : Follows conn consumerId sub) (hid : id ≠ consumerId)
    (hs : Responses.step conn (.removeConsumer id) = some conn') : Follows conn' consumerId sub := by
  simp only [Responses.step] at hs
  split at hs
  · cases hs
  · obtain rfl := Option.some.inj hs
    exact h.push ⟨rfl, rfl, rfl⟩ rfl rfl hid (Or.inl rfl)

/-- The request of the `Subscribe` stands behind the registration. -/
theorem Follows.subscribe {conn conn' : Responses.State} {consumerId resolver : Nat} {flowed : Bool}
    (h : Follows conn consumerId { resolver, flowed }) (hs : Responses.step conn .request = some conn') :
    Follows conn' consumerId
      { resolver
        request := some { key := .RequestId conn.requestId, serial := conn.serial }
        flowed } := by
  have hdrift := h.drift (drift_step rfl hs)
  refine ⟨hdrift.channel, hdrift.last, ?_, ?_⟩
  · intro r hr
    simp only [Responses.step] at hs
    split at hs
    · cases hs
    · obtain rfl := Option.some.inj hs
      obtain rfl := Option.some.inj hr
      refine ⟨ends_concat_self ?_, Nat.lt_succ_self _⟩
      unfold behind
      rw [decide_eq_true rfl, Bool.or_true]
  · intro hflowed
    obtain ⟨r, m, hr, -⟩ := h.flowed hflowed
    cases hr

/-- The `Flow` goes out when the request has been answered. -/
theorem Follows.flow {conn : Responses.State} {consumerId resolver : Nat} {r : Resolver} {flowed : Bool}
    (h : Follows conn consumerId { resolver, request := some r, flowed })
    (hanswered : r ∈ conn.handed.map Prod.fst) :
    Follows conn consumerId { resolver, request := some r, flowed := true } := by
  refine ⟨h.channel, h.last, h.request, fun _ => ?_⟩
  obtain ⟨x, hx, rfl⟩ := List.mem_map.mp hanswered
  exact ⟨x.1, x.2, rfl, hx⟩

theorem Inv.init {conn : Responses.State} (h : Responses.responses.init conn) : Inv { conn } where
  carried := Carried.init h
  follows := fun _ _ hsub => by cases hsub

theorem update_current {current : Nat → Option Subscription} {consumerId id : Nat}
    {new : Option Subscription} {sub : Subscription}
    (h : Function.update current consumerId new id = some sub) :
    (id = consumerId ∧ new = some sub) ∨ (id ≠ consumerId ∧ current id = some sub) := by
  by_cases hid : id = consumerId
  · subst hid
    rw [Function.update_self] at h
    exact Or.inl ⟨rfl, h⟩
  · rw [Function.update_of_ne hid] at h
    exact Or.inr ⟨hid, h⟩

/-- **The step lemma.** -/
theorem Inv.step {s s' : State} {a : Action} (h : Inv s) (hs : registrations.step s a = some s') :
    Inv s' := by
  cases a with
  | register consumerId resolver =>
    obtain ⟨conn, hconn, rfl⟩ := Option.map_eq_some_iff.mp hs
    refine ⟨h.carried.step hconn, ?_⟩
    intro id sub hsub
    rcases update_current hsub with ⟨rfl, hnew⟩ | ⟨hid, hold⟩
    · obtain rfl := Option.some.inj hnew
      exact follows_register hconn
    · exact (h.follows id sub hold).register_ne (Ne.symm hid) hconn
  | remove consumerId =>
    obtain ⟨conn, hconn, rfl⟩ := Option.map_eq_some_iff.mp hs
    refine ⟨h.carried.step hconn, ?_⟩
    intro id sub hsub
    rcases update_current hsub with ⟨-, hnew⟩ | ⟨hid, hold⟩
    · cases hnew
    · exact (h.follows id sub hold).remove_ne (Ne.symm hid) hconn
  | subscribe consumerId =>
    simp only [registrations, Registration.step] at hs
    split at hs
    · rename_i resolver flowed hcur
      obtain ⟨conn, hconn, rfl⟩ := Option.map_eq_some_iff.mp hs
      refine ⟨h.carried.step hconn, ?_⟩
      intro id sub hsub
      rcases update_current hsub with ⟨rfl, hnew⟩ | ⟨hid, hold⟩
      · obtain rfl := Option.some.inj hnew
        exact (h.follows id _ hcur).subscribe hconn
      · exact (h.follows id sub hold).drift (drift_step rfl hconn)
    · cases hs
  | flow consumerId =>
    simp only [registrations, Registration.step] at hs
    split at hs
    · rename_i resolver r flowed hcur
      split at hs
      · rename_i hhanded
        obtain rfl := Option.some.inj hs
        refine ⟨h.carried, ?_⟩
        intro id sub hsub
        rcases update_current hsub with ⟨rfl, hnew⟩ | ⟨-, hold⟩
        · obtain rfl := Option.some.inj hnew
          exact (h.follows id _ hcur).flow hhanded
        · exact h.follows id sub hold
      · cases hs
    · cases hs
  | other a =>
    simp only [registrations, Registration.step] at hs
    split at hs
    · rename_i ha
      obtain ⟨conn, hconn, rfl⟩ := Option.map_eq_some_iff.mp hs
      exact ⟨h.carried.step hconn, fun id sub hsub => (h.follows id sub hsub).drift (drift_step ha hconn)⟩
    · cases hs

/-! ## Who is found -/

/-- The consumer's registration has been taken: from then on nothing about it is queued.  This is so
    when its `Subscribe` has been answered, and when its first `Flow` is out. -/
def Settled (conn : Responses.State) (consumerId : Nat) (sub : Subscription) : Prop :=
  sub.flowed = true ∨ (∃ r m, sub.request = some r ∧ (r, m) ∈ conn.handed) ∨
    Register.Consumer consumerId sub.resolver ∉ conn.rx.registrations

theorem lookup_foldl_registered {consumerId : Nat} (regs : List Register)
    (consumers : Finmap fun _ : Nat => Nat) (h : ∀ reg ∈ regs, about consumerId reg = false) :
    (regs.foldl registered consumers).lookup consumerId = consumers.lookup consumerId := by
  induction regs generalizing consumers with
  | nil => rfl
  | cons reg regs ih =>
    rw [List.foldl_cons, ih _ fun x hx => h x (List.mem_cons_of_mem reg hx)]
    have hreg := h reg List.mem_cons_self
    cases reg with
    | Consumer id resolver => exact Finmap.lookup_insert_of_ne _ (ne_of_beq_false hreg).symm
    | RemoveConsumer id => exact Finmap.lookup_erase_ne (ne_of_beq_false hreg).symm
    | Request | Ping => rfl

/-- A request that has been answered is not in the queue any more. -/
theorem notMem_of_handed {conn : Responses.State} (h : Carried conn) {r : Resolver} {m : Message}
    (hr : (r, m) ∈ conn.handed) : Register.Request r.key r ∉ conn.rx.registrations := by
  intro hmem
  have hqueued : r ∈ conn.queued := List.mem_filterMap.mpr ⟨_, hmem, rfl⟩
  refine h.unended r (Or.inl hqueued) ?_
  obtain ⟨effect, heffect, heq⟩ := List.mem_filterMap.mp hr
  refine List.mem_filterMap.mpr ⟨effect, heffect, ?_⟩
  cases effect with
  | resolve r' m' =>
    obtain ⟨rfl, rfl⟩ := Prod.mk.inj (Option.some.inj heq)
    rfl
  | cancel | pong | cancelPing | deliver => cases heq

/-- **The consumer is in the table**, with its channel. -/
theorem Follows.lookup {conn : Responses.State} {consumerId : Nat} {sub : Subscription}
    (h : Follows conn consumerId sub) (hcarried : Carried conn)
    (hsettled : Settled conn consumerId sub) :
    conn.rx.consumers.lookup consumerId = some sub.resolver := by
  have hanswered : (∃ r m, sub.request = some r ∧ (r, m) ∈ conn.handed) →
      ∀ reg ∈ conn.rx.registrations, about consumerId reg = false := by
    rintro ⟨r, m, hr, hmem⟩ reg hreg
    have hbehind := (h.request r hr).1.none_of_notMem (notMem_of_handed hcarried hmem) reg hreg
    exact (Bool.or_eq_false_iff.mp hbehind).1
  have hnone : ∀ reg ∈ conn.rx.registrations, about consumerId reg = false := by
    rcases hsettled with hflowed | hanswer | htaken
    · exact hanswered (h.flowed hflowed)
    · exact hanswered hanswer
    · exact h.last.none_of_notMem htaken
  rw [← h.channel, consumers_drained]
  exact (lookup_foldl_registered _ _ hnone).symm

/-- The next message the receiver takes is a command for the consumer; a `CloseConsumer` under an id
    that no pending request has. -/
def TakesCommand (conn : Responses.State) (consumerId : Nat) (m : Message) : Prop :=
  conn.phase = .inbound ∧ (∃ rest, conn.rx.inbound = .msg m :: rest) ∧
    (routed m = some (.Consumer consumerId) ∨
      ∃ requestId, routed m = some (.CloseConsumer consumerId requestId) ∧
        conn.rx.pendingRequests.lookup (.RequestId requestId) = none)

theorem inv_of_reach {s : State} (h : registrations.Reach s) : Inv s := by
  refine h.inv Inv ?_ fun _ _ _ hI _ hs => hI.step hs
  rintro _ ⟨conn, hconn, rfl⟩
  exact Inv.init hconn

/-- **Every command is delivered** to a consumer whose registration has been taken and that is not
    removed: after its `Subscribe` has been answered, and so after the first `Flow`, in any
    interleaving. -/
theorem commands_reach_consumers {s : State} (h : registrations.Reach s) (consumerId : Nat)
    (sub : Subscription) (m : Message) (hsub : s.current consumerId = some sub)
    (hsettled : Settled s.conn consumerId sub) (hm : TakesCommand s.conn consumerId m) :
    ∃ conn, s.conn.poll = some conn ∧
      conn.effects = s.conn.effects ++ [.deliver sub.resolver m] := by
  obtain ⟨hphase, ⟨rest, hin⟩, hrouted⟩ := hm
  have hinv := inv_of_reach h
  have hlookup := (hinv.follows consumerId sub hsub).lookup hinv.carried hsettled
  have hdeliver : (({ s.conn.rx with inbound := rest } : Receiver).handleInbound m).2 =
      [.deliver sub.resolver m] := by
    have hfound : ({ s.conn.rx with inbound := rest } : Receiver).deliver consumerId m =
        [.deliver sub.resolver m] := by
      unfold Receiver.deliver
      rw [hlookup]
      rfl
    rcases hrouted with hr | ⟨requestId, hr, hp⟩
    · rw [handleInbound_of_routed hr]
      exact hfound
    · have hclose := handleInbound_close (r := { s.conn.rx with inbound := rest }) hr hp
      rw [hclose]
      exact hfound
  unfold Responses.State.poll
  rw [hphase]
  simp only [Receiver.poll, hin]
  exact ⟨_, rfl, congrArg (s.conn.effects ++ ·) hdeliver⟩

/-- The broker's answer to a `Subscribe`. -/
def answered (requestId : Nat) : Message := { command := { success := some { requestId } } }

def endOfTopic (consumerId : Nat) : Message :=
  { command := { reachedEndOfTopic := some { consumerId } } }

/-- Consumer 5 is subscribed, its request 0 has been answered, and the end of its topic comes in. -/
theorem commands_reach_consumers_endOfTopic :
    ∃ s, registrations.Reach s ∧
      s.current 5 = some
        { resolver := 0, request := some { key := .RequestId 0, serial := 0 }, flowed := true } ∧
      TakesCommand s.conn 5 (endOfTopic 5) ∧
      ∃ conn, s.conn.poll = some conn ∧
        conn.effects = s.conn.effects ++ [.deliver 0 (endOfTopic 5)] := by
  obtain ⟨s, hreach, h⟩ := Sys.exists_reach_of_exec (S := registrations) (s := {}) ⟨{}, ⟨_, rfl⟩, rfl⟩
    (p := fun s => decide (s.conn.phase = .inbound
      ∧ s.conn.rx.inbound = [.msg (endOfTopic 5)]
      ∧ s.current 5 = some
        { resolver := 0, request := some { key := .RequestId 0, serial := 0 }, flowed := true }))
    [.register 5 0, .subscribe 5, .other (.arrive (.msg (answered 0))), .other .poll,
      .other .poll, .other .poll, .other .poll, .other .poll, .flow 5,
      .other (.arrive (.msg (endOfTopic 5)))]
    (by decide +kernel)
  obtain ⟨hphase, hin, hcur⟩ := of_decide_eq_true h
  have htakes : TakesCommand s.conn 5 (endOfTopic 5) :=
    ⟨hphase, ⟨[], hin⟩, Or.inl rfl⟩
  exact ⟨s, hreach, hcur, htakes,
    commands_reach_consumers hreach 5 _ _ hcur (Or.inl rfl) htakes⟩

/-! ## Who is not -/

/-- A message of the broker, on its way to consumer 5. -/
def delivery : Message :=
  { command := { message := some { consumerId := 5, messageId := { ledgerId := 1, entryId := 0 } } } }

/-- The end of the topic is taken with the answer to the `Subscribe`, while the receiver still has to
    look at the registration; and a message is taken after a `RemoveConsumer` that it was sent before.
    The channel of the consumer gets neither. -/
theorem commands_are_dropped :
    registrations.init {} ∧
    ((registrations.exec {} [.other .poll, .other .poll, .register 5 0, .subscribe 5,
        .other (.arrive (.msg (answered 0))), .other (.arrive (.msg (endOfTopic 5))),
        .other .poll, .other .poll, .other .poll, .other .poll, .other .poll, .other .poll]).any
      fun s => decide (s.conn.rx.inbound = [] ∧ s.conn.rx.consumers.lookup 5 = some 0 ∧
        s.conn.effects = [.resolve { key := .RequestId 0, serial := 0 } (answered 0)])) = true ∧
    ((registrations.exec {} [.register 5 0, .subscribe 5, .other (.arrive (.msg (answered 0))),
        .other .poll, .other .poll, .other .poll, .other .poll, .other .poll, .flow 5,
        .other .poll, .other (.arrive (.msg delivery)), .other .poll, .remove 5, .other .poll, .other .poll,
        .other .poll, .other .poll]).any
      fun s => decide (s.conn.rx.inbound = [] ∧
        s.conn.effects = [.resolve { key := .RequestId 0, serial := 0 } (answered 0)])) = true :=
  ⟨⟨_, ⟨_, rfl⟩, rfl⟩, by decide +kernel, by decide +kernel⟩

end PulsarClient.Connection.Registration
